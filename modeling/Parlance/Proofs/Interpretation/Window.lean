import Parlance.Proofs.Interpretation.Refusal
import Parlance.Proofs.Pattern.Place

/-! Phrases for the last so many units of time. The number and the unit are found by a pattern that folds case
and knows every digit there is; reading them knows fewer. A number that cannot be read is refused, a unit that
cannot be read is not: where the plural ends in a long s, the phrase is passed over. -/

namespace Parlance

open Text (size lowerAfter)
open Pattern (Spelled sameLetter spelled_of_spells_letters spells_oneOf)
open Grammar (TimePhrase)

/-! ### The letters of a unit in lower case -/

namespace Text

variable {l c : Char} {w m : List Char}

/-- Only the letter s has a second form in lower case. -/
theorem lowerChar_of_sameLetter (hl : l.isLower = true) (hs : l ≠ 's') (h : sameLetter l c = true) : lowerChar c = [l] := by
  have hlower : l.toLower = l := forall_ascii (P := fun l => l.isLower = true → l.toLower = l) (by decide) (ascii_of_isLower hl) hl
  simp only [sameLetter, hlower, Bool.or_eq_true, Bool.and_eq_true, decide_eq_true_eq] at h
  rcases h with (h | ⟨hl', -⟩) | ⟨rfl, h⟩
  · by_cases hc : c.toNat < 128
    · rw [lowerChar, if_pos hc, h]
    · rw [toLower_of_not_ascii (Nat.le_of_not_lt hc)] at h
      exact absurd (ascii_of_isLower (h ▸ hl)) hc
  · exact absurd hl' hs
  · rw [← Char.ofNat_toNat c, h]
    decide

theorem lowerAfter_spelled (hw : ∀ l ∈ w, l.isLower = true ∧ l ≠ 's') (h : Spelled w m) (before x : List Char) :
    lowerAfter before (m ++ x) = w ++ lowerAfter (m.reverse ++ before) x := by
  induction h generalizing before with
  | nil => rfl
  | @cons l c w m hc _ ih =>
    obtain ⟨⟨hl, hs⟩, hw⟩ := List.forall_mem_cons.mp hw
    have hlower := lowerChar_of_sameLetter hl hs hc
    have hne : c ≠ capitalSigma := by
      rintro rfl
      have hsigma : l = 'σ' := by simpa using hlower.symm.trans (show lowerChar capitalSigma = ['σ'] by decide)
      rw [hsigma] at hl
      exact absurd hl (by decide)
    rw [List.cons_append, lowerAfter, if_neg hne, hlower, ih hw]
    simp

/-- The letter s of a plural is one of three, and one of these stays as it is. -/
theorem eq_of_sameLetter_s (h : sameLetter 's' c = true) : c = 's' ∨ c = 'S' ∨ c = 'ſ' := by
  simp only [sameLetter, Bool.or_eq_true, Bool.and_eq_true, decide_eq_true_eq] at h
  rcases h with (h | ⟨-, h⟩) | ⟨hk, -⟩
  · by_cases hc : c.toNat < 128
    · exact forall_ascii (P := fun c => c.toLower = ('s' : Char).toLower → c = 's' ∨ c = 'S' ∨ c = 'ſ') (by decide) hc h
    · rw [toLower_of_not_ascii (Nat.le_of_not_lt hc)] at h
      exact .inl h
  · exact .inr (.inr (Char.toNat_inj.mp h))
  · exact absurd hk (by decide)

end Text

namespace Interpretation

/-! ### The parts of a phrase -/

inductive SpokenUnit
  | hour
  | day
  | week
  | month
  deriving DecidableEq, Repr

namespace SpokenUnit

def name : SpokenUnit → String
  | hour => "hour"
  | day => "day"
  | week => "week"
  | month => "month"

/-- So many units; a week is seven days. -/
def window (n : Nat) : SpokenUnit → TimeWindow
  | hour => .last n .hour
  | day => .last n .day
  | week => .last (7 * n) .day
  | month => .last n .month

end SpokenUnit

/-- A phrase for the last so many units, as it stands in a text: a number and a unit, which may be a plural. -/
structure LastPhrase (cs : List Char) (h : Pattern.Hit) where
  before : List Char
  behind : List Char
  number : List Char
  unit : SpokenUnit
  stem : List Char
  plural : Option Char
  stands : h.Stands before behind cs
  number_eq : h.text? 1 = some number
  digits : number ≠ [] ∧ ∀ c ∈ number, Text.isDigit c = true
  unit_eq : h.text? 2 = some (stem ++ plural.toList)
  spelled : Spelled unit.name.toList stem
  letter : ∀ c ∈ plural, sameLetter 's' c = true

theorem spells_unit {u : List Char}
    (h : (Pattern.oneOf (["hour", "day", "week", "month"].map Grammar.maybePlural)).Spells u) :
    ∃ unit : SpokenUnit, ∃ stem, ∃ plural : Option Char, u = stem ++ plural.toList ∧ Spelled unit.name.toList stem ∧
      ∀ c ∈ plural, sameLetter 's' c = true := by
  obtain ⟨p, hp, h⟩ := spells_oneOf h
  obtain ⟨name, hname, rfl⟩ := List.mem_map.mp hp
  have hunits : ∀ name ∈ ["hour", "day", "week", "month"], ∃ unit : SpokenUnit, unit.name = name := by
    intro name hname
    simp only [List.mem_cons, List.not_mem_nil, or_false] at hname
    rcases hname with rfl | rfl | rfl | rfl
    · exact ⟨.hour, rfl⟩
    · exact ⟨.day, rfl⟩
    · exact ⟨.week, rfl⟩
    · exact ⟨.month, rfl⟩
  obtain ⟨unit, rfl⟩ := hunits name hname
  cases h with
  | both hstem hend =>
    have hspelled := spelled_of_spells_letters hstem
    cases hend with
    | left hs =>
      have hletter : Spelled ['s'] _ := spelled_of_spells_letters hs
      cases hletter with
      | cons hc hnil =>
        cases hnil
        exact ⟨unit, _, some _, rfl, hspelled, by simpa using hc⟩
    | right hnone =>
      cases hnone
      exact ⟨unit, _, none, rfl, hspelled, by simp⟩

theorem exists_lastPhrase {cs : List Char} {h : Pattern.Hit} (hh : TimePhrase.lastN.pattern.find? cs = some h) :
    Nonempty (LastPhrase cs h) := by
  have hof := Pattern.find?_of hh
  obtain ⟨before, behind, hstands⟩ := Pattern.exists_stands_of_find? hh
  obtain ⟨number, hnumber⟩ := hof.text?_of_always (n := 1) rfl
  obtain ⟨u, hu⟩ := hof.text?_of_always (n := 2) rfl
  have hdigits : number ≠ [] ∧ ∀ c ∈ number, Text.isDigit c = true := by
    have hbody : TimePhrase.lastN.pattern.bodies 1 = [Pattern.digits] := rfl
    obtain ⟨a, ha, hspells⟩ := hof.text? hnumber
    rw [hbody, List.mem_singleton] at ha
    subst ha
    exact Pattern.spells_some1 hspells
  have hunit : (Pattern.oneOf (["hour", "day", "week", "month"].map Grammar.maybePlural)).Spells u := by
    have hbody : TimePhrase.lastN.pattern.bodies 2 =
        [Pattern.oneOf (["hour", "day", "week", "month"].map Grammar.maybePlural)] := rfl
    obtain ⟨a, ha, hspells⟩ := hof.text? hu
    rw [hbody, List.mem_singleton] at ha
    exact ha ▸ hspells
  obtain ⟨unit, stem, plural, rfl, hspelled, hletter⟩ := spells_unit hunit
  exact ⟨⟨before, behind, number, unit, stem, plural, hstands, hnumber, hdigits, hu, hspelled, hletter⟩⟩

namespace LastPhrase

variable {cs : List Char} {h : Pattern.Hit}

/-- The number cannot be read, or it counts more weeks than fit in days. -/
def Refused (p : LastPhrase cs h) : Prop :=
  Number.readWord32? p.number = none ∨
    ∃ n, Number.readWord32? p.number = some n ∧ p.unit = .week ∧ Number.maxWord32 < 7 * n

/-- Weeks are told by how they begin, the other units by the whole word. -/
def Understood (p : LastPhrase cs h) : Prop := p.unit = .week ∨ p.plural ≠ some 'ſ'

/-- The unit in lower case is its name and the ending of the plural. -/
theorem exists_lower (p : LastPhrase cs h) : ∃ ending ∈ [[], ['s'], ['ſ']],
    Text.lower ((h.text? 2).getD []) = p.unit.name.toList ++ ending ∧ (ending = ['ſ'] ↔ p.plural = some 'ſ') := by
  have hname : ∀ l ∈ p.unit.name.toList, l.isLower = true ∧ l ≠ 's' := by
    cases p.unit <;> decide
  have hsplit (u : List Char) := Text.lowerAfter_spelled hname p.spelled [] u
  have hletter := p.letter
  rw [p.unit_eq, Option.getD_some, Text.lower, hsplit]
  cases hplural : p.plural with
  | none => exact ⟨[], by decide, rfl, by simp⟩
  | some c =>
    rw [hplural] at hletter
    rcases Text.eq_of_sameLetter_s (hletter c rfl) with rfl | rfl | rfl
    · exact ⟨['s'], by decide, rfl, by decide⟩
    · exact ⟨['s'], by decide, rfl, by decide⟩
    · exact ⟨['ſ'], by decide, rfl, by decide⟩

end LastPhrase

/-! ### What a phrase means -/

theorem isWeek_name (u : SpokenUnit) (ending : List Char) : isWeek (u.name.toList ++ ending) = decide (u = .week) := by
  cases u <;> rfl

theorem countedWindow_name (n : Nat) (u : SpokenUnit) {ending : List Char} (he : ending ∈ [[], ['s'], ['ſ']]) :
    countedWindow n (u.name.toList ++ ending) = if u = .week ∨ ending ≠ ['ſ'] then some (u.window n) else none := by
  simp only [List.mem_cons, List.not_mem_nil, or_false] at he
  rw [countedWindow, isWeek_name]
  cases u with
  | week => rfl
  | hour | day | month => rcases he with rfl | rfl | rfl <;> rfl

namespace LastPhrase

variable {cs : List Char} {h : Pattern.Hit}

theorem windowOf_refused (p : LastPhrase cs h) (hr : p.Refused) :
    windowOf .lastN h = .error (.unrecognizedIntent (String.ofList (Text.trim h.text))) := by
  obtain ⟨ending, -, hlower, -⟩ := p.exists_lower
  simp only [windowOf, p.number_eq, Option.bind_some, hlower, isWeek_name]
  rcases hr with hnone | ⟨n, hn, hweek, hlarge⟩
  · rw [hnone]
  · simp [hn, hweek, hlarge]

theorem windowOf_read (p : LastPhrase cs h) {n : Nat} (hn : Number.readWord32? p.number = some n) (hr : ¬p.Refused) :
    (p.Understood → windowOf .lastN h = .ok (some (p.unit.window n))) ∧
      (¬p.Understood → windowOf .lastN h = .ok none) := by
  obtain ⟨ending, hending, hlower, hlong⟩ := p.exists_lower
  have hfits : ¬(p.unit = .week ∧ Number.maxWord32 < 7 * n) := fun hlarge => hr (.inr ⟨n, hn, hlarge⟩)
  have hread : windowOf .lastN h = .ok (countedWindow n (p.unit.name.toList ++ ending)) := by
    simp only [windowOf, p.number_eq, Option.bind_some, hlower, isWeek_name, hn]
    simpa using hfits
  have hunderstood : p.Understood ↔ p.unit = .week ∨ ending ≠ ['ſ'] := or_congr_right (not_congr hlong.symm)
  rw [hread, countedWindow_name n p.unit hending, hunderstood]
  exact ⟨fun hu => by rw [if_pos hu], fun hu => by rw [if_neg hu]⟩

theorem take_span {ws : Workspace} (p : LastPhrase ws.text h) :
    ws.take h.span = ⟨p.before ++ (List.replicate (size h.text) ' ' ++ p.behind)⟩ := by
  rw [Workspace.take, p.stands.span_eq]
  exact congrArg Workspace.mk ((congrArg _ p.stands.text_eq).trans (Text.blankOut_append ..))

end LastPhrase

/-- The phrase for the last so many units comes first; what it does not mean is left to the other phrases. -/
theorem takeWindow_of_find? {ws : Workspace} {h : Pattern.Hit} (hh : TimePhrase.lastN.pattern.find? ws.text = some h) :
    takeWindow ws = match windowOf .lastN h with
      | .error e => (.error e, ws)
      | .ok (some w) => (.ok (some w), ws.take h.span)
      | .ok none => firstWindow ws [.lastUnit, .yesterday, .today] := by
  rw [takeWindow, TimePhrase.all]
  cases hw : windowOf .lastN h with
  | error e => simp only [firstWindow, hh, hw]
  | ok w => cases w <;> simp only [firstWindow, hh, hw]

/-- A phrase for the last so many units decides what becomes of the text, unless it counts hours, days or months
in a plural with a long s: it is refused and the text left alone, or it is the window and only the phrase is
taken. -/
theorem takeWindow_lastN {ws : Workspace} {h : Pattern.Hit} (hh : TimePhrase.lastN.pattern.find? ws.text = some h) :
    Nonempty (LastPhrase ws.text h) ∧ ∀ p : LastPhrase ws.text h,
      ((∃ e, (takeWindow ws).1 = .error e) ↔ p.Refused) ∧
      (p.Refused → takeWindow ws = (.error (.unrecognizedIntent (String.ofList (Text.trim h.text))), ws)) ∧
      ∀ n, Number.readWord32? p.number = some n → ¬p.Refused →
        (p.Understood → takeWindow ws =
          (.ok (some (p.unit.window n)), ⟨p.before ++ (List.replicate (size h.text) ' ' ++ p.behind)⟩)) ∧
        (¬p.Understood → takeWindow ws = firstWindow ws [.lastUnit, .yesterday, .today]) := by
  refine ⟨exists_lastPhrase hh, fun p => ?_⟩
  have hrefused (hr : p.Refused) :
      takeWindow ws = (.error (.unrecognizedIntent (String.ofList (Text.trim h.text))), ws) := by
    rw [takeWindow_of_find? hh, p.windowOf_refused hr]
  have hread {n : Nat} (hn : Number.readWord32? p.number = some n) (hr : ¬p.Refused) :
      (p.Understood → takeWindow ws =
          (.ok (some (p.unit.window n)), ⟨p.before ++ (List.replicate (size h.text) ' ' ++ p.behind)⟩)) ∧
        (¬p.Understood → takeWindow ws = firstWindow ws [.lastUnit, .yesterday, .today]) := by
    obtain ⟨hwindow, hnone⟩ := p.windowOf_read hn hr
    refine ⟨fun hu => ?_, fun hu => ?_⟩
    · rw [takeWindow_of_find? hh, hwindow hu, ← p.take_span]
    · rw [takeWindow_of_find? hh, hnone hu]
  refine ⟨⟨?_, fun hr => ⟨_, congrArg Prod.fst (hrefused hr)⟩⟩, hrefused, fun n hn hr => hread hn hr⟩
  rintro ⟨e, he⟩
  refine Classical.byContradiction fun hr => ?_
  obtain ⟨n, hn⟩ := Option.ne_none_iff_exists'.mp fun hnone => hr (.inl hnone)
  obtain ⟨hwindow, hnone⟩ := hread hn hr
  by_cases hu : p.Understood
  · rw [hwindow hu] at he
    cases he
  · -- None of the other phrases is ever refused.
    obtain ⟨w, hw⟩ := firstWindow_ok (by decide : TimePhrase.lastN ∉ [.lastUnit, .yesterday, .today])
    rw [hnone hu, hw] at he
    cases he

theorem takeWindow_lastN_weeks : ∃ h, TimePhrase.lastN.pattern.find? "show last 2 weeks".toList = some h ∧
    ∃ p : LastPhrase "show last 2 weeks".toList h, p.unit = .week ∧ Number.readWord32? p.number = some 2 ∧
      takeWindow ⟨"show last 2 weeks".toList⟩ = (.ok (some (.last 14 .day)), ⟨"show             ".toList⟩) := by
  let h : Pattern.Hit :=
    { span := ⟨5, 17⟩, text := "last 2 weeks".toList,
      captures := [(2, ⟨⟨12, 17⟩, "weeks".toList⟩), (1, ⟨⟨10, 11⟩, "2".toList⟩)] }
  have hh : TimePhrase.lastN.pattern.find? "show last 2 weeks".toList = some h := rfl
  let p : LastPhrase "show last 2 weeks".toList h :=
    { before := "show ".toList, behind := [], number := "2".toList, unit := .week, stem := "week".toList, plural := some 's'
      stands := ⟨rfl, rfl, by decide +kernel⟩
      number_eq := rfl
      digits := by decide
      unit_eq := rfl
      spelled := by decide
      letter := fun c hc => by
        cases hc
        rfl }
  have hnumber : Number.readWord32? p.number = some 2 := by decide
  have hread : ¬p.Refused := by
    rintro (hnone | ⟨n, hn, -, hlarge⟩)
    · rw [hnumber] at hnone
      cases hnone
    · rw [hnumber] at hn
      cases hn
      exact absurd hlarge (by decide)
  have hall := (takeWindow_lastN hh).2 p
  exact ⟨h, hh, p, rfl, hnumber, (hall.2.2 2 hnumber hread).1 (.inl rfl)⟩

/-- The number can be read, and yet the phrase is passed over. -/
theorem long_s_passed_over : (∃ h, TimePhrase.lastN.pattern.find? "last 5 dayſ".toList = some h ∧
      (h.text? 1).bind Number.readWord32? = some 5) ∧
    takeWindow ⟨"last 5 dayſ".toList⟩ = (.ok none, ⟨"last 5 dayſ".toList⟩) := by
  constructor
  · let h : Pattern.Hit :=
      { span := ⟨0, 12⟩, text := "last 5 dayſ".toList,
        captures := [(2, ⟨⟨7, 12⟩, "dayſ".toList⟩), (1, ⟨⟨5, 6⟩, "5".toList⟩)] }
    exact ⟨h, rfl, by decide⟩
  · rfl

end Interpretation

end Parlance
