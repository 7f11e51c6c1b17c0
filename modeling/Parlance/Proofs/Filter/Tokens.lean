import Parlance.Proofs.Filter.Reader
import Parlance.Proofs.Statement.Rendering

/-! How texts are cut into tokens. A text keeps its tokens when another one is written behind it, if
that one begins with a character that ends every token; names, numerals and quoted texts are one
token each. -/

namespace Parlance.Where

open Pattern (IsName isNameStart isNameChar)
open Text (isDigit run_of_forall takeWhile_append_of_lacks dropWhile_append_of_lacks)

/-- Whatever token stands before it, it goes on no further. -/
def Ends (cs : List Char) : Prop := ∀ c ∈ cs.head?, c ∈ [' ', '(', ')', ',']

variable {a b cs : List Char} {t : Token} {s ts : List Token}

theorem Ends.lacks (h : Ends b) {p : Char → Bool} (hp : ∀ c ∈ [' ', '(', ')', ','], p c = false) :
    ∀ c ∈ b.head?, p c = false := fun c hc => hp c (h c hc)

/-- A character that ends no token is found behind `cs` only if `cs` begins with it. -/
theorem Ends.append_ne (h : Ends b) {c : Char} (hc : c ∉ [' ', '(', ')', ','])
    (hcs : ∀ ds, cs = c :: ds → False) (ds : List Char) : cs ++ b = c :: ds → False := by
  intro hd
  cases cs with
  | nil => exact hc (h c (by rw [show b = c :: ds from hd]; rfl))
  | cons d cs =>
    rw [List.cons_append, List.cons.injEq] at hd
    exact hcs cs (by rw [hd.1])

/-! ### One token -/

theorem content?_append {content rest : List Char} (h : content? a = some (content, rest))
    (hb : Ends b) : content? (a ++ b) = some (content, rest ++ b) := by
  induction a using content?.induct generalizing content with
  | case1 => cases h
  | case2 cs ih =>
    simp only [content?, Option.map_eq_some_iff] at h
    obtain ⟨⟨s, r⟩, h, he⟩ := h
    cases he
    simp [content?, ih h]
  | case3 cs hcs =>
    -- The quote that closes the literal stays single, since `b` begins with no quote.
    rw [content?] at h
    · cases h
      rw [List.cons_append, content?]
      exact hb.append_ne (by decide) hcs
    · exact hcs
  | case4 c cs h1 h2 ih =>
    rw [content?] at h
    · obtain ⟨⟨s, r⟩, h, he⟩ := Option.map_eq_some_iff.mp h
      cases he
      rw [List.cons_append, content?]
      · simp [ih h]
      · exact fun _ hc _ => h2 hc
      · exact h2
    · exact h1
    · exact h2

theorem symbol?_append {rest : List Char} (h : symbol? a = some (t, rest)) (hb : Ends b) :
    symbol? (a ++ b) = some (t, rest ++ b) := by
  unfold symbol? at h
  split at h
  case h_8 hne | h_10 hne =>
    cases h
    rw [List.cons_append, symbol?]
    exact hb.append_ne (by decide) hne
  case h_11 cs =>
    obtain ⟨⟨s, r⟩, h, he⟩ := Option.map_eq_some_iff.mp h
    cases he
    simp [symbol?, content?_append h hb]
  case h_12 => cases h
  all_goals
    cases h
    rfl

theorem opensNumber_append (c : Char) (a : List Char) (hb : Ends b) :
    opensNumber (c :: a ++ b) = opensNumber (c :: a) := by
  have hhead : (a ++ b).head?.any isDecimalChar = a.head?.any isDecimalChar := by
    cases a with
    | cons d a => rfl
    | nil =>
      have hd := hb.lacks (p := isDecimalChar) (by decide)
      cases b with
      | nil => rfl
      | cons d b => simpa using hd d rfl
  by_cases hm : c = '-'
  · rw [hm]
    exact hhead
  · by_cases hp : c = '+'
    · rw [hp]
      exact hhead
    · simp [opensNumber, Number.splitSign, hm, hp]

theorem token?_append {rest : List Char} (h : token? a = some (t, rest)) (hb : Ends b) :
    token? (a ++ b) = some (t, rest ++ b) := by
  cases a with
  | nil => cases h
  | cons c a =>
    -- Words and numerals end with `a` at the latest: no character of theirs begins `b`.
    have hname := hb.lacks (p := isNameChar) (by decide)
    have hnumber := hb.lacks (p := isNumberChar) (by decide)
    simp only [token?, List.head?_cons, List.cons_append] at h ⊢
    rw [← List.cons_append, opensNumber_append c a hb]
    split at h
    · cases h
      rw [if_pos ‹_›, takeWhile_append_of_lacks _ hname, dropWhile_append_of_lacks _ hname]
    · rw [if_neg ‹_›]
      split at h
      · rw [if_pos ‹_›, takeWhile_append_of_lacks _ hnumber, dropWhile_append_of_lacks _ hnumber]
        split at h
        · cases h
          rw [if_pos ‹_›]
        · cases h
      · rw [if_neg ‹_›]
        exact symbol?_append h hb

/-! ### All tokens -/

theorem tokensFrom?_mono {n m : Nat} (h : tokensFrom? n cs = some ts) (hm : n ≤ m) :
    tokensFrom? m cs = some ts := by
  induction n, cs using tokensFrom?.induct generalizing m ts with
  | case1 n => simpa [tokensFrom?] using h
  | case2 c cs => cases h
  | case3 n cs ih =>
    obtain ⟨m, rfl⟩ : ∃ k, m = k + 1 := ⟨m - 1, by omega⟩
    exact ih h (by omega)
  | case4 n c cs hc ih =>
    obtain ⟨m, rfl⟩ : ∃ k, m = k + 1 := ⟨m - 1, by omega⟩
    simp only [tokensFrom?, if_neg hc, Option.bind_eq_some_iff, Option.map_eq_some_iff] at h ⊢
    obtain ⟨⟨t, rest⟩, ht, us, hu, rfl⟩ := h
    exact ⟨(t, rest), ht, us, ih rest hu (by omega), rfl⟩

theorem tokensFrom?_append {n m : Nat} (ha : tokensFrom? n a = some s) (hb : tokensFrom? m b = some ts)
    (he : Ends b) : tokensFrom? (n + m) (a ++ b) = some (s ++ ts) := by
  -- Along the calls that cut `a`; where it is used up, `b` is left with the fuel for it.
  induction n, a using tokensFrom?.induct generalizing s with
  | case1 n =>
    have hs : s = [] := by simpa [tokensFrom?] using ha.symm
    subst hs
    exact tokensFrom?_mono hb (by omega)
  | case2 c cs => cases ha
  | case3 n cs ih =>
    rw [Nat.succ_add]
    exact ih ha
  | case4 n c cs hc ih =>
    rw [Nat.succ_add]
    simp only [List.cons_append, tokensFrom?, if_neg hc, Option.bind_eq_some_iff,
      Option.map_eq_some_iff] at ha ⊢
    obtain ⟨⟨t, rest⟩, ht, us, hu, rfl⟩ := ha
    exact ⟨(t, rest ++ b), token?_append ht he, us ++ ts, ih rest hu, rfl⟩

theorem tokens?_append (ha : tokens? a = some s) (hb : tokens? b = some ts) (he : Ends b) :
    tokens? (a ++ b) = some (s ++ ts) := by
  rw [tokens?, List.length_append]
  exact tokensFrom?_append ha hb he

theorem tokens?_space (h : tokens? cs = some ts) : tokens? (' ' :: cs) = some ts := h

theorem tokens?_cons {c : Char} (hc : c ≠ ' ') (ht : token? (c :: cs) = some (t, cs))
    (h : tokens? cs = some ts) : tokens? (c :: cs) = some (t :: ts) := by
  simp only [tokens?] at h
  simp [tokens?, tokensFrom?, hc, ht, h]

theorem tokens?_one (hc : cs.head? ≠ some ' ') (h : token? cs = some (t, [])) :
    tokens? cs = some [t] := by
  cases cs with
  | nil => cases h
  | cons c cs =>
    have hc : c ≠ ' ' := by simpa using hc
    simp [tokens?, tokensFrom?, hc, h]

/-! ### Names, numerals and texts -/

theorem tokens?_name {s : String} (h : IsName s.toList) (hr : isReserved s.toList = false) :
    tokens? s.toList = some [.name s] := by
  have hall := h.isNameChar
  obtain ⟨c, cs, hs, hc, -⟩ := h
  have hword : word s.toList = .name s := by
    have hnone : reserved.find? (fun r => Text.sameWord r.1.toList s.toList) = none := by
      simpa [isReserved] using hr
    rw [word, hnone]
    simp
  refine tokens?_one ?_ ?_
  · rw [hs]
    rintro h
    cases h
    exact absurd hc (by decide)
  · obtain ⟨htake, hdrop⟩ := run_of_forall hall
    have hhead : s.toList.head?.any isNameStart = true := by rw [hs]; exact hc
    rw [token?, if_pos hhead, htake, hdrop, hword]

theorem isNameStart_of_isDecimalChar {c : Char} (h : isDecimalChar c = true) : isNameStart c = false := by
  rw [Bool.eq_false_iff]
  intro hs
  rcases Pattern.isNameChar_cases (Pattern.isNameChar_of_isNameStart hs) with hc | rfl | rfl
  · exact Text.forall_ascii (P := fun c => isDecimalChar c = true → isNameStart c = true → False)
      (by decide +kernel) hc h hs
  · exact absurd h (by decide)
  · exact absurd h (by decide)

theorem isNumberChar_of_isDecimalChar {c : Char} (h : isDecimalChar c = true) : isNumberChar c = true := by
  simp [isNumberChar, h]

theorem isNumberChar_of_splitSign (h : ∀ c ∈ (Number.splitSign cs).2, isNumberChar c = true) :
    ∀ c ∈ cs, isNumberChar c = true := by
  rcases Number.splitSign_cases cs with ⟨d, body, rfl, hd, hb⟩ | hb
  · rw [hb] at h
    refine List.forall_mem_cons.mpr ⟨?_, h⟩
    rcases hd with rfl | rfl <;> decide
  · rwa [hb] at h

theorem isNumberChar_of_isExponent (h : isExponent cs = true) : ∀ c ∈ cs, isNumberChar c = true := by
  cases cs with
  | nil => simp
  | cons c cs =>
    simp only [isExponent, Bool.and_eq_true, Bool.or_eq_true, decide_eq_true_eq, List.all_eq_true] at h
    obtain ⟨⟨he, -⟩, hd⟩ := h
    refine List.forall_mem_cons.mpr ⟨?_, isNumberChar_of_splitSign fun d hm => ?_⟩
    · rcases he with rfl | rfl <;> decide
    · exact isNumberChar_of_isDecimalChar (by simp [isDecimalChar, hd d hm])

theorem isNumberChar_of_isNumeral (h : isNumeral cs = true) : ∀ c ∈ cs, isNumberChar c = true := by
  simp only [isNumeral, Bool.and_eq_true] at h
  refine isNumberChar_of_splitSign fun c hc => ?_
  rw [← List.takeWhile_append_dropWhile (p := isDecimalChar) (l := (Number.splitSign cs).2)] at hc
  rcases List.mem_append.mp hc with hc | hc
  · exact isNumberChar_of_isDecimalChar (List.all_eq_true.mp List.all_takeWhile c hc)
  · exact isNumberChar_of_isExponent h.2 c hc

theorem opensNumber_of_isNumeral (h : isNumeral cs = true) : opensNumber cs = true := by
  simp only [isNumeral, isMantissa, Bool.and_eq_true] at h
  obtain ⟨d, hd, -⟩ := List.any_eq_true.mp h.1.1
  rw [opensNumber]
  cases hb : (Number.splitSign cs).2 with
  | nil => simp [hb] at hd
  | cons c body =>
    rw [hb, List.takeWhile_cons] at hd
    split at hd
    · simpa
    · cases hd

theorem not_isNameStart_of_opensNumber (h : opensNumber cs = true) : cs.head?.any isNameStart = false := by
  rw [opensNumber] at h
  rcases Number.splitSign_cases cs with ⟨d, body, rfl, hd, -⟩ | hb
  · rcases hd with rfl | rfl <;> rfl
  · rw [hb] at h
    cases cs with
    | nil => rfl
    | cons c cs => simpa using isNameStart_of_isDecimalChar (by simpa using h)

theorem tokens?_numeral {s : String} (h : isNumeral s.toList = true) :
    tokens? s.toList = some [.number s] := by
  have hopens := opensNumber_of_isNumeral h
  have hstart := not_isNameStart_of_opensNumber hopens
  obtain ⟨htake, hdrop⟩ := run_of_forall (isNumberChar_of_isNumeral h)
  refine tokens?_one ?_ ?_
  · intro hs
    have hspace := isNumberChar_of_isNumeral h ' ' (List.mem_of_mem_head? hs)
    exact absurd hspace (by decide)
  · rw [token?, if_neg (by simp [hstart]), if_pos hopens]
    simp only [htake, hdrop, h, if_true, String.ofList_toList]

theorem isNumeral_of_isDigit (hne : cs ≠ []) (h : ∀ c ∈ cs, isDigit c = true) : isNumeral cs = true := by
  have hdecimal (c : Char) (hc : c ∈ cs) : isDecimalChar c = true := by simp [isDecimalChar, h c hc]
  obtain ⟨htake, hdrop⟩ := run_of_forall hdecimal
  have hsign : (Number.splitSign cs).2 = cs := by
    rcases Number.splitSign_cases cs with ⟨c, body, rfl, hc, -⟩ | hb
    · have hd := h c List.mem_cons_self
      rcases hc with rfl | rfl <;> exact absurd hd (by decide)
    · exact hb
  have hpoint : '.' ∉ cs := fun hm => absurd (h _ hm) (by decide)
  have hany : cs.any isDigit = true := by
    obtain ⟨c, ds, rfl⟩ := List.exists_cons_of_ne_nil hne
    exact List.any_eq_true.mpr ⟨c, List.mem_cons_self, h c List.mem_cons_self⟩
  simp only [isNumeral, hsign, htake, hdrop, isMantissa, isExponent, hany, List.count_eq_zero.mpr hpoint]
  decide

theorem isMantissa_of_unsigned (h : Number.Unsigned cs) : isMantissa cs = true := by
  have hpoint {ds : List Char} (hds : Number.AllDigits ds) : ds.count '.' = 0 :=
    List.count_eq_zero.mpr fun hm => absurd (hds '.' hm) (by decide)
  have hany {ds : List Char} (hne : ds ≠ []) (hds : Number.AllDigits ds) : ds.any isDigit = true := by
    obtain ⟨c, ds, rfl⟩ := List.exists_cons_of_ne_nil hne
    have hc : isDigit c = true := by simp [isDigit, hds c List.mem_cons_self]
    exact List.any_eq_true.mpr ⟨c, List.mem_cons_self, hc⟩
  cases h with
  | whole hne hds => simp [isMantissa, hany hne hds, hpoint hds]
  | pointed hne hds hfs => simp [isMantissa, hany hne hds, hpoint hds, hpoint hfs]
  | fraction hne hfs =>
    have hdigit : isDigit '.' = false := by decide
    simp [isMantissa, List.any_cons, hdigit, hany hne hfs, hpoint hfs]

theorem isNumeral_of_numeral (h : Number.Numeral cs) : isNumeral cs = true := by
  have hdecimal : ∀ c ∈ (Number.splitSign cs).2, isDecimalChar c = true := by
    intro c hc
    rcases h.unsigned.chars c hc with hd | rfl
    · simp [isDecimalChar, isDigit, hd]
    · decide
  obtain ⟨htake, hdrop⟩ := run_of_forall hdecimal
  rw [isNumeral, htake, hdrop, isMantissa_of_unsigned h.unsigned]
  rfl

theorem isNumeral_toString (n : Nat) : isNumeral (toString n).toList = true := by
  refine isNumeral_of_isDigit ?_ fun c => Statement.isDigit_of_mem_toString
  rw [Nat.toString_eq_repr, Nat.toList_repr]
  exact Nat.toDigits_ne_nil

theorem content?_doubled (cs : List Char) :
    content? (Text.substitute '\'' ['\'', '\''] cs ++ ['\'']) = some (cs, []) := by
  induction cs with
  | nil => rfl
  | cons c cs ih =>
    rw [Text.substitute, List.flatMap_cons, ← Text.substitute]
    split
    · next hc => simp [content?, ih, hc]
    · next hc =>
      rw [List.singleton_append, List.cons_append, content?]
      · simp [ih]
      · exact fun _ h _ => hc h
      · exact hc

theorem tokens?_quoted (s : String) : tokens? (quoted s).toList = some [.text s] := by
  have hs := Statement.toList_quoted s
  have hsymbol : symbol? (quoted s).toList = some (.text s, []) := by
    rw [hs, symbol?, content?_doubled]
    simp
  refine tokens?_one ?_ ?_
  · rw [hs]
    simp
  · rw [← hsymbol, hs]
    rfl

end Parlance.Where
