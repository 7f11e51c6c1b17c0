import Parlance.Proofs.Pattern.Search
import Parlance.Proofs.Validation.Agreement

/-! The tables of a FROM clause and the allowed ones. Of tables that are joined the validator sees every
one; of tables in a list with commas it sees the first one only, so that the list gets past it. -/

namespace Parlance

open Pattern
open Text (size isBlank isWord isWordAt words Lacks)

namespace Text

/-! ### Words between blanks -/

theorem words_ne_nil {cs : List Char} {c : Char} (hmem : c ∈ cs) (hc : isBlank c = false) : words cs ≠ [] := by
  induction cs with
  | nil => cases hmem
  | cons d cs ih =>
    obtain ⟨p, ps, hp, hcons⟩ := pieces_cons isBlank d cs
    rw [words, hcons]
    by_cases hd : isBlank d = true
    · have hrest : c ∈ cs := by
        refine (List.mem_cons.mp hmem).resolve_left ?_
        rintro rfl
        rw [hd] at hc
        cases hc
      have hwords := ih hrest
      rw [words, hp] at hwords
      simpa [hd] using hwords
    · simp [hd]

theorem words_blanks {g : List Char} (hg : ∀ c ∈ g, isBlank c = true) : words g = [] := by
  induction g with
  | nil => rfl
  | cons c g ih =>
    obtain ⟨hc, hg⟩ := List.forall_mem_cons.mp hg
    have h := words_append_blank hc [] g
    rw [ih hg] at h
    exact h

theorem words_between {g n g' : List Char} (hg : ∀ c ∈ g, isBlank c = true)
    (hg' : ∀ c ∈ g', isBlank c = true) : words (g ++ (n ++ g')) = words n := by
  have hright : words (n ++ g') = words n := by
    cases g' with
    | nil => rw [List.append_nil]
    | cons c g' =>
      obtain ⟨hc, hrest⟩ := List.forall_mem_cons.mp hg'
      rw [words_append_blank hc, words_blanks hrest, List.append_nil]
  induction g with
  | nil => exact hright
  | cons c g ih =>
    obtain ⟨hc, hg⟩ := List.forall_mem_cons.mp hg
    have h := words_append_blank hc [] (g ++ (n ++ g'))
    rw [ih hg] at h
    exact h

theorem lacks_blanks {ws : List String} {g : List Char} (hg : ∀ c ∈ g, isBlank c = true) : Lacks ws g := by
  induction g with
  | nil => exact .nil
  | cons c g ih =>
    obtain ⟨hc, hg⟩ := List.forall_mem_cons.mp hg
    exact (Lacks.cons_iff (isWord_of_isBlank hc)).mpr (ih hg)

theorem trim_append_tail {x tail : List Char} (hne : x ≠ []) (hhead : ∀ c ∈ x.head?, isBlank c = false)
    (hlast : ∀ c ∈ x.getLast?, isBlank c = false) : trim (x ++ tail) = x ++ trimEnd tail := by
  have hstart : trimStart (x ++ tail) = x ++ tail := by
    obtain ⟨c, x, rfl⟩ := List.exists_cons_of_ne_nil hne
    rw [trimStart, List.cons_append, List.dropWhile_cons, hhead c rfl, if_neg Bool.false_ne_true]
  have hend : x.reverse.dropWhile isBlank = x.reverse := by
    cases hx : x.reverse with
    | nil => rfl
    | cons c y =>
      have hc : x.getLast? = some c := by rw [← List.head?_reverse, hx]; rfl
      rw [List.dropWhile_cons, hlast c hc, if_neg Bool.false_ne_true]
  rw [trim, hstart, trimEnd, trimEnd, dropEndWhile, dropEndWhile, List.reverse_append, List.dropWhile_append]
  split
  · next h => rw [List.isEmpty_iff.mp h, hend]; simp
  · simp

end Text

namespace Validation

/-! ### References -/

def referenceWords : List String := ["from", "join", "into", "update"]

theorem leads_referenceWords :
    Leads referenceWords (oneOf [word "from", word "join", word "into", word "update"]) := by
  refine .oneOf fun p hp => ?_
  simp only [List.mem_cons, List.not_mem_nil, or_false] at hp
  rcases hp with rfl | rfl | rfl | rfl <;> exact (Leads.word _).mono (by decide)

theorem keyed_tableReference : Keyed referenceWords tableReference :=
  (headed_gap leads_referenceWords).keyed (by decide)

theorem isBlank_of_isNameStart {c : Char} (h : isNameStart c = true) : isBlank c = false :=
  isBlank_of_isNameChar (isNameChar_of_isNameStart h)

theorem two_le_words {a w x : List Char} (hm : Matches tableReference a w x) :
    2 ≤ (words (a ++ (w ++ x))).length := by
  obtain ⟨e, w, rfl, -, hrest⟩ := spells_seq_cons hm.spells
  obtain ⟨m, w, rfl, hkey, hrest⟩ := spells_seq_cons hrest
  obtain ⟨g, r, rfl, hg, hname⟩ := spells_seq_cons hrest
  obtain ⟨c, cs, rfl, hblank⟩ := spells_gap hg
  -- A visible character on either side of the gap: one of the key word and one of the name.
  obtain ⟨d, hd, hdvisible⟩ : ∃ d ∈ m, isBlank d = false := by
    obtain ⟨k, hk, n, y, rfl, hn, -⟩ := leads_referenceWords m hkey
    obtain ⟨hkne, hkalpha⟩ := (by decide : Lettered referenceWords) k hk
    obtain ⟨d, n', rfl⟩ := List.exists_cons_of_ne_nil (hn.ne_nil hkne)
    refine ⟨d, by simp, ?_⟩
    have hword := hn.isWord hkalpha d List.mem_cons_self
    cases hb : isBlank d with
    | false => rfl
    | true =>
      rw [Text.isWord_of_isBlank hb] at hword
      cases hword
  obtain ⟨f, hf, hfvisible⟩ : ∃ f ∈ r, isBlank f = false := by
    cases (hname : (group 1 _).Spells r) with
    | group hname =>
      cases hname with
      | both hname _ =>
        obtain ⟨q, z, rfl, -, hname⟩ := spells_seq_cons hname
        obtain ⟨f, z, rfl, hf, -⟩ := spells_seq_cons hname
        cases hf with
        | one hf => exact ⟨_, by simp, isBlank_of_isNameStart hf⟩
  have hcut : a ++ (e ++ (m ++ (c :: cs ++ r)) ++ x) = (a ++ e ++ m) ++ c :: (cs ++ r ++ x) := by simp
  rw [hcut, Text.words_append_blank (hblank c List.mem_cons_self), List.length_append]
  have hleft : words (a ++ e ++ m) ≠ [] := Text.words_ne_nil (List.mem_append_right _ hd) hdvisible
  have hright : words (cs ++ r ++ x) ≠ [] :=
    Text.words_ne_nil (List.mem_append_left _ (List.mem_append_right _ hf)) hfvisible
  have := List.length_pos_iff.mpr hleft
  have := List.length_pos_iff.mpr hright
  omega

theorem referencedTables_eq_nil {cs : List Char} (h : (words cs).length ≤ 1) : referencedTables cs = [] := by
  have hnone : tableReference.hits cs = [] := by
    refine hitsFrom_eq_nil (u := []) fun a b hab => fails_of_matches fun w x hb hm => ?_
    have htwo := two_le_words hm
    rw [List.nil_append, ← hb, ← hab] at htwo
    omega
  rw [referencedTables, hnone]
  rfl

theorem referencedTables_comma (a b : List Char) :
    referencedTables (a ++ ',' :: b) = referencedTables a ++ referencedTables b := by
  have hcut := hits_cut (p := tableReference) (q := ',') (by decide) (by decide) a b
  have hshift (h : Hit) (n : Nat) : ((h.shift n).text? 1).map bareName = (h.text? 1).map bareName := by
    rw [Hit.text?_shift]
  simp only [referencedTables, hcut, List.filterMap_append, List.filterMap_map, Function.comp_def, hshift]

theorem isTableChar_of_isNameChar {c : Char} (h : isNameChar c = true) : isTableChar c = true := by
  rw [isTableChar, h, Bool.true_or]

theorem isBracket_of_isNameChar {c : Char} (h : isNameChar c = true) : isBracket c = false := by
  have hne {d : Char} (hd : isNameChar d = false) : c ≠ d := Text.ne_of_holds h hd
  simp [isBracket, isOpening, isClosing, hne (d := '`') (by decide), hne (d := '"') (by decide),
    hne (d := '[') (by decide), hne (d := ']') (by decide)]

theorem prefers_tableName {u n x : List Char} (hn : IsName n) (hx : ∀ c ∈ x.head?, isBlank c = true) :
    Prefers tableName u n x [] := by
  obtain ⟨c, cs, rfl, hc, hcs⟩ := hn
  have hopening : isOpening c = false :=
    (Bool.or_eq_false_iff.mp (isBracket_of_isNameChar (isNameChar_of_isNameStart hc))).1
  have hchars : ∀ d ∈ cs, isTableChar d = true := fun d hd => isTableChar_of_isNameChar (hcs d hd)
  have hend : ∀ d ∈ x.head?, isTableChar d = false := by
    intro d hd
    have hdollar : d ≠ '$' := Text.ne_of_holds (hx d hd) (by decide)
    simp [isTableChar, isNameChar_of_isBlank (hx d hd), hdollar]
  have hclosing : Fails (one isClosing) (u ++ c :: cs) x := by
    refine fails_of_begins rfl fun d hd => ?_
    have hne {e : Char} (he : isBlank e = false) : d ≠ e := Text.ne_of_holds (hx d hd) he
    simp [begins, isClosing, hne (e := '`') (by decide), hne (e := '"') (by decide),
      hne (e := ']') (by decide)]
  have hrest : Prefers (seq [many isTableChar, optional (one isClosing)]) (u ++ [c]) cs x [] :=
    .both_nil (.many hchars hend) (.optional_absent (by simpa using hclosing))
  exact .seq_nil (.optional_absent (fails_one hopening)) (.seq_cons (v := [c]) (.one hc) hrest)

theorem prefers_key {k : String} (hk : k ∈ referenceWords) {u m x : List Char} (hm : Spelled k.toList m) :
    Prefers (oneOf (referenceWords.map word)) u m x [] :=
  .oneOf_spelled (by decide) (by decide) (by decide) hk hm

theorem prefers_tableReference {k : String} (hk : k ∈ referenceWords) {u m g n x : List Char}
    (hu : isWordAt u.getLast? = false) (hm : Spelled k.toList m) (hg : g ≠ [])
    (hblank : ∀ c ∈ g, isBlank c = true) (hn : IsName n) (hx : ∀ c ∈ x.head?, isBlank c = true) :
    Prefers tableReference u (m ++ (g ++ n)) x [(1, .behind (u ++ m ++ g) n)] := by
  obtain ⟨hkne, hkalpha⟩ := (by decide : Lettered referenceWords) k hk
  have hmne : m ≠ [] := hm.ne_nil hkne
  have hword : ∀ c ∈ m, isWord c = true := hm.isWord hkalpha
  have hedge : Prefers edge u [] (m ++ (g ++ n) ++ x) [] := by
    refine .edge ?_
    rw [List.append_assoc, Cursor.atEdge_before hmne hword, hu]
    rfl
  have hvisible : ∀ c ∈ (n ++ x).head?, isBlank c = false := by
    obtain ⟨c, cs, rfl, hc, -⟩ := hn
    intro d hd
    cases hd
    exact isBlank_of_isNameStart hc
  have hdot : Fails (both (char '.') tableName) (u ++ m ++ g ++ n) x := by
    refine (fails_of_begins rfl fun d hd => ?_).both
    have hne : d ≠ '.' := Text.ne_of_holds (hx d hd) (by decide)
    simp [begins, char, hne]
  have hname : Prefers (both tableName (optional (both (char '.') tableName))) (u ++ m ++ g) n x [] :=
    .both_nil (prefers_tableName hn hx) (.optional_absent hdot)
  exact .seq_nil hedge (.seq_cons (prefers_key hk hm) (.seq_cons (.some1 hg hblank hvisible) (.seq_last hname.group)))

theorem bareName_name {n : List Char} (hn : IsName n) : bareName n = String.ofList (Text.lower n) := by
  have hbracket : ∀ c ∈ n, isBracket c = false := fun c hc => isBracket_of_isNameChar (hn.isNameChar c hc)
  have hdot : ∀ c ∈ n, decide (c = '.') = false := by
    intro c hc
    exact decide_eq_false (Text.ne_of_holds (hn.isNameChar c hc) (by decide))
  have hdrop {cs : List Char} (h : ∀ c ∈ cs, isBracket c = false) : cs.dropWhile isBracket = cs := by
    cases cs with
    | nil => rfl
    | cons c cs => rw [List.dropWhile_cons, h c List.mem_cons_self, if_neg Bool.false_ne_true]
  have hback : Text.dropEndWhile isBracket n = n := by
    rw [Text.dropEndWhile, hdrop (by simpa using hbracket), List.reverse_reverse]
  rw [bareName, Text.pieces_of_forall hdot]
  simp only [List.getLast?_singleton, Option.getD_some, hdrop hbracket, hback]

/-- A table's name as it is looked up among the allowed ones. -/
def lowered (n : List Char) : String := String.ofList (Text.lower n)

/-- The tables that `x` refers to behind `u`. -/
def referencesBehind (u x : List Char) : List String :=
  (tableReference.hitsFrom (size u) (.between u x) x).filterMap fun h => (h.text? 1).map bareName

theorem referencesBehind_skip {u pre x : List Char} (hpre : Lacks referenceWords pre)
    (hend : isWordAt pre.getLast? = false) : referencesBehind u (pre ++ x) = referencesBehind (u ++ pre) x := by
  have hle : size u ≤ size (u ++ pre) := by
    rw [Text.size_append]
    omega
  rw [referencesBehind, keyed_tableReference.hitsFrom_skip (by decide) hpre hend,
    hitsFrom_low hle (Nat.le_refl _)]
  rfl

theorem referencesBehind_reference {k : String} (hk : k ∈ referenceWords) {u m g n x : List Char}
    (hu : isWordAt u.getLast? = false) (hm : Spelled k.toList m) (hg : g ≠ [])
    (hblank : ∀ c ∈ g, isBlank c = true) (hn : IsName n) (hx : ∀ c ∈ x.head?, isBlank c = true) :
    referencesBehind u (m ++ (g ++ n) ++ x) = lowered n :: referencesBehind (u ++ (m ++ (g ++ n))) x := by
  have hp := prefers_tableReference hk hu hm hg hblank hn hx
  have hne : m ++ (g ++ n) ≠ [] := by simp [hg]
  have hname : ((Hit.behind u (m ++ (g ++ n)) [(1, .behind (u ++ m ++ g) n)]).text? 1).map bareName =
      some (lowered n) := by
    rw [Hit.text?_behind]
    exact congrArg some (bareName_name hn)
  rw [referencesBehind, hp.hitsFrom hne (Nat.le_refl _), List.filterMap_cons, hname]
  rfl

theorem referencesBehind_blanks {u g : List Char} (hg : ∀ c ∈ g, isBlank c = true) :
    referencesBehind u g = [] := by
  rw [referencesBehind, keyed_tableReference.hitsFrom_eq_nil (by decide) (Text.lacks_blanks hg)]
  rfl

/-! ### Lists of tables -/

/-- A further table of a list with commas. -/
structure CommaTable where
  before : List Char
  behind : List Char
  name : List Char
  before_blank : ∀ c ∈ before, isBlank c = true
  behind_blank : ∀ c ∈ behind, isBlank c = true
  isName : IsName name

/-- A further table behind the word JOIN. Between the table before it and the word may stand the kind of
the join and the condition of the last one. -/
structure JoinedTable where
  between : List Char
  word : List Char
  gap : List Char
  name : List Char
  opens : between ≠ [] ∧ ∀ c ∈ between.head?, isBlank c = true
  lacks : Lacks referenceWords between
  ends : isWordAt between.getLast? = false
  join : Spelled "join".toList word
  gap_ne_nil : gap ≠ []
  gap_blank : ∀ c ∈ gap, isBlank c = true
  isName : IsName name

def selectAll : List Char := "SELECT * FROM ".toList

def selectFrom (t : List Char) : List Char := selectAll ++ t

def commaText (ms : List CommaTable) : List Char := ms.flatMap fun m => m.before ++ ',' :: (m.behind ++ m.name)

def joinText (js : List JoinedTable) (tail : List Char) : List Char :=
  (js.flatMap fun j => j.between ++ (j.word ++ (j.gap ++ j.name))) ++ tail

section Lists

variable {t tail x : List Char}

theorem referencedTables_selectFrom (ht : IsName t) (hx : ∀ c ∈ x.head?, isBlank c = true) :
    referencedTables (selectFrom t ++ x) = lowered t :: referencesBehind (selectFrom t) x := by
  have hwhole (cs : List Char) : referencedTables cs = referencesBehind [] cs := rfl
  have hgroup (a b : List Char) : a ++ (b ++ [' ']) ++ t ++ x = a ++ (b ++ ([' '] ++ t) ++ x) := by simp
  have hungroup (a b : List Char) : a ++ (b ++ ([' '] ++ t)) = a ++ (b ++ [' ']) ++ t := by simp
  have hopening : selectAll = "SELECT * ".toList ++ ("FROM".toList ++ [' ']) := by decide
  rw [hwhole, selectFrom, hopening, hgroup, referencesBehind_skip (by decide) (by decide),
    List.nil_append, referencesBehind_reference (List.mem_cons_self : "from" ∈ referenceWords) (by decide)
      (by decide) (by decide) (by decide) ht hx, hungroup]

theorem referencedTables_commaText {base : List Char} {ts : List String} (ms : List CommaTable)
    (hbase : ∀ g, (∀ c ∈ g, isBlank c = true) → referencedTables (base ++ g) = ts) :
    referencedTables (base ++ commaText ms) = ts := by
  -- The commas cut the text. What stands between two of them is one word, and a reference takes two.
  induction ms generalizing base ts with
  | nil => exact hbase [] (by simp)
  | cons m ms ih =>
    have htext : base ++ commaText (m :: ms) = (base ++ m.before) ++ ',' :: ((m.behind ++ m.name) ++ commaText ms) := by
      simp [commaText]
    have hrest : referencedTables ((m.behind ++ m.name) ++ commaText ms) = [] := by
      refine ih fun g hg => referencedTables_eq_nil ?_
      have hvisible : ∀ c ∈ m.name, isBlank c = false := fun c hc => isBlank_of_isNameChar (m.isName.isNameChar c hc)
      rw [List.append_assoc, Text.words_between m.behind_blank hg, words, Text.pieces_of_forall hvisible]
      exact List.length_filter_le _ _
    rw [htext, referencedTables_comma, hbase _ m.before_blank, hrest, List.append_nil]

theorem referencedTables_comma_list (ht : IsName t) (ms : List CommaTable) :
    referencedTables (selectFrom t ++ commaText ms) = [lowered t] := by
  refine referencedTables_commaText ms fun g hg => ?_
  rw [referencedTables_selectFrom ht fun c hc => hg c (List.mem_of_mem_head? hc), referencesBehind_blanks hg]

theorem head?_joinText (js : List JoinedTable) (htail : ∀ c ∈ tail.head?, isBlank c = true) :
    ∀ c ∈ (joinText js tail).head?, isBlank c = true := by
  cases js with
  | nil => exact htail
  | cons j js =>
    obtain ⟨hne, hhead⟩ := j.opens
    obtain ⟨c, cs, hcs⟩ := List.exists_cons_of_ne_nil hne
    rw [hcs] at hhead
    simpa [joinText, hcs] using hhead

theorem referencesBehind_joinText (js : List JoinedTable) (htail : ∀ c ∈ tail.head?, isBlank c = true)
    (u : List Char) : ∃ more, referencesBehind u (joinText js tail) = js.map (lowered ·.name) ++ more := by
  induction js generalizing u with
  | nil => exact ⟨_, rfl⟩
  | cons j js ih =>
    have htext : joinText (j :: js) tail = j.between ++ (j.word ++ (j.gap ++ j.name) ++ joinText js tail) := by
      simp [joinText]
    have hlast : isWordAt (u ++ j.between).getLast? = false := by
      rw [List.getLast?_append, List.getLast?_eq_some_getLast j.opens.1]
      have hends := j.ends
      rwa [List.getLast?_eq_some_getLast j.opens.1] at hends
    obtain ⟨more, hmore⟩ := ih (u ++ j.between ++ (j.word ++ (j.gap ++ j.name)))
    refine ⟨more, ?_⟩
    rw [htext, referencesBehind_skip j.lacks j.ends, referencesBehind_reference (by decide) hlast j.join
      j.gap_ne_nil j.gap_blank j.isName (head?_joinText js htail), hmore]
    rfl

theorem referencedTables_joinText (ht : IsName t) (js : List JoinedTable)
    (htail : ∀ c ∈ tail.head?, isBlank c = true) :
    ∃ more, referencedTables (selectFrom t ++ joinText js tail) =
      (t :: js.map (·.name)).map lowered ++ more := by
  obtain ⟨more, hmore⟩ := referencesBehind_joinText js htail (selectFrom t)
  refine ⟨more, ?_⟩
  rw [referencedTables_selectFrom ht (head?_joinText js htail), hmore]
  simp

end Lists

/-! ### What is trimmed -/

def EndsVisibly (cs : List Char) : Prop := ∀ c ∈ cs.getLast?, isBlank c = false

theorem EndsVisibly.append {u v : List Char} (hu : EndsVisibly u) (hv : EndsVisibly v) : EndsVisibly (u ++ v) := by
  intro c hc
  rw [List.getLast?_append] at hc
  cases hlast : v.getLast? with
  | none =>
    rw [hlast] at hc
    exact hu c hc
  | some d =>
    rw [hlast] at hc
    cases hc
    exact hv c hlast

theorem EndsVisibly.flatMap {α : Type} {f : α → List Char} (hf : ∀ a, EndsVisibly (f a)) (l : List α) :
    EndsVisibly (l.flatMap f) := by
  induction l with
  | nil => exact fun c hc => nomatch hc
  | cons a l ih => exact (hf a).append ih

theorem endsVisibly_name (u : List Char) {n : List Char} (hn : IsName n) : EndsVisibly (u ++ n) := by
  intro c hc
  have hne : n ≠ [] := by
    obtain ⟨d, ds, rfl, -⟩ := hn
    exact List.cons_ne_nil d ds
  rw [List.getLast?_append, List.getLast?_eq_some_getLast hne, Option.some_or] at hc
  cases hc
  exact isBlank_of_isNameChar (hn.isNameChar _ (List.getLast_mem hne))

variable {t : List Char}

theorem trim_selectFrom (ht : IsName t) {x : List Char} (hx : EndsVisibly x) (tail : List Char) :
    Text.trim (selectFrom t ++ x ++ tail) = selectFrom t ++ x ++ Text.trimEnd tail := by
  have hopening : selectAll = 'S' :: selectAll.tail := by decide
  have hhead : selectFrom t ++ x = 'S' :: (selectAll.tail ++ t ++ x) := by
    rw [selectFrom, hopening]
    rfl
  refine Text.trim_append_tail ?_ ?_ ((endsVisibly_name _ ht).append hx)
  · rw [hhead]
    exact List.cons_ne_nil _ _
  · rw [hhead]
    intro c hc
    cases hc
    decide

theorem endsVisibly_commaText (ms : List CommaTable) : EndsVisibly (commaText ms) := by
  refine .flatMap (fun m => ?_) ms
  have hsplit : m.before ++ ',' :: (m.behind ++ m.name) = m.before ++ ',' :: m.behind ++ m.name := by simp
  rw [hsplit]
  exact endsVisibly_name _ m.isName

theorem endsVisibly_joinText (js : List JoinedTable) : EndsVisibly (joinText js []) := by
  rw [joinText, List.append_nil]
  refine .flatMap (fun j => ?_) js
  rw [← List.append_assoc j.word, ← List.append_assoc j.between, ← List.append_assoc]
  exact endsVisibly_name _ j.isName

/-! ### The verdict -/

theorem foldl_addOnce_eq_nil {ts out : List String} (h : ts.foldl Validator.addOnce out = []) : ts = [] := by
  refine List.eq_nil_iff_forall_not_mem.mpr fun t ht => ?_
  have hmem : t ∈ ts.foldl Validator.addOnce out := addsOnce_addOnce.mem_iff.mpr (.inr ht)
  rw [h] at hmem
  exact List.not_mem_nil hmem

theorem tableErrors_eq_nil_iff {v : Validator} (hv : v.allowedTables ≠ []) {cs : List Char} :
    v.tableErrors cs = [] ↔ ∀ t ∈ referencedTables cs, t ∈ v.allowedTables := by
  have hempty : v.allowedTables.isEmpty = false := by simpa using hv
  have hnone : v.unauthorized cs = [] ↔ ∀ t ∈ referencedTables cs, t ∈ v.allowedTables := by
    constructor
    · intro h
      have hfilter := foldl_addOnce_eq_nil h
      simpa [List.filter_eq_nil_iff] using hfilter
    · intro h
      have hfilter : (referencedTables cs).filter (!v.allowedTables.contains ·) = [] := by
        simpa [List.filter_eq_nil_iff] using h
      rw [Validator.unauthorized, hfilter]
      rfl
  rw [← hnone, Validator.tableErrors, hempty, if_neg Bool.false_ne_true]
  cases v.unauthorized cs with
  | nil => simp
  | cons t ts => simp

theorem accepted_iff_of_harmless {v : Validator} {sql : List Char} {confirm : Bool} (hne : Text.trim sql ≠ [])
    (hharmless : (v.validate sql confirm).isDestructive = false) :
    (v.validate sql confirm).accepted = true ↔ Validator.dangerErrors (Text.trim sql) = [] ∧
      Validator.stackErrors (Text.trim sql) = [] ∧ v.tableErrors (Text.trim sql) = [] := by
  have hempty : (Text.trim sql).isEmpty = false := by simpa using hne
  rw [isDestructive_validate] at hharmless
  rw [Validator.accepted_iff]
  simp only [Validator.validate, hempty, Bool.false_eq_true, if_false, hharmless, Bool.false_and,
    Validator.confirmationErrors, List.append_nil, List.append_eq_nil_iff, and_assoc]

theorem stackErrors_eq_nil {cs : List Char} (h : ∀ c ∈ cs, c ≠ ';') : Validator.stackErrors cs = [] := by
  have hone : Text.pieces (· = ';') cs = [cs] := Text.pieces_of_forall fun c hc => decide_eq_false (h c hc)
  have hcount : statementCount cs ≤ 1 := by
    rw [statementCount, hone]
    exact List.length_filter_le _ _
  rw [Validator.stackErrors, if_neg (by omega)]

theorem not_semicolon_commaText (ms : List CommaTable) : ∀ c ∈ commaText ms, c ≠ ';' := by
  intro c hc
  obtain ⟨m, -, hc⟩ := List.mem_flatMap.mp hc
  simp only [List.mem_append, List.mem_cons] at hc
  rcases hc with hc | rfl | hc | hc
  · exact Text.ne_of_holds (m.before_blank c hc) (by decide)
  · decide
  · exact Text.ne_of_holds (m.behind_blank c hc) (by decide)
  · exact Text.ne_of_holds (m.isName.isNameChar c hc) (by decide)

theorem dangerErrors_eq_nil_iff {cs : List Char} :
    Validator.dangerErrors cs = [] ↔ ∀ d ∈ dangers, d.1.holds cs = false := by
  rw [Validator.dangerErrors, List.map_eq_nil_iff, List.filter_eq_nil_iff]
  simp

/-- Of a list with commas only the first table has to be allowed. -/
theorem accepted_commaText {v : Validator} (hv : v.allowedTables ≠ []) (confirm : Bool) (ht : IsName t)
    (ms : List CommaTable) : (v.validate (selectFrom t ++ commaText ms) confirm).accepted = true ↔
      lowered t ∈ v.allowedTables ∧ ∀ d ∈ dangers, d.1.holds (selectFrom t ++ commaText ms) = false := by
  have htrim : Text.trim (selectFrom t ++ commaText ms) = selectFrom t ++ commaText ms := by
    simpa [Text.trimEnd, Text.dropEndWhile] using trim_selectFrom ht (endsVisibly_commaText ms) []
  have hopening : selectAll = "SELECT".toList ++ ' ' :: "* FROM ".toList := by decide
  have hharmless : (v.validate (selectFrom t ++ commaText ms) confirm).isDestructive = false := by
    rw [selectFrom, hopening, List.append_assoc, List.append_assoc, List.cons_append]
    exact isDestructive_of_harmless (by decide) (by decide) (by decide) (by decide) _ v confirm
  have hstack : Validator.stackErrors (selectFrom t ++ commaText ms) = [] := by
    refine stackErrors_eq_nil fun c hc => ?_
    simp only [selectFrom, List.mem_append] at hc
    rcases hc with (hc | hc) | hc
    · exact (by decide : ∀ c ∈ selectAll, c ≠ ';') c hc
    · exact Text.ne_of_holds (ht.isNameChar c hc) (by decide)
    · exact not_semicolon_commaText ms c hc
  have hne : Text.trim (selectFrom t ++ commaText ms) ≠ [] := by
    rw [htrim, selectFrom, hopening]
    simp
  rw [accepted_iff_of_harmless hne hharmless, htrim, tableErrors_eq_nil_iff hv, referencedTables_comma_list ht,
    dangerErrors_eq_nil_iff]
  simp [hstack, and_comm]

theorem mem_allowedTables_of_accepted {v : Validator} (hv : v.allowedTables ≠ []) {sql : List Char} {confirm : Bool}
    (h : (v.validate sql confirm).accepted = true) : ∀ t ∈ referencedTables (Text.trim sql), t ∈ v.allowedTables := by
  rw [Validator.accepted_iff] at h
  simp only [Validator.validate] at h
  split at h
  · cases h
  · exact (tableErrors_eq_nil_iff hv).mp (List.append_eq_nil_iff.mp h).2

/-- Every joined table has to be allowed; of a list with commas only the first one. -/
theorem accepted_tables {v : Validator} (hv : v.allowedTables ≠ []) (confirm : Bool) (ht : IsName t) :
    (∀ ms : List CommaTable, (v.validate (selectFrom t ++ commaText ms) confirm).accepted = true ↔
      lowered t ∈ v.allowedTables ∧ ∀ d ∈ dangers, d.1.holds (selectFrom t ++ commaText ms) = false) ∧
    ∀ (js : List JoinedTable) (tail : List Char), (∀ c ∈ tail.head?, isBlank c = true) →
      (v.validate (selectFrom t ++ joinText js tail) confirm).accepted = true →
        ∀ n ∈ t :: js.map (·.name), lowered n ∈ v.allowedTables := by
  refine ⟨accepted_commaText hv confirm ht, fun js tail htail hok n hn => ?_⟩
  have hjoin (tail : List Char) : joinText js tail = joinText js [] ++ tail := by simp [joinText]
  have hrest : ∀ c ∈ (Text.trimEnd tail).head?, isBlank c = true := by
    obtain ⟨es, hes, -⟩ := Text.dropEndWhile_append isBlank tail
    intro c hc
    refine htail c ?_
    rw [hes, List.head?_append]
    simp only [Text.trimEnd] at hc
    rw [Option.mem_def.mp hc]
    rfl
  obtain ⟨more, hmore⟩ := referencedTables_joinText ht js hrest
  refine mem_allowedTables_of_accepted hv hok (lowered n) ?_
  rw [hjoin, ← List.append_assoc, trim_selectFrom ht (endsVisibly_joinText js), List.append_assoc, ← hjoin, hmore]
  exact List.mem_append_left _ (List.mem_map_of_mem hn)

def ordersJoined : JoinedTable where
  between := " u LEFT ".toList
  word := "Join".toList
  gap := "  ".toList
  name := "Orders".toList
  opens := ⟨by decide, by simp [Text.isBlank_space]⟩
  lacks := by decide
  ends := by decide
  join := by decide
  gap_ne_nil := by decide
  gap_blank := by decide
  isName := ⟨'O', _, rfl, by decide, by decide⟩

def secretsListed : CommaTable where
  before := []
  behind := " ".toList
  name := "secrets".toList
  before_blank := by decide
  behind_blank := by decide
  isName := ⟨'s', _, rfl, by decide, by decide⟩

theorem accepted_tables_orders :
    let v := Validator.new false 100 ["Users", "orders"]
    let t := "users".toList
    let tail := " o ON o.x = u.y".toList
    v.allowedTables ≠ [] ∧ IsName t ∧
      (v.validate (selectFrom t ++ joinText [ordersJoined] tail) false).accepted = true ∧
      (∀ ms : List CommaTable, (v.validate (selectFrom t ++ commaText ms) false).accepted = true ↔
        lowered t ∈ v.allowedTables ∧ ∀ d ∈ dangers, d.1.holds (selectFrom t ++ commaText ms) = false) ∧
      ∀ (js : List JoinedTable) (tail : List Char), (∀ c ∈ tail.head?, isBlank c = true) →
        (v.validate (selectFrom t ++ joinText js tail) false).accepted = true →
          ∀ n ∈ t :: js.map (·.name), lowered n ∈ v.allowedTables := by
  intro v t tail
  have hv : v.allowedTables ≠ [] := by decide
  have ht : IsName t := ⟨'u', _, rfl, by decide, by decide⟩
  exact ⟨hv, ht, by decide, accepted_tables hv false ht⟩

/-- The second table of the list is not allowed. -/
theorem comma_list_accepted :
    let v := Validator.new false 100 ["users"]
    let sql := "SELECT * FROM users, secrets".toList
    v.allowedTables ≠ [] ∧ sql = selectFrom "users".toList ++ commaText [secretsListed] ∧
      (v.validate sql false).accepted = true ∧ lowered secretsListed.name ∉ v.allowedTables := by
  intro v sql
  exact ⟨by decide, by decide, by decide, by decide⟩

end Validation
end Parlance
