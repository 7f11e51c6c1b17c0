import Parlance.Proofs.Filter.Faithful

/-! The SQL of a value that was read from a text. It is one token, and it stands for the same value when
it is read as a text in its turn, unless the text had quotes that had to be doubled. -/

namespace Parlance.Literal

open Text (trim)

theorem readable_ofText (raw : List Char) : (ofText raw).Readable := by
  have h := classified_ofText raw
  revert h
  generalize ofText raw = l
  intro h
  cases h with
  | number hq h =>
    change Where.isNumeral (String.ofList (trim raw)).toList = true
    rw [String.toList_ofList]
    exact Where.isNumeral_of_numeral h
  | single | double | boolean | text => trivial

theorem ofText_quoted {content : String} (h : '\'' ∉ content.toList) :
    ofText (quoted content).toList = .text content := by
  have hlist : (quoted content).toList = '\'' :: (content.toList ++ ['\'']) := by
    rw [Where.quoted_of_not_mem h]
    simp
  rw [hlist, ofText_single, String.ofList_toList]

theorem mem_of_mem_trim {c : Char} {cs : List Char} (h : c ∈ trim cs) : c ∈ cs := by
  obtain ⟨bs, es, hcs, -, -⟩ := Text.trim_append cs
  rw [hcs]
  exact List.mem_append_left es (List.mem_append_right bs h)

/-- Reading the SQL of a value gives the value back. -/
theorem ofText_sql {raw : List Char} (hraw : '\'' ∉ raw) : ofText (ofText raw).sql.toList = ofText raw := by
  have htrim : '\'' ∉ trim raw := fun hm => hraw (mem_of_mem_trim hm)
  have h := classified_ofText raw
  revert h
  generalize ofText raw = l
  intro h
  cases h with
  | single h =>
    rw [quotes_iff.mp h] at htrim
    exact absurd List.mem_cons_self htrim
  | @double inner hs h =>
    refine ofText_quoted ?_
    rw [quotes_iff.mp h] at htrim
    rw [String.toList_ofList]
    exact fun hm => htrim (List.mem_cons_of_mem _ (List.mem_append_left _ hm))
  | number hq h =>
    change ofText (String.ofList (trim raw)).toList = _
    rw [String.toList_ofList]
    exact ofText_numeral h
  | @boolean b hq hn h => cases b <;> decide
  | text hq hn hb =>
    refine ofText_quoted ?_
    rw [String.toList_ofList]
    exact htrim

/-- A text is classified exactly: by its quotes, as a numeral, as a truth value or as it stands. Its SQL
is one token whatever it holds, and reads as the same value if it has no single quote. -/
theorem ofText_exact (raw : List Char) :
    (∀ l, ofText raw = l ↔ Classified (trim raw) l) ∧
    Where.tokens? (ofText raw).sql.toList = some [(ofText raw).token] ∧
    ('\'' ∉ raw → ofText (ofText raw).sql.toList = ofText raw) :=
  ⟨fun _ => ofText_eq_iff, Where.tokens?_literal (readable_ofText raw), ofText_sql⟩

end Parlance.Literal
