import Parlance.Intent.Json
import Parlance.Proofs.Intent.Each
import Parlance.Proofs.Json.Printed

/-! An intent is read back from its JSON, whichever way that is printed. -/

namespace Parlance

open Number (maxWord32 maxWord64)
open Json (record? variant? unit? text? bool? word32? word64? listOf? optional? tagged field)

/-! ### Words and windows -/

theorem word32?_nat {n : Nat} (h : n ≤ maxWord32) : word32? (.nat n) = some n := by
  simp [word32?, Json.bounded?, Json.nat, h]

theorem word64?_nat {n : Nat} (h : n ≤ maxWord64) : word64? (.nat n) = some n := by
  simp [word64?, Json.bounded?, Json.nat, h]

theorem Comparison.ofJson?_text (op : Comparison) : Comparison.ofJson? (.text op.text) = some op := by
  cases op <;> decide

theorem LikeMode.ofJson?_text (mode : LikeMode) : LikeMode.ofJson? (.text mode.text) = some mode := by
  cases mode <;> decide

theorem Connective.ofJson?_text (c : Connective) : Connective.ofJson? (.text c.text) = some c := by
  cases c <;> decide

theorem TimeUnit.ofJson?_text (unit : TimeUnit) : TimeUnit.ofJson? (.text unit.text) = some unit := by
  cases unit <;> decide

theorem Literal.ofJson?_toJson (l : Literal) : Literal.ofJson? l.toJson = some l := by
  cases l <;> simp [Literal.ofJson?, Literal.toJson, tagged, variant?, text?, bool?]

def TimeWindow.Fits : TimeWindow → Prop
  | last amount _ => amount ≤ maxWord32
  | today | yesterday => True

theorem TimeWindow.ofJson?_toJson {w : TimeWindow} (h : w.Fits) : TimeWindow.ofJson? w.toJson = some w := by
  cases w with
  | today => rfl
  | yesterday => rfl
  | last amount unit =>
    simp [TimeWindow.ofJson?, toJson, tagged, variant?, lastOfJson?, record?, Json.objectField?, field,
      word32?_nat h, TimeUnit.ofJson?_text]

/-! ### Filters -/

def Predicate.Fits : Predicate → Prop
  | recency _ w => w.Fits
  | _ => True

theorem mapM_termsToJson {read : Json → Option (Connective × Predicate)} {terms : List (Connective × Predicate)}
    (h : ∀ t ∈ terms, read (.list [.text t.1.text, t.2.toJson]) = some t) :
    (termsToJson terms).mapM read = some terms := by
  induction terms with
  | nil => rfl
  | cons t terms ih =>
    have hhead := h t (by simp)
    have htail := ih fun u hu => h u (by simp [hu])
    simp [termsToJson, hhead, htail]

theorem depth_of_mem {t : Connective × Predicate} {terms : List (Connective × Predicate)} (h : t ∈ terms) :
    t.2.toJson.depth + 1 ≤ depthOfItems (termsToJson terms) := by
  induction terms with
  | nil => cases h
  | cons u terms ih =>
    simp only [termsToJson, depthOfItems, Json.depth]
    rcases List.mem_cons.mp h with rfl | h
    · omega
    · have := ih h
      omega

theorem termList?_terms (items : List Json) : termList? (.object [field "terms" (.list items)]) = some items := by
  simp [termList?, record?, Json.objectField?, field]

/-- The depth of the JSON leaves room for the groups. -/
theorem predicateAt?_toJson {n : Nat} {p : Predicate} (h : p.Each Predicate.Fits) (hn : p.toJson.depth ≤ n) :
    predicateAt? n p.toJson = some p := by
  induction n generalizing p with
  | zero => cases p <;> simp [Predicate.toJson, tagged, Json.depth] at hn
  | succ n ih =>
    cases p with
    | compare column op value =>
      simp [predicateAt?, Predicate.toJson, tagged, variant?, compareOfJson?, record?, Json.objectField?, field,
        text?, Comparison.ofJson?_text, Literal.ofJson?_toJson]
    | like column mode pattern =>
      simp [predicateAt?, Predicate.toJson, tagged, variant?, likeOfJson?, record?, Json.objectField?, field, text?,
        LikeMode.ofJson?_text]
    | isNull column negated =>
      simp [predicateAt?, Predicate.toJson, tagged, variant?, isNullOfJson?, record?, Json.objectField?, field, text?,
        bool?]
    | recency column window =>
      have hwindow := TimeWindow.ofJson?_toJson (w := window) h
      simp [predicateAt?, Predicate.toJson, tagged, variant?, recencyOfJson?, record?, Json.objectField?, field,
        text?, hwindow]
    | group terms =>
      have hterms : ∀ t ∈ terms, predicateAt? n t.2.toJson = some t.2 := by
        intro t ht
        have hdepth := depth_of_mem ht
        simp only [Predicate.toJson, tagged, field, Json.depth, depthOfFields] at hn
        exact ih (Filter.each_iff.mp h t ht) (by omega)
      simp only [predicateAt?, Predicate.toJson, tagged, variant?, termList?_terms, Option.bind_eq_bind,
        Option.bind_some]
      rw [mapM_termsToJson fun t ht => ?_]
      · rfl
      · simp [Connective.ofJson?_text, hterms t ht]

theorem Filter.ofJson?_toJson {f : Filter} (h : Filter.Each Predicate.Fits f) : Filter.ofJson? f.toJson = some f := by
  simp only [Filter.ofJson?, Filter.toJson, termList?_terms, Option.bind_eq_bind, Option.bind_some]
  refine mapM_termsToJson fun t ht => ?_
  have hterm := predicateAt?_toJson (Filter.each_iff.mp h t ht) (Nat.le_refl _)
  simp [termOfJson?, Connective.ofJson?_text, Predicate.ofJson?, hterm]

/-! ### Clauses -/

structure ReadClauses.Fits (c : ReadClauses) : Prop where
  filter : Filter.Each Predicate.Fits c.filter
  limit : ∀ n ∈ c.limit, n ≤ maxWord64

/-- What is written of a value that may be absent is read back, unless it is written as null. -/
theorem optional?_ofOption {α : Type} {read : Json → Option α} {write : α → Json} {o : Option α}
    (hread : ∀ a ∈ o, read (write a) = some a) (hnull : ∀ a ∈ o, write a ≠ .null) :
    optional? read (some (Json.ofOption write o)) = some o := by
  cases o with
  | none => rfl
  | some a =>
    have hread := hread a rfl
    have hnull := hnull a rfl
    unfold optional?
    split <;> simp_all [Json.ofOption]

theorem SortOrder.ofJson?_toJson (o : SortOrder) : SortOrder.ofJson? o.toJson = some o := by
  simp [SortOrder.ofJson?, SortOrder.toJson, record?, Json.objectField?, field, text?, bool?]

theorem ReadClauses.ofJson?_toJson {c : ReadClauses} (h : c.Fits) : ReadClauses.ofJson? c.toJson = some c := by
  have hfilter := Filter.ofJson?_toJson h.filter
  have hgroup : optional? text? (some (Json.ofOption .text c.groupBy)) = some c.groupBy :=
    optional?_ofOption (fun _ _ => rfl) (fun _ _ => by simp)
  have horder : optional? SortOrder.ofJson? (some (Json.ofOption SortOrder.toJson c.orderBy)) = some c.orderBy :=
    optional?_ofOption (fun o _ => o.ofJson?_toJson) (fun _ _ => by simp [SortOrder.toJson])
  have hlimit : optional? word64? (some (Json.ofOption .nat c.limit)) = some c.limit :=
    optional?_ofOption (fun n hn => word64?_nat (h.limit n hn)) (fun _ _ => by simp [Json.nat])
  simp [ReadClauses.ofJson?, ReadClauses.toJson, record?, Json.objectField?, field, hfilter, hgroup, horder,
    hlimit]

theorem Assignment.ofJson?_toJson (a : Assignment) : Assignment.ofJson? a.toJson = some a := by
  simp [Assignment.ofJson?, Assignment.toJson, record?, Json.objectField?, field, text?, Literal.ofJson?_toJson]

theorem listOf?_ofList {α : Type} {read : Json → Option α} {write : α → Json} (h : ∀ a, read (write a) = some a)
    (l : List α) : listOf? read (Json.ofList write l) = some l := by
  simp only [listOf?, Json.ofList]
  induction l with
  | nil => rfl
  | cons a l ih => simp [h, ih]

/-! ### Intents -/

namespace Intent

def Fits : Intent → Prop
  | select _ _ clauses | count _ clauses => clauses.Fits
  | insert _ _ => True
  | update _ _ filter | delete _ filter => Filter.Each Predicate.Fits filter

theorem ofJson?_toJson {i : Intent} (h : i.Fits) : ofJson? i.toJson = some i := by
  cases i with
  | select table columns clauses =>
    have htext : ∀ s, text? (.text s) = some s := fun _ => rfl
    have hcolumns := listOf?_ofList htext columns
    have hclauses := ReadClauses.ofJson?_toJson h
    simp [ofJson?, toJson, tagged, variant?, selectOfJson?, record?, Json.objectField?, field, text?,
      Json.texts, hcolumns, hclauses]
  | count table clauses =>
    have hclauses := ReadClauses.ofJson?_toJson h
    simp [ofJson?, toJson, tagged, variant?, countOfJson?, record?, Json.objectField?, field, text?, hclauses]
  | insert table values =>
    have hvalues := listOf?_ofList Assignment.ofJson?_toJson values
    simp [ofJson?, toJson, tagged, variant?, insertOfJson?, record?, Json.objectField?, field, text?, hvalues]
  | update table assignments filter =>
    have hvalues := listOf?_ofList Assignment.ofJson?_toJson assignments
    have hfilter := Filter.ofJson?_toJson h
    simp [ofJson?, toJson, tagged, variant?, updateOfJson?, record?, Json.objectField?, field, text?, hvalues,
      hfilter]
  | delete table filter =>
    have hfilter := Filter.ofJson?_toJson h
    simp [ofJson?, toJson, tagged, variant?, deleteOfJson?, record?, Json.objectField?, field, text?, hfilter]

end Intent

/-! ### Exactness -/

theorem exact_nat {n : Nat} (h : n ≤ maxWord64) : (Json.nat n).Exact := by
  have hn : (0 : Int) ≤ n := Int.natCast_nonneg n
  exact ⟨Int.le_trans (by decide) hn, Int.ofNat_le.mpr h⟩

theorem exact_ofOption {α : Type} {write : α → Json} {o : Option α} (h : ∀ a ∈ o, (write a).Exact) :
    (Json.ofOption write o).Exact := by
  cases o with
  | none => trivial
  | some a => exact h a rfl

theorem exact_ofList {α : Type} {write : α → Json} {l : List α} (h : ∀ a ∈ l, (write a).Exact) :
    (Json.ofList write l).Exact := by
  simp only [Json.ofList, Json.Exact]
  induction l with
  | nil => trivial
  | cons a l ih => exact ⟨h a (by simp), ih fun b hb => h b (by simp [hb])⟩

theorem Literal.exact_toJson (l : Literal) : l.toJson.Exact := by
  cases l <;> simp [toJson, tagged, Json.Exact, Json.FieldsExact]

theorem TimeWindow.exact_toJson {w : TimeWindow} (h : w.Fits) : w.toJson.Exact := by
  cases w with
  | today | yesterday => trivial
  | last amount unit =>
    have hamount : (Json.nat amount).Exact := exact_nat (Nat.le_trans h (by decide))
    simp [toJson, tagged, field, Json.Exact, Json.FieldsExact, hamount]

mutual

theorem Predicate.exact_toJson {p : Predicate} (h : p.Each Predicate.Fits) : p.toJson.Exact := by
  match p with
  | .compare _ _ value => simp [Predicate.toJson, tagged, field, Json.Exact, Json.FieldsExact, value.exact_toJson]
  | .like .. | .isNull .. => simp [Predicate.toJson, tagged, field, Json.Exact, Json.FieldsExact]
  | .recency _ window =>
    have hwindow := TimeWindow.exact_toJson (w := window) h
    simp [Predicate.toJson, tagged, field, Json.Exact, Json.FieldsExact, hwindow]
  | .group terms =>
    have hterms : Json.ItemsExact (termsToJson terms) := exact_termsToJson h
    simp [Predicate.toJson, tagged, field, Json.Exact, Json.FieldsExact, hterms]

theorem exact_termsToJson {terms : List (Connective × Predicate)} (h : Filter.Each Predicate.Fits terms) :
    Json.ItemsExact (termsToJson terms) := by
  match terms with
  | [] => trivial
  | (_, p) :: terms => exact ⟨⟨trivial, Predicate.exact_toJson h.1, trivial⟩, exact_termsToJson h.2⟩

end

theorem Filter.exact_toJson {f : Filter} (h : Filter.Each Predicate.Fits f) : f.toJson.Exact := by
  simp [toJson, field, Json.Exact, Json.FieldsExact, exact_termsToJson h]

theorem SortOrder.exact_toJson (o : SortOrder) : o.toJson.Exact := by
  simp [toJson, field, Json.Exact, Json.FieldsExact]

theorem ReadClauses.exact_toJson {c : ReadClauses} (h : c.Fits) : c.toJson.Exact := by
  have hfilter := Filter.exact_toJson h.filter
  have hgroup : (Json.ofOption .text c.groupBy).Exact := exact_ofOption fun _ _ => trivial
  have horder := exact_ofOption (o := c.orderBy) fun o _ => o.exact_toJson
  have hlimit := exact_ofOption fun n hn => exact_nat (h.limit n hn)
  simp [toJson, field, Json.Exact, Json.FieldsExact, hfilter, hgroup, horder, hlimit]

theorem Assignment.exact_toJson (a : Assignment) : a.toJson.Exact := by
  simp [toJson, field, Json.Exact, Json.FieldsExact, a.value.exact_toJson]

namespace Intent

theorem exact_toJson {i : Intent} (h : i.Fits) : i.toJson.Exact := by
  cases i with
  | select table columns clauses =>
    have hcolumns : (Json.texts columns).Exact := exact_ofList fun _ _ => trivial
    simp [toJson, tagged, field, Json.Exact, Json.FieldsExact, hcolumns, clauses.exact_toJson h]
  | count table clauses => simp [toJson, tagged, field, Json.Exact, Json.FieldsExact, clauses.exact_toJson h]
  | insert table values =>
    have hvalues := exact_ofList (l := values) fun a _ => a.exact_toJson
    simp [toJson, tagged, field, Json.Exact, Json.FieldsExact, hvalues]
  | update table assignments filter =>
    have hvalues := exact_ofList (l := assignments) fun a _ => a.exact_toJson
    simp [toJson, tagged, field, Json.Exact, Json.FieldsExact, hvalues, Filter.exact_toJson h]
  | delete table filter => simp [toJson, tagged, field, Json.Exact, Json.FieldsExact, Filter.exact_toJson h]

/-- An intent is read back from its text. The words in it fit, as every amount and limit that an intent
is read with does; that containers are nested no deeper than a reader goes is all that is asked of a filter. -/
theorem read_printed (mode : Json.Mode) (i : Intent) (hfits : i.Fits) (hdepth : i.toJson.nesting < Json.depthLimit) :
    ∀ text ∈ [i.toJson.write, i.toJson.pretty],
      ∃ j, Json.readIn mode text.toList = .ok j ∧ ofJson? j = some i := by
  obtain ⟨hwrite, hpretty⟩ := Json.readIn_printed mode (exact_toJson hfits) hdepth
  intro text htext
  simp only [List.mem_cons, List.not_mem_nil, or_false] at htext
  rcases htext with rfl | rfl
  · exact ⟨_, hwrite, ofJson?_toJson hfits⟩
  · exact ⟨_, hpretty, ofJson?_toJson hfits⟩

/-- A group in a group, the largest words, and texts with characters that have escapes. -/
theorem read_printed_nested : ∃ i : Intent,
    i = .select "t" ["naïve", "\x01\"\\/\n😀"] ⟨[(.and, .group [(.or, .group [
      (.and, .compare "c" .notEqual (.text "\t''")), (.or, .recency "d" (.last maxWord32 .month))])])],
      none, some ⟨"e", true⟩, some maxWord64⟩ ∧
    i.Fits ∧ i.toJson.nesting = 18 ∧ ∀ text ∈ [i.toJson.write, i.toJson.pretty],
      ∃ j, Json.readIn .strict text.toList = .ok j ∧ ofJson? j = some i := by
  let terms : Filter := [(.and, .compare "c" .notEqual (.text "\t''")), (.or, .recency "d" (.last maxWord32 .month))]
  let i : Intent := .select "t" ["naïve", "\x01\"\\/\n😀"] ⟨[(.and, .group [(.or, .group terms)])],
    none, some ⟨"e", true⟩, some maxWord64⟩
  have hterms : Filter.Each Predicate.Fits terms := ⟨trivial, Nat.le_refl maxWord32, trivial⟩
  have hlimit : ∀ n ∈ some maxWord64, n ≤ maxWord64 := fun n hn => Nat.le_of_eq (Option.some.inj hn).symm
  have hfits : i.Fits := ⟨⟨⟨hterms, trivial⟩, trivial⟩, hlimit⟩
  have hdepth : i.toJson.nesting = 18 := by decide
  exact ⟨i, rfl, hfits, hdepth, read_printed .strict i hfits (by rw [hdepth]; decide)⟩

end Intent

end Parlance
