import Parlance.Interpretation
import Parlance.Proofs.Intent.Each
import Parlance.Proofs.Pattern.Name

/-! Where the parts of an interpretation come from. The table is a name of the text or a table of
the schema that such a name leads to. Every column is what a name of the text stands for, or it
dates the rows of the table, or it is the count by which a count is ordered. Whatever refuses a
request on the way does so at the stage of interpretation. -/

namespace Parlance

open Pattern (IsName)

/-- A result satisfies `P` and a refusal satisfies `E`. -/
def Gives {α : Type} (E : Error → Prop) (P : α → Prop) : Except Error α → Prop
  | .ok a => P a
  | .error e => E e

namespace Gives

variable {α β : Type} {E F : Error → Prop} {P : α → Prop} {Q : β → Prop}

theorem bind {x : Except Error α} {f : α → Except Error β} (hx : Gives E P x)
    (hf : ∀ a, P a → Gives E Q (f a)) : Gives E Q (x >>= f) := by
  cases x with
  | error e => exact hx
  | ok a => exact hf a hx

theorem map {x : Except Error α} {f : α → β} (hx : Gives E P x) (hf : ∀ a, P a → Q (f a)) :
    Gives E Q (x.map f) := by
  cases x with
  | error e => exact hx
  | ok a => exact hf a hx

theorem mono {P' : α → Prop} {x : Except Error α} (hx : Gives E P x) (hE : ∀ e, E e → F e)
    (hP : ∀ a, P a → P' a) : Gives F P' x := by
  cases x with
  | error e => exact hE e hx
  | ok a => exact hP a hx

theorem kept {t : Interpretation.Taken α} (ht : Gives E P t.1) :
    Gives E (fun a => P a.1) t.kept :=
  ht.map fun _ h => h

end Gives

theorem Schema.sameWord_of_find? {s : Schema} {w : List Char} {t : Table} (h : s.find? w = some t) :
    Text.sameWord t.name.toList w = true := by
  simpa using List.find?_some h

theorem Schema.sameWord_of_findColumn? {s : Schema} {table c : String} {w : List Char}
    (h : s.findColumn? table w = some c) : Text.sameWord c.toList w = true := by
  simp only [Schema.findColumn?, Option.bind_eq_bind, Option.bind_eq_some_iff,
    Option.map_eq_some_iff] at h
  obtain ⟨columns, -, column, hc, rfl⟩ := h
  simpa only [Column.isNamed] using List.find?_some hc

/-- Numbers are digits, with at most a sign and a point. -/
def Literal.IsNumeral (cs : List Char) : Prop :=
  Literal.isPlainNumber cs = true ∨ (cs ≠ [] ∧ ∀ c ∈ cs, Text.isDigit c = true)

def Literal.WellFormed : Literal → Prop
  | .number digits => IsNumeral digits.toList
  | .text _ | .boolean _ => True

theorem Literal.wellFormed_ofText (raw : List Char) : (Literal.ofText raw).WellFormed := by
  simp only [Literal.ofText]
  split
  · trivial
  · split
    · next h => exact .inl (by simpa using h)
    · split
      · trivial
      · split <;> trivial

namespace Interpretation

open Grammar (ConditionForm columnGroup)

/-! ### Columns -/

namespace Subject

variable {s : Subject}

/-- `c` is the column that a name of the text stands for. -/
def Names (s : Subject) (c : String) : Prop := ∃ w, IsName w ∧ s.resolve w = .ok c

/-- A name of the text stands for no column. -/
def Refuses (s : Subject) (e : Error) : Prop := ∃ w, IsName w ∧ s.resolve w = .error e

theorem gives_resolve {w : List Char} (h : IsName w) : Gives s.Refuses s.Names (s.resolve w) := by
  cases hr : s.resolve w with
  | ok c => exact ⟨w, h, hr⟩
  | error e => exact ⟨w, h, hr⟩

theorem names_of_column? {w : List Char} {c : String} (h : IsName w) (hc : s.column? w = some c) :
    s.Names c := by
  refine ⟨w, h, ?_⟩
  simp only [column?] at hc
  split at hc
  · next hk => simp [resolve, hk, hc]
  · simp at hc

/-- A column of an unknown table is the name in lower case. -/
theorem resolve_cases {w : List Char} {c : String} (h : s.resolve w = .ok c) :
    Text.sameWord c.toList w = true ∨ c = String.ofList (Text.lower w) := by
  simp only [resolve] at h
  split at h
  · split at h
    · next c' hc =>
      cases h
      exact .inl (Schema.sameWord_of_findColumn? hc)
    · cases h
  · cases h
    exact .inr rfl

theorem Names.isName {c : String} (h : s.Names c) : IsName c.toList := by
  obtain ⟨w, hw, hr⟩ := h
  rcases resolve_cases hr with hc | rfl
  · exact hw.of_sameWord hc
  · rw [String.toList_ofList]
    exact hw.lower

theorem Refuses.stage {e : Error} (h : s.Refuses e) : e.stage = .interpretation := by
  obtain ⟨w, -, hr⟩ := h
  simp only [resolve] at hr
  split at hr
  · split at hr
    · cases hr
    · cases hr
      rfl
  · cases hr

end Subject

/-- A group that every match captures, and that holds a name, has a name for its text. -/
theorem isName_of_hit {p : Pattern} {h : Pattern.Hit} (hp : h.Of p) {n : Nat}
    (ha : p.always n = true) (hb : p.bodies n = [Pattern.name]) : IsName ((h.text? n).getD []) := by
  obtain ⟨w, hw⟩ := hp.text?_of_always ha
  obtain ⟨a, hm, hs⟩ := hp.text? hw
  rw [hb, List.mem_singleton] at hm
  subst hm
  rw [hw]
  exact Pattern.spells_name hs

/-! ### Conditions -/

/-- The columns of a predicate are named by the text, or date the rows of the table. -/
def Sourced (t : Interpreter) (s : Subject) : Predicate → Prop
  | .compare c _ v => s.Names c ∧ v.WellFormed
  | .like c _ _ | .isNull c _ => s.Names c
  | .recency c _ => t.timestampColumn? s = some c
  | .group _ => False

variable {t : Interpreter} {s : Subject}

theorem each_equality {c : String} (h : s.Names c) (v : List Char) :
    (equality c v).Each (Sourced t s) := by
  simp only [equality]
  split
  · exact h
  · exact ⟨h, Literal.wellFormed_ofText v⟩

theorem gives_predicateOf (form : ConditionForm) {column : List Char} (h : IsName column)
    (v : List Char) : Gives s.Refuses (fun q => ∀ p, q = some p → p.Each (Sourced t s))
      (predicateOf s form column v) := by
  have hr := Subject.gives_resolve (s := s) h
  have hv := Literal.wellFormed_ofText v
  cases form with
  | implicit =>
    simp only [predicateOf]
    split
    · intro p hp
      cases hp
    · next c hc =>
      intro p hp
      split at hp
      · cases hp
      · cases hp
        exact each_equality (Subject.names_of_column? h hc) v
  | isNull => exact hr.bind fun c hc p hp => by cases hp; exact hc
  | isNotNull => exact hr.bind fun c hc p hp => by cases hp; exact hc
  | like mode => exact hr.bind fun c hc p hp => by cases hp; exact hc
  | compare op =>
    cases op with
    | equal => exact hr.bind fun c hc p hp => by cases hp; exact each_equality hc v
    | notEqual =>
      refine hr.bind fun c hc p hp => ?_
      cases hp
      split
      · exact hc
      · exact ⟨hc, hv⟩
    | greater => exact hr.bind fun c hc p hp => by cases hp; exact ⟨hc, hv⟩
    | greaterEqual => exact hr.bind fun c hc p hp => by cases hp; exact ⟨hc, hv⟩
    | less => exact hr.bind fun c hc p hp => by cases hp; exact ⟨hc, hv⟩
    | lessEqual => exact hr.bind fun c hc p hp => by cases hp; exact ⟨hc, hv⟩

/-- `p` captures one name in group `n`, whatever it matches. -/
def NamesIn (n : Nat) (p : Pattern) : Prop := p.always n = true ∧ p.bodies n = [Pattern.name]

theorem bodies_columnName : Grammar.columnName.bodies columnGroup = [Pattern.name] := by
  simp [Grammar.columnName, Pattern.bodies]

theorem bodies_value : Grammar.value.bodies columnGroup = [] := rfl

theorem bodies_symbol (n : Nat) (w : String) : (Grammar.symbol w).bodies n = [] := by
  refine Pattern.bodies_seq_eq_nil fun p hp => ?_
  obtain ⟨c, -, rfl⟩ := List.mem_map.mp hp
  rfl

theorem bodies_spaced (n : Nat) (ws : List String) : (Grammar.spaced ws).bodies n = [] := by
  simp [Grammar.spaced, Pattern.blank, Pattern.bodies]

theorem namesIn_nullForm (ws : List String) : NamesIn columnGroup (Grammar.nullForm ws) := by
  refine ⟨rfl, ?_⟩
  simp [Grammar.nullForm, bodies_columnName, Pattern.bodies]

theorem namesIn_operatorForm {ops : List Pattern} (h : ∀ p ∈ ops, p.bodies columnGroup = []) :
    NamesIn columnGroup (Grammar.operatorForm ops) := by
  have hops : ops.flatMap (Pattern.bodies columnGroup) = [] := List.flatMap_eq_nil_iff.mpr h
  refine ⟨rfl, ?_⟩
  simp [Grammar.operatorForm, bodies_columnName, bodies_value, Pattern.bodies, hops]

theorem namesIn_of_mem_conditionForms {form : ConditionForm} {p : Pattern}
    (h : (form, p) ∈ Grammar.conditionForms) : NamesIn columnGroup p := by
  simp only [Grammar.conditionForms, List.mem_cons, Prod.mk.injEq, List.not_mem_nil, or_false] at h
  rcases h with ⟨-, rfl⟩ | ⟨-, rfl⟩ | ⟨-, rfl⟩ | ⟨-, rfl⟩ | ⟨-, rfl⟩ | ⟨-, rfl⟩ | ⟨-, rfl⟩ |
    ⟨-, rfl⟩ | ⟨-, rfl⟩ | ⟨-, rfl⟩ | ⟨-, rfl⟩ | ⟨-, rfl⟩
  case inl | inr.inl => exact namesIn_nullForm _
  case inr.inr.inr.inr.inr.inr.inr.inr.inr.inr.inr =>
    refine ⟨rfl, ?_⟩
    simp [bodies_columnName, bodies_value, Pattern.bodies]
  all_goals
    refine namesIn_operatorForm ?_
    simp [bodies_symbol, bodies_spaced]

theorem gives_firstCondition {forms : List (ConditionForm × Pattern)}
    (hf : ∀ f ∈ forms, NamesIn columnGroup f.2) (cs : List Char) :
    Gives s.Refuses (fun q => ∀ e, q = some e → e.1.Each (Sourced t s))
      (firstCondition s cs forms) := by
  induction forms with
  | nil => exact fun e he => nomatch he
  | cons f forms ih =>
    obtain ⟨form, p⟩ := f
    have hrest := ih fun f hm => hf f (List.mem_cons_of_mem _ hm)
    simp only [firstCondition]
    split
    · exact hrest
    · next h hh =>
      obtain ⟨ha, hb⟩ := hf (form, p) List.mem_cons_self
      split
      · exact hrest
      · refine (gives_predicateOf (t := t) form (isName_of_hit (Pattern.find?_of hh) ha hb) _).bind ?_
        intro q hq
        cases q with
        | none => exact hrest
        | some q =>
          intro e he
          cases he
          exact hq q rfl

theorem gives_condition? (cs : List Char) :
    Gives s.Refuses (fun q => ∀ e, q = some e → e.1.Each (Sourced t s)) (condition? s cs) :=
  gives_firstCondition (fun _ hf => namesIn_of_mem_conditionForms hf) cs

theorem gives_chainFrom (fuel : Nat) (c : Connective) (cs : List Char) :
    Gives s.Refuses (fun r => Filter.Each (Sourced t s) r.1) (chainFrom s fuel c cs) := by
  induction fuel generalizing c cs with
  | zero => trivial
  | succ fuel ih =>
    refine (gives_condition? (t := t) cs).bind fun q hq => ?_
    cases q with
    | none => trivial
    | some e =>
      -- The condition just read has its sources, whatever the chain goes on with.
      have he : Filter.Each (Sourced t s) [(c, e.1)] := ⟨hq e rfl, trivial⟩
      dsimp only
      split
      · exact he
      · refine (gives_condition? (t := t) _).bind fun q' _ => ?_
        cases q' with
        | none => exact he
        | some _ => exact (ih _ _).bind fun r hr => ⟨he.1, hr⟩

theorem each_chainTerms {P : Predicate → Prop} {f : Filter} (h : Filter.Each P f) :
    Filter.Each P (chainTerms f) := by
  simp only [chainTerms]
  split
  · exact ⟨h, trivial⟩
  · simp only [Filter.each_iff, List.mem_map] at h ⊢
    rintro _ ⟨t, ht, rfl⟩
    exact h t ht

theorem gives_conditionsFrom (fuel low : Nat) (ws : Workspace) :
    Gives s.Refuses (Filter.Each (Sourced t s)) (conditionsFrom s fuel low ws).1 := by
  induction fuel generalizing low ws with
  | zero => trivial
  | succ fuel ih =>
    simp only [conditionsFrom]
    split
    · trivial
    · next h _ =>
      have hc := gives_chainFrom (t := t) (s := s) ((ws.after h.span.stop).length + 1) .and
        (ws.after h.span.stop)
      rw [← chain] at hc
      split
      · next e he =>
        rw [he] at hc
        exact hc
      · exact ih _ _
      · next terms n _ he =>
        rw [he] at hc
        refine (ih _ _).map fun more hm => ?_
        exact Filter.each_append.mpr ⟨each_chainTerms hc, hm⟩

theorem gives_takeConditions (ws : Workspace) :
    Gives s.Refuses (Filter.Each (Sourced t s)) (takeConditions s ws).1 :=
  gives_conditionsFrom _ _ ws

end Interpretation

end Parlance
