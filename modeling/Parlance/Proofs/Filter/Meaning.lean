import Parlance.Proofs.Intent.Each

/-! What a filter says of a row. A condition on a row is true, false or unknown; a chain of them is
read as SQL reads it, with AND before OR, and a group stands for its chain as a whole. -/

namespace Parlance

/-- What is compared with NULL is unknown. -/
inductive Truth
  | no
  | unknown
  | yes
  deriving DecidableEq, Repr

namespace Truth

def and : Truth → Truth → Truth
  | no, _ => no
  | _, no => no
  | yes, yes => yes
  | _, _ => unknown

def or : Truth → Truth → Truth
  | yes, _ => yes
  | _, yes => yes
  | no, no => no
  | _, _ => unknown

variable {a b c : Truth}

@[simp] theorem yes_and : and yes a = a := by cases a <;> rfl
@[simp] theorem and_yes : and a yes = a := by cases a <;> rfl
@[simp] theorem or_no : or a no = a := by cases a <;> rfl

theorem and_assoc : and (and a b) c = and a (and b c) := by cases a <;> cases b <;> cases c <;> rfl

/-- All of them are true, if there are any. -/
def all : List Truth → Truth := List.foldr and yes

@[simp] theorem all_nil : all [] = yes := rfl
@[simp] theorem all_cons (l : List Truth) : all (a :: l) = a.and (all l) := rfl

theorem all_append (l m : List Truth) : all (l ++ m) = (all l).and (all m) := by
  induction l with
  | nil => simp
  | cons a l ih => rw [List.cons_append, all_cons, all_cons, ih, and_assoc]

theorem all_flatMap {α : Type} (l : List α) (f : α → List Truth) :
    all (l.flatMap f) = all (l.map fun a => all (f a)) := by
  induction l with
  | nil => rfl
  | cons a l ih => rw [List.flatMap_cons, all_append, ih, List.map_cons, all_cons]

/-- One of them is true. -/
def any : List Truth → Truth := List.foldr or no

@[simp] theorem any_nil : any [] = no := rfl
@[simp] theorem any_cons (l : List Truth) : any (a :: l) = a.or (any l) := rfl

end Truth

/-! The value of a filter where `v` gives the values of the predicates that are not groups. -/

mutual

def Predicate.value (v : Predicate → Truth) : Predicate → Truth
  | .group terms => Filter.value v terms
  | .compare column op value => v (.compare column op value)
  | .like column mode pattern => v (.like column mode pattern)
  | .isNull column negated => v (.isNull column negated)
  | .recency column window => v (.recency column window)

/-- Where there is nothing to restrict the rows, every row will do. -/
def Filter.value (v : Predicate → Truth) : List (Connective × Predicate) → Truth
  | [] => .yes
  | (_, p) :: terms => Filter.valueBehind v (p.value v) terms

/-- The value of a chain whose conjunction has the value `run` so far. -/
def Filter.valueBehind (v : Predicate → Truth) (run : Truth) : List (Connective × Predicate) → Truth
  | [] => run
  | (.and, p) :: terms => Filter.valueBehind v (run.and (p.value v)) terms
  | (.or, p) :: terms => run.or (Filter.valueBehind v (p.value v) terms)

end

def Predicate.isGroup : Predicate → Bool
  | .group _ => true
  | _ => false

namespace Filter

variable {v : Predicate → Truth} {f : Filter}

/-- The predicates that go on with a conjunction, and the conjunctions behind it. -/
def conjunctions : Filter → List Predicate × List (List Predicate)
  | [] => ([], [])
  | (.and, p) :: terms => (p :: (conjunctions terms).1, (conjunctions terms).2)
  | (.or, p) :: terms => ([], (p :: (conjunctions terms).1) :: (conjunctions terms).2)

theorem valueBehind_eq (v : Predicate → Truth) (run : Truth) (f : Filter) :
    valueBehind v run f = (run.and (.all ((conjunctions f).1.map (·.value v)))).or
      (.any ((conjunctions f).2.map fun ps => .all (ps.map (·.value v)))) := by
  induction f generalizing run with
  | nil => simp [valueBehind, conjunctions]
  | cons t f ih =>
    obtain ⟨c, p⟩ := t
    cases c with
    | and => simp [valueBehind, conjunctions, ih, Truth.and_assoc]
    | or => simp [valueBehind, conjunctions, ih]

theorem conjunctions_of_ands (h : ∀ t ∈ f, t.1 = .and) : conjunctions f = (f.map (·.2), []) := by
  induction f with
  | nil => rfl
  | cons t f ih =>
    obtain ⟨c, p⟩ := t
    have hc : c = .and := h (c, p) List.mem_cons_self
    have hf := ih fun t ht => h t (List.mem_cons_of_mem _ ht)
    subst hc
    simp [conjunctions, hf]

theorem value_of_ands (h : ∀ t ∈ f, t.1 = .and) : value v f = .all (f.map (·.2.value v)) := by
  cases f with
  | nil => rfl
  | cons t f =>
    rw [value, valueBehind_eq, conjunctions_of_ands fun u hu => h u (List.mem_cons_of_mem _ hu)]
    simp [Function.comp_def]

/-- A lone group may give up its parentheses. -/
theorem value_flattened (v : Predicate → Truth) (f : Filter) : value v f.flattened = value v f := by
  unfold flattened
  split
  · simp [value, valueBehind, Predicate.value]
  · rfl

end Filter

end Parlance
