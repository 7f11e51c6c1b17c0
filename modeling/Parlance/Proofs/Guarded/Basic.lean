import Parlance.Interpretation.Workspace
import Parlance.Proofs.Text.Boundary

/-! Reading with a guard at every cut. A guarded reader works on a sheet, which keeps the spans that were claimed
from its text. It stops with a fault where an offset is no place to cut the text, where a span does not fit, where
claiming changes the size of the text, and where a pass of a loop does not move on in it. A reader without
faults has a view of its result and of its sheet, by which it is compared with a reader that has no guards. -/

namespace Parlance

open Text (Span size isBoundary dropTo takeTo blankOut bytes blanked)

namespace Guarded

inductive Fault
  | offset (n : Nat)
  | range (s : Span)
  | resized (s : Span)
  | stuck (n : Nat)

structure Sheet where
  text : List Char
  claimed : List Span

end Guarded

/-- The outer failure is a fault, the inner one a refusal. -/
def Guarded (α : Type) : Type := Guarded.Sheet → Except Guarded.Fault (Except Error α × Guarded.Sheet)

namespace Guarded

instance : Monad Guarded where
  pure a := fun d => .ok (.ok a, d)
  bind x f := fun d =>
    match x d with
    | .error e => .error e
    | .ok (.error e, d) => .ok (.error e, d)
    | .ok (.ok a, d) => f a d

variable {α β γ δ : Type}

def fail (e : Fault) : Guarded α := fun _ => .error e

def answer (x : Except Error α) : Guarded α := fun d => .ok (x, d)

def check (x : Except Fault α) : Guarded α := fun d => x.map (.ok ·, d)

def read : Guarded (List Char) := fun d => .ok (.ok d.text, d)

def suffix (n : Nat) (cs : List Char) : Except Fault (List Char) :=
  if isBoundary n cs then .ok (dropTo n cs) else .error (.offset n)

def front (n : Nat) (cs : List Char) : Except Fault (List Char) :=
  if isBoundary n cs then .ok (takeTo n cs) else .error (.offset n)

def after (n : Nat) : Guarded (List Char) := fun d => check (suffix n d.text) d

def before (n : Nat) : Guarded (List Char) := fun d => check (front n d.text) d

def claim (s : Span) : Guarded Unit := fun d =>
  if s.start ≤ s.stop ∧ isBoundary s.start d.text ∧ isBoundary s.stop d.text then
    if size (blankOut s d.text) = size d.text then .ok (.ok (), ⟨blankOut s d.text, s :: d.claimed⟩)
    else .error (.resized s)
  else .error (.range s)

/-- A loop goes on from `next` if that lies behind `low` and not behind the end of the text. -/
def onward (limit low next : Nat) (k : low < next → next ≤ limit → Guarded α) : Guarded α :=
  if h : low < next ∧ next ≤ limit then k h.1 h.2 else fail (.stuck low)

theorem bind_of_ok {x : Guarded α} {f : α → Guarded β} {d d' : Sheet} {a : α} (h : x d = .ok (.ok a, d')) :
    (x >>= f) d = f a d' := by
  simp only [Bind.bind, h]

theorem bind_of_error {x : Guarded α} {f : α → Guarded β} {d d' : Sheet} {e : Error} (h : x d = .ok (.error e, d')) :
    (x >>= f) d = .ok (.error e, d') := by
  simp only [Bind.bind, h]

/-- What becomes of a sheet: its places stay, and its bytes too where no span was claimed. -/
structure Sheet.Leads (d d' : Sheet) : Prop where
  size_eq : size d'.text = size d.text
  boundary : ∀ n, isBoundary n d.text = true → isBoundary n d'.text = true
  bytes_eq : ∃ new, d'.claimed = new ++ d.claimed ∧ bytes d'.text = blanked new (bytes d.text)

theorem Sheet.Leads.refl (d : Sheet) : d.Leads d where
  size_eq := rfl
  boundary _ h := h
  bytes_eq := ⟨[], rfl, (Text.blanked_nil _).symm⟩

theorem Sheet.Leads.trans {d d' d'' : Sheet} (h : d.Leads d') (h' : d'.Leads d'') : d.Leads d'' where
  size_eq := h'.size_eq.trans h.size_eq
  boundary n hn := h'.boundary n (h.boundary n hn)
  bytes_eq := by
    obtain ⟨old, hold, hbytes⟩ := h.bytes_eq
    obtain ⟨new, hnew, hbytes'⟩ := h'.bytes_eq
    refine ⟨new ++ old, by rw [hnew, hold, List.append_assoc], ?_⟩
    rw [hbytes', hbytes, Text.blanked_blanked]

theorem Sheet.Leads.claim {d : Sheet} {s : Span} (h : s.Fits d.text) : d.Leads ⟨blankOut s d.text, s :: d.claimed⟩ where
  size_eq := h.size_blankOut
  boundary _ := h.isBoundary_blankOut
  bytes_eq := ⟨[s], rfl, Text.bytes_blankOut h⟩

/-- The reader has no fault, and what `view` shows of its end is `r`. -/
def Reads (x : Guarded α) (d : Sheet) (view : α → Sheet → β) (r : Except Error β) : Prop :=
  ∃ a d', x d = .ok (a, d') ∧ d.Leads d' ∧ a.map (view · d') = r

/-- The result with the text that is left. -/
def kept (a : α) (d : Sheet) : α × Interpretation.Workspace := (a, ⟨d.text⟩)

namespace Reads

variable {x : Guarded α} {f : α → Guarded β} {d : Sheet} {view : β → Sheet → γ} {r : Except Error γ}

theorem pure {a : β} : Reads (Pure.pure a) d view (.ok (view a d)) := ⟨.ok a, d, rfl, .refl d, rfl⟩

theorem bind {view' : α → Sheet → δ} {q : Except Error δ} {g : δ → Except Error γ} (hx : Reads x d view' q)
    (hf : ∀ a d', q = .ok (view' a d') → d.Leads d' → Reads (f a) d' view (g (view' a d'))) :
    Reads (x >>= f) d view (q >>= g) := by
  obtain ⟨a, d', hrun, hleads, rfl⟩ := hx
  cases a with
  | error e => exact ⟨.error e, d', bind_of_error hrun, hleads, rfl⟩
  | ok a =>
    obtain ⟨b, d'', hnext, hleads', hr⟩ := hf a d' rfl hleads
    exact ⟨b, d'', (bind_of_ok hrun).trans hnext, hleads.trans hleads', hr⟩

theorem bind_error {e : Error} (hx : Reads x d kept (.error e)) : Reads (x >>= f) d view (.error e) :=
  bind (g := fun _ => .error e) hx fun _ _ h => nomatch h

theorem bind_ok {a : α} {cs : List Char} (hx : Reads x d kept (.ok (a, ⟨cs⟩)))
    (hf : ∀ d', d.Leads d' → d'.text = cs → Reads (f a) d' view r) : Reads (x >>= f) d view r := by
  refine bind (g := fun _ => r) hx fun b d' h hleads => ?_
  cases h
  exact hf d' hleads rfl

theorem of_run {a : α} {d' : Sheet} (hx : x d = .ok (.ok a, d')) (hleads : d.Leads d') (hf : Reads (f a) d' view r) :
    Reads (x >>= f) d view r := by
  obtain ⟨b, d'', hnext, hleads', hr⟩ := hf
  exact ⟨b, d'', (bind_of_ok hx).trans hnext, hleads.trans hleads', hr⟩

theorem read_bind {f : List Char → Guarded β} (hf : Reads (f d.text) d view r) : Reads (read >>= f) d view r :=
  of_run rfl (.refl d) hf

theorem check_bind {q : Except Fault α} {a : α} (hq : q = .ok a) (hf : Reads (f a) d view r) :
    Reads (check q >>= f) d view r :=
  of_run (by rw [hq]; rfl) (.refl d) hf

theorem after_bind {f : List Char → Guarded β} {n : Nat} (hn : isBoundary n d.text = true)
    (hf : Reads (f (dropTo n d.text)) d view r) : Reads (after n >>= f) d view r :=
  of_run (by simp only [after, suffix, hn, if_true]; rfl) (.refl d) hf

theorem before_bind {f : List Char → Guarded β} {n : Nat} (hn : isBoundary n d.text = true)
    (hf : Reads (f (takeTo n d.text)) d view r) : Reads (before n >>= f) d view r :=
  of_run (by simp only [before, front, hn, if_true]; rfl) (.refl d) hf

theorem answer_error {q : Except Error α} {e : Error} (hq : q = .error e) :
    Reads (answer q >>= f) d view (.error e) :=
  ⟨.error e, d, bind_of_error (by rw [hq]; rfl), .refl d, rfl⟩

theorem answer_ok {q : Except Error α} {a : α} (hq : q = .ok a) (hf : Reads (f a) d view r) :
    Reads (answer q >>= f) d view r :=
  of_run (by rw [hq]; rfl) (.refl d) hf

theorem claim {s : Span} (hs : s.Fits d.text) : Reads (Guarded.claim s) d kept (.ok ((), ⟨blankOut s d.text⟩)) := by
  have hrun : Guarded.claim s d = .ok (.ok (), ⟨blankOut s d.text, s :: d.claimed⟩) := by
    simp only [Guarded.claim, hs.le, hs.start, hs.stop, hs.size_blankOut, and_self, if_true]
  exact ⟨.ok (), _, hrun, .claim hs, rfl⟩

theorem claim_bind {f : Unit → Guarded β} {s : Span} (hs : s.Fits d.text)
    (hf : ∀ d', d.Leads d' → d'.text = blankOut s d.text → Reads (f ()) d' view r) :
    Reads (Guarded.claim s >>= f) d view r :=
  bind_ok (claim hs) hf

theorem claim_pure {a : β} {s : Span} (hs : s.Fits d.text) :
    Reads (Guarded.claim s >>= fun _ => Pure.pure a) d kept (.ok (a, ⟨blankOut s d.text⟩)) :=
  claim_bind hs fun d' _ htext => by
    rw [← htext]
    exact .pure

/-- What was taken before a failure stays taken, and a function of the result leaves that as it is. -/
theorem map_kept {q : Interpretation.Taken α} (hx : Reads x d kept q.kept) (g : α → β) :
    Reads (x >>= fun a => Pure.pure (g a)) d kept (Interpretation.Taken.kept (q.1.map g, q.2)) := by
  obtain ⟨a, ⟨cs⟩⟩ := q
  cases a with
  | error e => exact bind_error hx
  | ok a =>
    refine bind_ok hx fun d' _ htext => ?_
    cases htext
    exact .pure

theorem onward {limit low next : Nat} {k : low < next → next ≤ limit → Guarded β} (h : low < next) (h' : next ≤ limit)
    (hk : Reads (k h h') d view r) : Reads (Guarded.onward limit low next k) d view r := by
  rwa [Guarded.onward, dif_pos ⟨h, h'⟩]

end Reads

end Guarded
end Parlance
