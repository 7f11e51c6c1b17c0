import Parlance.Proofs.Json.Spelling

/-! Both printers spell the value that they are given, and so it is read back from what they print. -/

namespace Parlance.Json

open Number (maxWord64)

mutual

/-- Nothing in the value is lost in print. -/
def Exact : Json → Prop
  | int n => IsWord n
  | float _ | unfit => False
  | list items => ItemsExact items
  | object fields => FieldsExact fields
  | null | bool _ | text _ => True

def ItemsExact : List Json → Prop
  | [] => True
  | j :: js => j.Exact ∧ ItemsExact js

def FieldsExact : List (String × Json) → Prop
  | [] => True
  | (_, j) :: fs => j.Exact ∧ FieldsExact fs

end

@[simp] theorem toList_quote (s : String) : (quote s).toList = quoteChars s := by
  simp [quote, quoteChars]

theorem spells_int {n : Int} (h : IsWord n) : Spells (int n) (toString n).toList := by
  obtain ⟨hlow, hhigh⟩ := h
  cases n with
  | ofNat n =>
    have hn : Spells (int n) (Nat.toDigits 10 n) := .nat (Int.ofNat_le.mp hhigh)
    simpa [toString, Int.repr] using hn
  | negSucc n =>
    have hn : Spells (int (.negSucc n)) ('-' :: Nat.toDigits 10 (n + 1)) := .negative (by omega)
    simpa [toString, Int.repr] using hn

theorem gap_nil : Gap [] := by simp [Gap]

mutual

theorem spells_write {j : Json} (h : j.Exact) : Spells j j.write.toList := by
  match j, h with
  | null, _ => exact .null
  | bool b, _ => cases b <;> exact .bool _
  | int n, h => exact spells_int h
  | text s, _ => simpa [write] using Spells.text s
  | list [], _ => exact .noItems
  | list (j :: js), h =>
    have hitems := Spells.items gap_nil (spells_write h.1) (spellsItems_write h.2)
    simpa [write] using hitems
  | object [], _ => exact .noFields
  | object ((k, j) :: fs), h =>
    have hfields := Spells.fields (k := k) gap_nil gap_nil (spells_write h.1) (spellsFields_write h.2)
    simpa [write] using hfields

theorem spellsItems_write {js : List Json} (h : ItemsExact js) :
    SpellsItems js ((writeItems js).toList ++ [']']) := by
  match js, h with
  | [], _ => exact .nil gap_nil
  | j :: js, h =>
    have hitems := SpellsItems.cons gap_nil (spells_write h.1) (spellsItems_write h.2)
    simpa [writeItems] using hitems

theorem spellsFields_write {fs : List (String × Json)} (h : FieldsExact fs) :
    SpellsFields fs ((writeFields fs).toList ++ ['\x7d']) := by
  match fs, h with
  | [], _ => exact .nil gap_nil
  | (k, j) :: fs, h =>
    have hfields := SpellsFields.cons (k := k) gap_nil gap_nil (spells_write h.1) (spellsFields_write h.2)
    simpa [writeFields] using hfields

end

theorem gap_line (depth : Nat) : Gap (line depth).toList := by
  intro c hc
  simp only [line, String.toList_ofList, List.mem_cons, List.mem_replicate] at hc
  rcases hc with rfl | ⟨-, rfl⟩ <;> decide

mutual

theorem spells_layout {j : Json} (depth : Nat) (h : j.Exact) : Spells j (layout depth j).toList := by
  match j, h with
  | null, h | bool _, h | int _, h | text _, h | list [], h | object [], h => exact spells_write h
  | list (j :: js), h =>
    have hitems := Spells.items (gap_line (depth + 1)) (spells_layout (depth + 1) h.1)
      (spellsItems_layout depth h.2)
    simpa [layout] using hitems
  | object ((k, j) :: fs), h =>
    have hblank : Gap [' '] := by simp [Gap, isSpace]
    have hfields := Spells.fields (k := k) (gap_line (depth + 1)) hblank (spells_layout (depth + 1) h.1)
      (spellsFields_layout depth h.2)
    simpa [layout] using hfields

theorem spellsItems_layout {js : List Json} (depth : Nat) (h : ItemsExact js) :
    SpellsItems js ((layoutItems (depth + 1) js).toList ++ ((line depth).toList ++ [']'])) := by
  match js, h with
  | [], _ => exact .nil (gap_line depth)
  | j :: js, h =>
    have hitems := SpellsItems.cons (gap_line (depth + 1)) (spells_layout (depth + 1) h.1)
      (spellsItems_layout depth h.2)
    simpa [layoutItems] using hitems

theorem spellsFields_layout {fs : List (String × Json)} (depth : Nat) (h : FieldsExact fs) :
    SpellsFields fs ((layoutFields (depth + 1) fs).toList ++ ((line depth).toList ++ ['\x7d'])) := by
  match fs, h with
  | [], _ => exact .nil (gap_line depth)
  | (k, j) :: fs, h =>
    have hblank : Gap [' '] := by simp [Gap, isSpace]
    have hfields := SpellsFields.cons (k := k) (gap_line (depth + 1)) hblank (spells_layout (depth + 1) h.1)
      (spellsFields_layout depth h.2)
    simpa [layoutFields] using hfields

end

/-- A value is read back from either of its prints. -/
theorem readIn_printed (mode : Mode) {j : Json} (h : j.Exact) (hdepth : j.nesting < depthLimit) :
    readIn mode j.write.toList = .ok j ∧ readIn mode j.pretty.toList = .ok j :=
  ⟨(spells_write h).readIn hdepth, (spells_layout 0 h).readIn hdepth⟩

end Parlance.Json
