/-!
# `Wiring.Store.Cells`: things with an identity

A cell holds something that may change and that others refer to. A reference names a cell, so two
holders of one reference see the same changes. A reference carries the type of what its cell holds.

Cells are never removed. `get_add_of_lt` and `get_modify_of_ne` say that a new cell and a change
leave every other cell as it was.
-/

set_option autoImplicit false

namespace Wiring

/-- A reference to a cell that holds an `α`. -/
structure Ref (α : Type) where
  index : Nat
  deriving Inhabited

instance {α : Type} : DecidableEq (Ref α) := fun a b =>
  if h : a.index = b.index then .isTrue (by cases a; cases b; simp_all)
  else .isFalse fun he => h (he ▸ rfl)

/-- Cells that hold an `α`, in the order in which they were made. -/
structure Cells (α : Type) where
  items : List α

namespace Cells

variable {α : Type}

/-- No cells. -/
def empty : Cells α := ⟨[]⟩

instance : Inhabited (Cells α) := ⟨empty⟩

/-- What a cell holds. -/
def get [Inhabited α] (c : Cells α) (r : Ref α) : α := c.items[r.index]?.getD default

/-- The reference of the next cell. -/
def next (c : Cells α) : Ref α := ⟨c.items.length⟩

/-- Makes a cell, the one that `next` names. -/
def add (c : Cells α) (a : α) : Cells α := ⟨c.items ++ [a]⟩

/-- Changes what a cell holds. -/
def modify (c : Cells α) (r : Ref α) (f : α → α) : Cells α := ⟨c.items.modify r.index f⟩

/-- Whether a reference names one of the cells. -/
def Holds (c : Cells α) (r : Ref α) : Prop := r.index < c.items.length

variable [Inhabited α]

theorem get_add_next (c : Cells α) (a : α) : (c.add a).get c.next = a := by
  simp [get, add, next]

theorem get_add_of_lt {c : Cells α} {r : Ref α} (h : c.Holds r) (a : α) :
    (c.add a).get r = c.get r := by
  simp only [get, add]
  rw [List.getElem?_append_left h]

theorem get_modify_self {c : Cells α} {r : Ref α} (h : c.Holds r) (f : α → α) :
    (c.modify r f).get r = f (c.get r) := by
  have hr : r.index < c.items.length := h
  simp [get, modify, List.getElem?_eq_getElem hr]

theorem get_modify_of_ne {c : Cells α} {r r' : Ref α} (h : r' ≠ r) (f : α → α) :
    (c.modify r f).get r' = c.get r' := by
  have hi : r.index ≠ r'.index := fun he => h (by cases r; cases r'; simp_all)
  simp [get, modify, hi]

end Cells

end Wiring
