import Wiring.Store.Cells

/-!
# `Wiring.Proofs.Cells`: cells that all satisfy something, and cells that only grow

`All` states a condition of every cell, and is kept when a cell is made or changed accordingly.
`Extends` states that cells were only made: every reference that was good still is, and reads the
same.
-/

set_option autoImplicit false

namespace Wiring

/-- A change that does not show leaves what is shown of a list. -/
theorem map_modify_of_eq {α β : Type} {f : α → α} {g : α → β} (h : ∀ a, g (f a) = g a) (l : List α)
    (n : Nat) : (l.modify n f).map g = l.map g := by
  refine List.ext_getElem? fun m => ?_
  rw [List.getElem?_map, List.getElem?_map, List.getElem?_modify]
  cases l[m]? with
  | none => rfl
  | some a =>
    by_cases hm : n = m
    · simp [hm, h a]
    · simp [hm]

namespace Cells

variable {α : Type}

/-- Every cell satisfies a condition. -/
def All (P : α → Prop) (c : Cells α) : Prop := ∀ a ∈ c.items, P a

variable {P : α → Prop} {c : Cells α} {r q : Ref α} {f : α → α}

theorem all_add (h : c.All P) {a : α} (ha : P a) : (c.add a).All P := by
  intro x hx
  rcases List.mem_append.mp hx with hx | hx
  · exact h x hx
  · rw [List.mem_singleton] at hx
    exact hx ▸ ha

theorem all_modify (h : c.All P) (hf : ∀ a, P a → P (f a)) : (c.modify r f).All P := by
  intro x hx
  obtain ⟨n, hn, rfl⟩ := List.mem_iff_getElem.mp hx
  simp only [modify, List.length_modify] at hn
  simp only [modify, List.getElem_modify]
  split
  · exact hf _ (h _ (List.getElem_mem hn))
  · exact h _ (List.getElem_mem hn)

theorem All.mono {Q : α → Prop} (h : c.All P) (hpq : ∀ a, P a → Q a) : c.All Q :=
  fun a ha => hpq a (h a ha)

theorem All.get [Inhabited α] (h : c.All P) (hr : c.Holds r) : P (c.get r) := by
  have hr' : r.index < c.items.length := hr
  simp only [Cells.get, List.getElem?_eq_getElem hr', Option.getD_some]
  exact h _ (List.getElem_mem hr')

theorem holds_add (h : c.Holds r) (a : α) : (c.add a).Holds r := by
  have h' : r.index < c.items.length := h
  simp only [Holds, add, List.length_append, List.length_singleton]
  omega

theorem holds_modify : (c.modify r f).Holds q ↔ c.Holds q := by
  simp [Holds, modify]

/-- What a cell holds after a change of some cell. -/
theorem get_modify [Inhabited α] (h : c.Holds q) :
    (c.modify r f).get q = if q = r then f (c.get q) else c.get q := by
  by_cases hq : q = r
  · subst hq
    rw [if_pos rfl, get_modify_self h]
  · rw [if_neg hq, get_modify_of_ne hq]

/-- Changing a cell that was just made. -/
theorem modify_add_next (c : Cells α) (a : α) (f : α → α) :
    (c.add a).modify c.next f = c.add (f a) := by
  unfold modify add next
  rw [List.modify_eq_take_drop]
  simp

/-! ### Growth -/

/-- The cells are the first ones of some others, which hold the same. -/
def Extends (c c' : Cells α) : Prop := c.items <+: c'.items

theorem Extends.refl (c : Cells α) : c.Extends c := List.prefix_refl _

theorem Extends.trans {a b c : Cells α} (hab : a.Extends b) (hbc : b.Extends c) : a.Extends c :=
  List.IsPrefix.trans hab hbc

theorem extends_add (c : Cells α) (a : α) : c.Extends (c.add a) := List.prefix_append _ _

theorem Extends.holds {c' : Cells α} (h : c.Extends c') (hr : c.Holds r) : c'.Holds r :=
  Nat.lt_of_lt_of_le hr h.length_le

theorem Extends.get {c' : Cells α} [Inhabited α] (h : c.Extends c') (hr : c.Holds r) :
    c'.get r = c.get r := by
  obtain ⟨more, hmore⟩ := h
  simp only [Cells.get, ← hmore]
  rw [List.getElem?_append_left hr]

theorem holds_next (c : Cells α) (a : α) : (c.add a).Holds c.next := by
  simp [Holds, add, next]

end Cells

end Wiring
