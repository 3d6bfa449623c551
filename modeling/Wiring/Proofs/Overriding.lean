import Wiring.Proofs.Accepting
import Wiring.Proofs.Layering

/-!
# `Wiring.Proofs.Overriding`: what the calls of a declaration override

A declaration that extends a definition adds its calls to a copy of that. `Overrides` says what the
result keeps of the base: a call is replaced by the last one that names its identifier, and the
constructor by the last one of the declaration. A call without an identifier replaces nothing,
because the identifier that it gets is a free one (`freeIdentifier_not_mem`).

`overrides_foldl_addCall` is the induction over the calls. One call is one of the three lemmas before
it: about the constructor, about the keys, and about a call that is there.
-/

set_option autoImplicit false

namespace Wiring

open Wiring.Xml

namespace DefinitionOf

/-! ### Free identifiers -/

/-- Different numbers are different identifiers. -/
theorem numbered_injective : Function.Injective numbered := by
  intro m n h
  have hlist : ("c" ++ toString m).toList = ("c" ++ toString n).toList := congrArg String.toList h
  rw [String.toList_append, String.toList_append] at hlist
  exact Nat.repr_injective (String.toList_injective (List.append_cancel_left hlist))

/-- No call is known by the free identifier. There are more numbers to try than calls. -/
theorem freeIdentifier_not_mem {γ : Type} (d : DefinitionOf γ) :
    d.freeIdentifier ∉ d.calls.keys := by
  unfold freeIdentifier
  dsimp only
  set tried := (List.range (d.calls.size + 1)).map fun i => numbered (d.calls.size + i) with htried
  cases hfind : tried.find? fun k => !d.calls.contains k with
  | some k =>
    have hk := List.find?_some hfind
    simpa [OrderedMap.contains] using hk
  | none =>
    have hall : tried ⊆ d.calls.keys := by
      intro k hk
      have hk := List.find?_eq_none.mp hfind k hk
      simpa [OrderedMap.contains] using hk
    have hnodup : tried.Nodup :=
      List.nodup_range.map fun m n h => Nat.add_left_cancel (numbered_injective h)
    have hlength := (List.subperm_of_subset hnodup hall).length_le
    simp [htried, OrderedMap.keys, OrderedMap.size] at hlength

/-! ### One call -/

variable {d : Definition} {c : Call} {i : String}

/-- Whether a call is kept under an identifier because it names it. -/
def isNamed (i : String) (c : Call) : Bool := !c.isConstructor && c.identifier = some i

/-- A call of the constructor replaces the one before. -/
theorem constructor_addCall (d : Definition) (c : Call) :
    (d.addCall c).constructor = if c.isConstructor then some c else d.constructor := by
  unfold addCall placeFor
  by_cases h : c.isConstructor = true <;> simp [h, keep]

/-- The keys stay in front. -/
theorem keys_prefix_addCall (d : Definition) (c : Call) :
    d.calls.keys <+: (d.addCall c).calls.keys := by
  unfold addCall
  cases d.placeFor c with
  | constructor => exact List.prefix_refl _
  | keyed i =>
    show d.calls.keys <+: (d.calls.insert i _).keys
    rw [OrderedMap.keys_insert]
    split
    · exact List.prefix_refl _
    · exact List.prefix_append _ _

/-- A call that is there is replaced by one that names its identifier, and by no other. -/
theorem get?_addCall_of_mem (h : i ∈ d.calls.keys) (c : Call) :
    (d.addCall c).calls.get? i = if isNamed i c then some c else d.calls.get? i := by
  unfold addCall placeFor isNamed
  by_cases hctor : c.isConstructor = true
  · simp [hctor, keep]
  · cases hid : c.identifier with
    | some j =>
      by_cases hj : j = i
      · subst hj
        have hsame : ({ c with identifier := some j } : Call) = c := by rw [← hid]
        simp [hctor, keep, hsame]
      · have hget := OrderedMap.get?_insert_of_ne d.calls { c with identifier := some j } (Ne.symm hj)
        simpa [hctor, keep, hj] using hget
    | none =>
      -- The call gets an identifier that is free, so it is not this one.
      have hfree : i ≠ d.freeIdentifier := fun he => d.freeIdentifier_not_mem (he ▸ h)
      have hget := OrderedMap.get?_insert_of_ne d.calls
        { c with identifier := some d.freeIdentifier } hfree
      simpa [hctor, keep] using hget

@[simp] theorem className_addCall (d : Definition) (c : Call) :
    (d.addCall c).className = d.className := by
  unfold addCall keep
  cases d.placeFor c <;> rfl

@[simp] theorem identifier_addCall (d : Definition) (c : Call) :
    (d.addCall c).identifier = d.identifier := by
  unfold addCall keep
  cases d.placeFor c <;> rfl

end DefinitionOf

/-! ### All calls of a declaration -/

namespace Declaration

/-- The last call of the constructor. -/
def lastConstructor (calls : List Call) : Option Call := calls.reverse.find? CallOf.isConstructor

/-- The last call that is kept under an identifier because it names it. -/
def lastNamed (i : String) (calls : List Call) : Option Call :=
  calls.reverse.find? (DefinitionOf.isNamed i)

/-- The key of the definition that a declaration extends, if it extends one. -/
def baseKey? (d : Declaration) : Option DefinitionKey :=
  d.base.map fun reference => ⟨(d.baseKey reference).1, (d.baseKey reference).2⟩

/-- What a declaration makes of its base. It has the identifier of the declaration, and the class of
the declaration if that has one. The declared calls replace those that they name, and the others stay
in front in their order. -/
structure Overrides (d : Declaration) (base x : Definition) : Prop where
  identifier : x.identifier = d.identifier
  className : x.className = d.className.getD base.className
  constructor : x.constructor = (lastConstructor d.calls).or base.constructor
  order : base.calls.keys <+: x.calls.keys
  call : ∀ i ∈ base.calls.keys, x.calls.get? i = (lastNamed i d.calls).or (base.calls.get? i)

/-- The last of some things is the last of the rest, if there is one. -/
theorem find?_reverse_cons {α : Type} (p : α → Bool) (a : α) (rest : List α) :
    (a :: rest).reverse.find? p = (rest.reverse.find? p).or (if p a then some a else none) := by
  rw [List.reverse_cons, List.find?_append, List.find?_singleton]

/-- What comes of adding some calls to a definition. -/
theorem foldl_addCall (calls : List Call) : ∀ d : Definition,
    let x := calls.foldl DefinitionOf.addCall d
    x.className = d.className ∧ x.identifier = d.identifier ∧
      x.constructor = (lastConstructor calls).or d.constructor ∧
      d.calls.keys <+: x.calls.keys ∧
      ∀ i ∈ d.calls.keys, x.calls.get? i = (lastNamed i calls).or (d.calls.get? i) := by
  induction calls with
  | nil => exact fun d => ⟨rfl, rfl, rfl, List.prefix_refl _, fun _ _ => rfl⟩
  | cons c rest ih =>
    intro d
    -- The first call is added first, so it decides only where none of the others does.
    have horder := DefinitionOf.keys_prefix_addCall d c
    obtain ⟨hclass, hid, hctor, hkeys, hcall⟩ := ih (d.addCall c)
    refine ⟨?_, ?_, ?_, horder.trans hkeys, fun i hi => ?_⟩
    · rw [List.foldl_cons, hclass, DefinitionOf.className_addCall]
    · rw [List.foldl_cons, hid, DefinitionOf.identifier_addCall]
    · rw [List.foldl_cons, hctor, DefinitionOf.constructor_addCall, lastConstructor, lastConstructor,
        find?_reverse_cons, Option.or_assoc]
      by_cases h : c.isConstructor = true <;> simp [h]
    · rw [List.foldl_cons, hcall i (horder.subset hi), DefinitionOf.get?_addCall_of_mem hi, lastNamed,
        lastNamed, find?_reverse_cons, Option.or_assoc]
      by_cases h : DefinitionOf.isNamed i c = true <;> simp [h]

/-- Adding the calls of a declaration to a copy of a definition overrides what they name. -/
theorem overrides_foldl_addCall (d : Declaration) (base : Definition) (interfaces : List String) :
    d.Overrides base { d.calls.foldl DefinitionOf.addCall
      { base with identifier := d.identifier, className := d.className.getD base.className } with
      interfaces := interfaces } := by
  obtain ⟨hclass, hid, hctor, hkeys, hcall⟩ := foldl_addCall d.calls
    { base with identifier := d.identifier, className := d.className.getD base.className }
  exact ⟨hid, hclass, hctor, hkeys, hcall⟩

/-! ### Declarations that were read -/

/-- The declaration was read from some tree. -/
def IsRead (d : Declaration) : Prop :=
  ∃ source root ds, ofElement source root = .ok ds ∧ d ∈ ds

/-- A declaration that was read comes from an element that is well formed. -/
theorem IsRead.exists_element {d : Declaration} (h : d.IsRead) :
    ∃ e : Element, readDependency d.source e = .ok d ∧ e.IsDependency ∧ Declares d.source e d := by
  obtain ⟨source, root, ds, hds, hd⟩ := h
  obtain ⟨e, -, he⟩ := Except.exists_of_mem_mapM hds d hd
  have hreads := reads_dependency source e
  rw [he] at hreads
  have hsource := hreads.2.source
  subst hsource
  exact ⟨e, he, hreads⟩

/-- A declaration that was read is plain. -/
theorem IsRead.plain {d : Declaration} (h : d.IsRead) : d.IsPlain := by
  obtain ⟨e, he, -⟩ := h.exists_element
  exact plain_of_readDependency he

/-- A declaration that was read names an interface or a class. -/
theorem IsRead.named {d : Declaration} (h : d.IsRead) :
    d.interface.isSome = true ∨ d.className.isSome = true := by
  obtain ⟨e, -, hwell, hdeclares⟩ := h.exists_element
  rcases hwell.target with ⟨i, hi⟩ | ⟨n, hn⟩
  · exact Or.inl (Option.isSome_iff_exists.mpr ⟨i, (hdeclares.interface i).mpr hi⟩)
  · exact Or.inr (Option.isSome_iff_exists.mpr ⟨n, (hdeclares.className n).mpr hn⟩)

/-- The interface of a declaration that was read is a name, and a base gives one only to a
declaration without. -/
theorem IsRead.interface_ne {d : Declaration} (h : d.IsRead) (base : String) :
    let interface := d.interface.orElse fun _ => if base = "" then none else some base
    interface ≠ some "" ∧ (interface = none → d.interface = none) := by
  have hown := h.plain.interface_ne
  cases hi : d.interface with
  | some i =>
    rw [hi] at hown
    exact ⟨hown, nofun⟩
  | none => by_cases hb : base = "" <;> simp [hb]

/-- The interfaces of a declaration that was read are names, whatever it extends. -/
theorem IsRead.targets_ne {d : Declaration} (h : d.IsRead) {className : String}
    {interface : Option String} (hne : interface ≠ some "")
    (hnone : interface = none → d.interface = none)
    (hclass : d.className.isSome = true → className ≠ "") :
    "" ∉ d.targets interface className := by
  have hnames : "" ∉ d.interfaces ++ interface.toList := by
    rw [List.mem_append, not_or]
    exact ⟨h.plain.interfaces_ne, fun hm => hne (Option.mem_toList.mp hm)⟩
  unfold targets
  dsimp only
  split
  · -- Only a declaration with a class of its own can be without an interface.
    rename_i hempty
    have hinterface : interface = none := by
      cases interface with
      | none => rfl
      | some i => simp at hempty
    have hsome : d.className.isSome = true := by
      rcases h.named with hi | hc
      · rw [hnone hinterface] at hi
        cases hi
      · exact hc
    rw [List.mem_singleton]
    exact (hclass hsome).symm
  · exact hnames

end Declaration

end Wiring
