import Wiring.Proofs.Keeping
import Wiring.Proofs.Overlays
import Wiring.Proofs.Snapshots

/-!
# `Wiring.Proofs.Copying`: what a copy of a definition holds

A copy takes everything along that can be reached from the definition, and renames the references
inside of what it took. `Store.held` reads a definition off its cells, with the properties of its
arguments as they are stored, so that it does not depend on anything but these cells.

`copy_eq_ok` is the main fact: the copy is a new definition that holds what the original holds, up
to the renaming of what the properties refer to. Nothing that was there changes. A definition whose
properties refer to nothing can always be copied, and its copy holds just the same
(`canCopy_of_isClosed`).
-/

set_option autoImplicit false

namespace Wiring

/-! ### Definitions as their cells hold them -/

namespace DefinitionOf

variable {γ δ : Type}

/-- The calls of a definition, that of the constructor first. -/
def parts (d : DefinitionOf γ) : List γ := d.constructor.toList ++ d.callList

/-- What is done to the calls of a definition depends on these calls only. -/
theorem map_congr {f g : γ → δ} {d : DefinitionOf γ} (h : ∀ q ∈ d.parts, f q = g q) :
    d.map f = d.map g := by
  have hctor : d.constructor.map f = d.constructor.map g := by
    cases hc : d.constructor with
    | none => rfl
    | some q => exact congrArg some (h q (by simp [parts, hc]))
  have hcalls : d.calls.map f = d.calls.map g := by
    refine OrderedMap.ext (List.map_congr_left fun e he => ?_)
    have hmem : e.2 ∈ d.parts := List.mem_append_right _ (List.mem_map_of_mem he)
    rw [h e.2 hmem]
  unfold map
  rw [hctor, hcalls]

theorem map_map {ζ : Type} (g : δ → ζ) (f : γ → δ) (d : DefinitionOf γ) :
    (d.map f).map g = d.map fun q => g (f q) := by
  unfold map OrderedMap.map
  simp only [Option.map_map, List.map_map]
  rfl

theorem parts_map (f : γ → δ) (d : DefinitionOf γ) : (d.map f).parts = d.parts.map f := by
  unfold parts map callList OrderedMap.values OrderedMap.map
  cases d.constructor <;> simp

end DefinitionOf

namespace Store

/-- The call that a cell holds, with its arguments as their cells hold them. -/
def heldCall (s : Store) (q : Ref CallCell) : Call := (s.calls.get q).map s.arguments.get

/-- The definition that a cell holds, with its calls as their cells hold them. -/
def held (s : Store) (x : Ref DefinitionCell) : Definition := (s.definitions.get x).map s.heldCall

/-- The call is there, and so are its arguments. -/
structure WholeCall (s : Store) (q : Ref CallCell) : Prop where
  call : s.calls.Holds q
  argument : ∀ a ∈ (s.calls.get q).arguments, s.arguments.Holds a

/-- The definition is there, and so are its calls with their arguments. -/
structure Whole (s : Store) (x : Ref DefinitionCell) : Prop where
  definition : s.definitions.Holds x
  call : ∀ q ∈ (s.definitions.get x).parts, s.WholeCall q

variable {s t : Store}

/-- More cells leave a call as it is. -/
theorem WholeCall.extends {q : Ref CallCell} (h : s.WholeCall q)
    (harguments : s.arguments.Extends t.arguments) (hcalls : s.calls.Extends t.calls) :
    t.WholeCall q ∧ t.heldCall q = s.heldCall q := by
  have hget := hcalls.get h.call
  refine ⟨⟨hcalls.holds h.call, fun a ha => harguments.holds (h.argument a (hget ▸ ha))⟩, ?_⟩
  unfold heldCall CallOf.map
  rw [hget, List.map_congr_left fun a ha => harguments.get (h.argument a ha)]

/-- More cells leave a definition as it is. -/
theorem Whole.extends {x : Ref DefinitionCell} (h : s.Whole x)
    (harguments : s.arguments.Extends t.arguments) (hcalls : s.calls.Extends t.calls)
    (hdefinitions : s.definitions.Extends t.definitions) : t.Whole x ∧ t.held x = s.held x := by
  have hget := hdefinitions.get h.definition
  have hcall : ∀ q ∈ (s.definitions.get x).parts, t.WholeCall q ∧ t.heldCall q = s.heldCall q :=
    fun q hq => (h.call q hq).extends harguments hcalls
  refine ⟨⟨hdefinitions.holds h.definition, fun q hq => (hcall q (hget ▸ hq)).1⟩, ?_⟩
  unfold held
  rw [hget, DefinitionOf.map_congr fun q hq => (hcall q hq).2]

/-- A store that grew has the definition as it was. -/
theorem Whole.grows {x : Ref DefinitionCell} (h : s.Whole x) (hg : s.Grows t) :
    t.Whole x ∧ t.held x = s.held x := h.extends hg.arguments hg.calls hg.definitions

/-! ### What can be reached -/

/-- From one thing to another by a number of references. -/
inductive Leads (s : Store) : Nat → Node → Node → Prop
  | here (x : Node) : Leads s 0 x x
  | next {n : Nat} {x y z : Node} (hy : y ∈ s.nodesOf x) (h : Leads s n y z) : Leads s (n + 1) x z

/-- Where a step finds nothing new, all that is found leads to what is found. -/
theorem mem_of_length_eq {found : List Node} (hnodup : found.Nodup)
    (hlength : (found ++ found.flatMap s.nodesOf).eraseDups.length = found.length) {y z : Node}
    (hy : y ∈ found) (hz : z ∈ s.nodesOf y) : z ∈ found := by
  have hsub : found ⊆ (found ++ found.flatMap s.nodesOf).eraseDups :=
    fun w hw => List.mem_eraseDups.mpr (List.mem_append_left _ hw)
  have hperm := (List.subperm_of_subset hnodup hsub).perm_of_length_le (le_of_eq hlength)
  exact hperm.mem_iff.mpr <|
    List.mem_eraseDups.mpr (List.mem_append_right _ (List.mem_flatMap.mpr ⟨y, hy, hz⟩))

/-- What lies within the number of steps is found. -/
theorem mem_reachedIn (n : Nat) : ∀ {found : List Node} {k : Nat} {x y : Node}, found.Nodup →
    x ∈ found → s.Leads k x y → k ≤ n → y ∈ s.reachedIn n found := by
  induction n with
  | zero =>
    intro found k x y _ hx h hk
    cases h with
    | here => exact hx
    | next => omega
  | succ n ih =>
    intro found k x y hnodup hx h hk
    have hmore : (found ++ found.flatMap s.nodesOf).eraseDups.Nodup := Container.nodup_eraseDups _
    have hsub : found ⊆ (found ++ found.flatMap s.nodesOf).eraseDups :=
      fun z hz => List.mem_eraseDups.mpr (List.mem_append_left _ hz)
    have hstep : ∀ {z w}, z ∈ found → w ∈ s.nodesOf z →
        w ∈ (found ++ found.flatMap s.nodesOf).eraseDups := fun hz hw =>
      List.mem_eraseDups.mpr (List.mem_append_right _ (List.mem_flatMap.mpr ⟨_, hz, hw⟩))
    unfold reachedIn
    dsimp only
    split
    · -- Nothing new was found, so whatever is found leads to nothing else.
      rename_i hlength
      clear ih hk
      induction h with
      | here => exact hx
      | next hw _ ih => exact ih (mem_of_length_eq hnodup hlength hx hw)
    · cases h with
      | here => exact ih hmore (hsub hx) (.here x) (Nat.zero_le n)
      | next hw h => exact ih hmore (hstep hx hw) h (Nat.le_of_succ_le_succ hk)

/-- What holds of the start and passes along references holds of all that is found. -/
theorem reachedIn_induction {P : Node → Prop} (hP : ∀ x, P x → ∀ y ∈ s.nodesOf x, P y) (n : Nat) :
    ∀ {found : List Node}, (∀ x ∈ found, P x) → ∀ x ∈ s.reachedIn n found, P x := by
  induction n with
  | zero => exact fun h => h
  | succ n ih =>
    intro found h
    unfold reachedIn
    dsimp only
    split
    · exact h
    · refine ih fun x hx => ?_
      rcases List.mem_append.mp (List.mem_eraseDups.mp hx) with hx | hx
      · exact h x hx
      · obtain ⟨y, hy, hx⟩ := List.mem_flatMap.mp hx
        exact hP y (h y hy) x hx

/-- A reference as something that can be reached. -/
def refNode {α : Type} (kind : ComponentKind) (r : Ref α) : Node := .component ⟨kind, r.index⟩

/-- What can be reached from a definition. -/
def reachable (s : Store) (x : Ref DefinitionCell) : List Node :=
  s.reachedIn s.reach [refNode .definition x]

/-- A definition leads to its calls, and these lead to their arguments. -/
theorem mem_reachable {x : Ref DefinitionCell} (h : s.Whole x) :
    refNode .definition x ∈ s.reachable x ∧
      ∀ q ∈ (s.definitions.get x).parts, refNode .call q ∈ s.reachable x ∧
        ∀ a ∈ (s.calls.get q).arguments, refNode .argument a ∈ s.reachable x := by
  have hstart : refNode .definition x ∈ [refNode .definition x] := List.mem_singleton.mpr rfl
  have hnodup : [refNode .definition x].Nodup := List.nodup_singleton _
  refine ⟨mem_reachedIn _ hnodup hstart (.here _) (Nat.zero_le _), fun q hq => ?_⟩
  -- A definition with a call makes for two steps at least.
  have hreach : 2 ≤ s.reach := by
    have hx : x.index < s.definitions.items.length := h.definition
    have hq : q.index < s.calls.items.length := (h.call q hq).call
    unfold reach
    omega
  have hcall : refNode .call q ∈ s.nodesOf (refNode .definition x) :=
    List.mem_map_of_mem hq
  refine ⟨mem_reachedIn _ hnodup hstart (.next hcall (.here _)) (by omega), fun a ha => ?_⟩
  have hargument : refNode .argument a ∈ s.nodesOf (refNode .call q) := List.mem_map_of_mem ha
  exact mem_reachedIn _ hnodup hstart (.next hcall (.next hargument (.here _))) hreach

/-! ### Copies of cells -/

theorem mem_componentsIn {kind : ComponentKind} {found : List Node} {n : Nat} :
    n ∈ componentsIn kind found ↔ Node.component ⟨kind, n⟩ ∈ found := by
  unfold componentsIn
  rw [List.mem_filterMap]
  constructor
  · rintro ⟨x, hx, h⟩
    cases x with
    | component c =>
      dsimp only at h
      split at h
      · rename_i hkind
        cases h
        exact hkind ▸ hx
      · cases h
    | _ => cases h
  · intro h
    exact ⟨_, h, by simp⟩

/-- A reference to what is copied is renamed to its place behind the cells. -/
theorem renamedRef_newName {α : Type} {found : List Node} {kind : ComponentKind}
    (h : kind ≠ .countingSource) (r : Ref α) :
    renamedRef (s.newName found) kind r
      = ⟨behind (s.cellCount kind) (componentsIn kind found) r.index⟩ := by
  unfold renamedRef Value.renamedComponent newName
  simp only [if_neg h]

section CopyCells

variable {α : Type} [Inhabited α] {c : Cells α} {numbers : List Nat} {g : α → α} {r : Ref α}

/-- The copy of a cell holds what the cell holds, changed as it is said. -/
theorem get_copyCells (h : r.index ∈ numbers) :
    (copyCells c numbers g).get ⟨behind c.items.length numbers r.index⟩ = g (c.get r) := by
  have hlt : numbers.idxOf r.index < numbers.length := List.idxOf_lt_length_of_mem h
  unfold copyCells behind Cells.get
  rw [if_pos h, List.getElem?_append_right (Nat.le_add_right _ _), Nat.add_sub_cancel_left,
    List.getElem?_map, List.getElem?_eq_getElem hlt, List.getElem_idxOf]
  rfl

/-- The copy of a cell is there. -/
theorem holds_copyCells (h : r.index ∈ numbers) :
    (copyCells c numbers g).Holds ⟨behind c.items.length numbers r.index⟩ := by
  have hlt : numbers.idxOf r.index < numbers.length := List.idxOf_lt_length_of_mem h
  unfold copyCells behind Cells.Holds
  rw [if_pos h, List.length_append, List.length_map]
  show c.items.length + numbers.idxOf r.index < c.items.length + numbers.length
  omega

omit [Inhabited α] in
/-- The copy of a cell is a new one. -/
theorem not_holds_behind (h : r.index ∈ numbers) :
    ¬ c.Holds ⟨behind c.items.length numbers r.index⟩ := by
  unfold behind Cells.Holds
  rw [if_pos h]
  show ¬ c.items.length + numbers.idxOf r.index < c.items.length
  omega

end CopyCells

end Store

/-! ### Values that refer to nothing -/

namespace Value

mutual

/-- A value that refers to nothing is renamed to itself. -/
theorem renamed_of_closed (f : Node → Node) : ∀ {v : Value}, v.nodes = [] → v.renamed f = v
  | .list none items, h => by
    rw [renamed, renamedItems_of_closed f h]
    rfl
  | .map none entries, h => by
    rw [renamed, renamedEntries_of_closed f h]
    rfl
  | .list (some _) _, h | .map (some _) _, h | .object _, h | .component _ _, h => by cases h
  | .null, _ | .bool _, _ | .int _, _ | .float _, _ | .text _, _ | .bytes _, _ | .path _, _
  | .parser _, _ | .other _, _ => rfl

/-- Items that refer to nothing are renamed to themselves. -/
theorem renamedItems_of_closed (f : Node → Node) :
    ∀ {items : List Value}, itemNodes items = [] → renamedItems f items = items
  | [], _ => rfl
  | v :: rest, h => by
    obtain ⟨hv, hrest⟩ := List.append_eq_nil_iff.mp h
    rw [renamedItems, renamed_of_closed f hv, renamedItems_of_closed f hrest]

/-- Entries that refer to nothing are renamed to themselves. -/
theorem renamedEntries_of_closed (f : Node → Node) :
    ∀ {entries : List (Value × Value)}, entryNodes entries = [] → renamedEntries f entries = entries
  | [], _ => rfl
  | (k, v) :: rest, h => by
    obtain ⟨hv, hrest⟩ := List.append_eq_nil_iff.mp h
    rw [renamedEntries, renamed_of_closed f hv, renamedEntries_of_closed f hrest]

end

end Value

/-- The argument with renamed references. -/
def Argument.renamed (f : Node → Node) (a : Argument) : Argument :=
  { a with properties := Value.renamedEntries f a.properties }

/-- The properties of the definition refer to nothing. -/
def DefinitionOf.IsClosed (d : Definition) : Prop :=
  ∀ a ∈ d.allArguments, Value.entryNodes a.properties = []

/-- A definition that refers to nothing is renamed to itself. -/
theorem DefinitionOf.IsClosed.renamed {d : Definition} (h : d.IsClosed) (f : Node → Node) :
    d.mapArguments (Argument.renamed f) = d := by
  have hid : d.mapArguments (Argument.renamed f) = d.map id := by
    refine map_congr fun c hc => ?_
    have hsame : c.arguments.map (Argument.renamed f) = c.arguments := by
      conv_rhs => rw [← List.map_id c.arguments]
      refine List.map_congr_left fun a ha => ?_
      have ha' := h a (List.mem_flatMap.mpr ⟨c, hc, ha⟩)
      unfold Argument.renamed
      rw [Value.renamedEntries_of_closed f ha']
      rfl
    unfold CallOf.map
    rw [hsame]
    rfl
  rw [hid]
  unfold map
  rw [Option.map_id, OrderedMap.map_id]
  rfl

/-! ### Copies of definitions -/

namespace Store

variable {s t : Store} {b x : Ref DefinitionCell}

/-- The definition can be copied: no source with a snapshot file can be reached from its
properties. -/
def CanCopy (s : Store) (b : Ref DefinitionCell) : Prop :=
  ∀ n, Node.component ⟨.cachedSource, n⟩ ∉ s.reachable b

/-- Copying takes along all that is reached, unless a source with a snapshot file is among that. -/
theorem run_copyReached (start : List Node) (s : Store) :
    let found := s.reachedIn s.reach start.eraseDups
    (copyReached start).run s
      = if (componentsIn .cachedSource found).isEmpty then (.ok (s.newName found), s.withCopies found)
        else (.error (.foreign .type), s) := by
  intro found
  unfold copyReached
  rw [Work.run_bind_ok (Work.run_get s)]
  dsimp only
  split
  · rfl
  · rfl

/-- Copying gives copies of all that can be reached, unless a source with a snapshot file is among
that. -/
theorem run_copy (s : Store) (b : Ref DefinitionCell) :
    (copy b).run s
      = if (componentsIn .cachedSource (s.reachable b)).isEmpty then
          (.ok (renamedRef (s.newName (s.reachable b)) .definition b),
            s.withCopies (s.reachable b))
        else (.error (.foreign .type), s) := by
  have hstart : (refNodes .definition [b]).eraseDups = [refNode .definition b] := by
    simp [refNodes, refNode, List.eraseDups_cons]
  have hrun := run_copyReached (refNodes .definition [b]) s
  dsimp only at hrun
  rw [hstart] at hrun
  unfold copy reachable
  split at hrun
  · rw [if_pos ‹_›, Work.run_bind_ok hrun]
    rfl
  · rw [if_neg ‹_›, Work.run_bind_error hrun]

/-- Copying a definition that can be copied succeeds. -/
theorem CanCopy.run_copy (h : s.CanCopy b) :
    (copy b).run s = (.ok (renamedRef (s.newName (s.reachable b)) .definition b),
      s.withCopies (s.reachable b)) := by
  have hnone : (componentsIn .cachedSource (s.reachable b)).isEmpty = true := by
    rw [List.isEmpty_iff, List.eq_nil_iff_forall_not_mem]
    exact fun n hn => h n (mem_componentsIn.mp hn)
  rw [Store.run_copy, if_pos hnone]

section WithCopies

variable {found : List Node}

/-- The copy of a definition that is copied along is a new cell with renamed calls. -/
theorem withCopies_definition (h : refNode .definition b ∈ found) :
    let y := renamedRef (s.newName found) .definition b
    ¬ s.definitions.Holds y ∧ (s.withCopies found).definitions.Holds y ∧
      (s.withCopies found).definitions.get y
        = (s.definitions.get b).map (renamedRef (s.newName found) .call) := by
  have hb : b.index ∈ componentsIn .definition found := mem_componentsIn.mpr h
  have hy : renamedRef (s.newName found) .definition b
      = ⟨behind s.definitions.items.length (componentsIn .definition found) b.index⟩ :=
    renamedRef_newName (by decide) b
  rw [hy]
  exact ⟨not_holds_behind hb, holds_copyCells hb, get_copyCells hb⟩

/-- The copy of a call that is copied along is there and has renamed arguments. -/
theorem withCopies_call {q : Ref CallCell} (h : refNode .call q ∈ found) :
    let r := renamedRef (s.newName found) .call q
    (s.withCopies found).calls.Holds r ∧
      (s.withCopies found).calls.get r
        = (s.calls.get q).map (renamedRef (s.newName found) .argument) := by
  have hq : q.index ∈ componentsIn .call found := mem_componentsIn.mpr h
  have hr : renamedRef (s.newName found) .call q
      = ⟨behind s.calls.items.length (componentsIn .call found) q.index⟩ :=
    renamedRef_newName (by decide) q
  rw [hr]
  exact ⟨holds_copyCells hq, get_copyCells hq⟩

/-- The copy of an argument that is copied along is there and has renamed properties. -/
theorem withCopies_argument {a : Ref Argument} (h : refNode .argument a ∈ found) :
    let r := renamedRef (s.newName found) .argument a
    (s.withCopies found).arguments.Holds r ∧
      (s.withCopies found).arguments.get r = (s.arguments.get a).renamed (s.newName found) := by
  have ha : a.index ∈ componentsIn .argument found := mem_componentsIn.mpr h
  have hr : renamedRef (s.newName found) .argument a
      = ⟨behind s.arguments.items.length (componentsIn .argument found) a.index⟩ :=
    renamedRef_newName (by decide) a
  rw [hr]
  exact ⟨holds_copyCells ha, get_copyCells ha⟩

end WithCopies

/-- The copy of a definition is new and holds what the definition holds, with renamed references.
What was there before is left alone. -/
theorem copy_eq_ok (hb : s.Whole b) (h : (copy b).run s = (.ok x, t)) :
    s.Grows t ∧ s.collections <+: t.collections ∧ ¬ s.definitions.Holds x ∧ t.Whole x ∧
      t.held x = (s.held b).mapArguments (Argument.renamed (s.newName (s.reachable b))) := by
  rw [run_copy] at h
  split at h
  · cases h
    -- The calls of the definition and their arguments are reached from it, so they are copied along.
    obtain ⟨hdefinition, hparts⟩ := mem_reachable hb
    obtain ⟨hnew, hholds, hget⟩ := withCopies_definition (s := s) hdefinition
    refine ⟨grows_withCopies s _, List.prefix_append _ _, hnew, ⟨hholds, fun q' hq' => ?_⟩, ?_⟩
    · rw [hget, DefinitionOf.parts_map] at hq'
      obtain ⟨q, hq, rfl⟩ := List.mem_map.mp hq'
      obtain ⟨hcall, harguments⟩ := withCopies_call (s := s) (hparts q hq).1
      refine ⟨hcall, fun a' ha' => ?_⟩
      rw [harguments] at ha'
      obtain ⟨a, ha, rfl⟩ := List.mem_map.mp ha'
      exact (withCopies_argument ((hparts q hq).2 a ha)).1
    · unfold held DefinitionOf.mapArguments
      rw [hget, DefinitionOf.map_map, DefinitionOf.map_map]
      refine DefinitionOf.map_congr fun q hq => ?_
      unfold heldCall CallOf.map
      rw [(withCopies_call (hparts q hq).1).2]
      show (⟨_, _, ((s.calls.get q).arguments.map _).map _⟩ : Call)
        = ⟨_, _, ((s.calls.get q).arguments.map _).map _⟩
      rw [List.map_map, List.map_map]
      exact congrArg (CallOf.mk _ _)
        (List.map_congr_left fun a ha => (withCopies_argument ((hparts q hq).2 a ha)).2)
  · cases h

/-- A definition that refers to nothing can be copied. -/
theorem canCopy_of_isClosed (h : (s.held b).IsClosed) : s.CanCopy b := by
  -- Nothing is reached but the definition, its calls and their arguments.
  have hkinds : ∀ y ∈ s.reachable b, y = refNode .definition b ∨
      ∃ q ∈ (s.definitions.get b).parts, y = refNode .call q ∨
        ∃ a ∈ (s.calls.get q).arguments, y = refNode .argument a := by
    refine reachedIn_induction (fun y hy z hz => ?_) _ fun y hy => Or.inl (List.mem_singleton.mp hy)
    rcases hy with rfl | ⟨q, hq, rfl | ⟨a, ha, rfl⟩⟩
    · obtain ⟨q, hq, rfl⟩ := List.mem_map.mp hz
      exact Or.inr ⟨q, hq, Or.inl rfl⟩
    · obtain ⟨a, ha, rfl⟩ := List.mem_map.mp hz
      exact Or.inr ⟨q, hq, Or.inr ⟨a, ha, rfl⟩⟩
    · -- An argument refers to nothing.
      have hnodes : Value.entryNodes (s.arguments.get a).properties = [] := by
        refine h _ (List.mem_flatMap.mpr ⟨s.heldCall q, ?_, List.mem_map_of_mem ha⟩)
        show _ ∈ (s.held b).parts
        unfold held
        rw [DefinitionOf.parts_map]
        exact List.mem_map_of_mem hq
      have hz' : z ∈ Value.entryNodes (s.arguments.get a).properties := hz
      rw [hnodes] at hz'
      cases hz'
  intro n hn
  rcases hkinds _ hn with h | ⟨q, -, h | ⟨a, -, h⟩⟩ <;> cases h

end Store

end Wiring
