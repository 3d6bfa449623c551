import Wiring.Proofs.Extending
import Wiring.Proofs.Placing

/-!
# `Wiring.Proofs.Separating`: definitions that share nothing

A definition is made of other things: its calls, their arguments, and the lists and mappings among
their properties. All of them are known by reference, and a change of one of them shows wherever it
is reached from. `Store.Parted` says of two collections of definitions that nothing is reached from
both, so that no change on the one side shows on the other.

`Edit` lists the changes. What an edit names is what it changes and what it puts in
(`touches_edit`). As long as it names nothing of the other side, the sides stay parted and the other
side is as it was: `Parted.touched` is the step and `Parted.edited` is the induction over all later
changes.
-/

set_option autoImplicit false

namespace Wiring

namespace Store

variable {s t u : Store} {y z w : Node}

/-! ### Ways through a store -/

/-- One thing leads to another by references. -/
def Reaches (s : Store) (y z : Node) : Prop := ∃ n, s.Leads n y z

theorem Reaches.refl (s : Store) (y : Node) : s.Reaches y y := ⟨0, .here y⟩

theorem Reaches.head (hz : z ∈ s.nodesOf y) (h : s.Reaches z w) : s.Reaches y w := by
  obtain ⟨n, h⟩ := h
  exact ⟨n + 1, .next hz h⟩

theorem Reaches.of_mem (h : z ∈ s.nodesOf y) : s.Reaches y z := .head h (.refl s z)

/-- What passes along references passes along ways. -/
theorem Reaches.passes {P : Node → Prop} (h : s.Reaches y z)
    (hP : ∀ y, P y → ∀ z ∈ s.nodesOf y, P z) (hy : P y) : P z := by
  obtain ⟨n, h⟩ := h
  induction h with
  | here => exact hy
  | next hmem _ ih => exact ih (hP _ hy _ hmem)

theorem Reaches.trans (h : s.Reaches y z) (h' : s.Reaches z w) : s.Reaches y w := by
  obtain ⟨n, h⟩ := h
  induction h with
  | here => exact h'
  | next hmem _ ih => exact .head hmem (ih h')

/-- What can be reached from some definitions. -/
def Within (s : Store) (A : Ref DefinitionCell → Prop) (z : Node) : Prop :=
  ∃ a, A a ∧ s.Reaches (refNode .definition a) z

variable {A B : Ref DefinitionCell → Prop}

theorem within_self {a : Ref DefinitionCell} (ha : A a) : s.Within A (refNode .definition a) :=
  ⟨a, ha, .refl s _⟩

theorem Within.next (h : s.Within A y) (hz : z ∈ s.nodesOf y) : s.Within A z := by
  obtain ⟨a, ha, hy⟩ := h
  exact ⟨a, ha, hy.trans (.of_mem hz)⟩

/-! ### What is declared -/

/-- What the items or the values of a collection refer to. -/
def collectionNodes : Collection → List Node
  | .list items => Value.itemNodes items
  | .map entries => Value.entryNodes entries

theorem nodesOf_collection {n : Nat} {c : Collection} (h : s.collections[n]? = some c) :
    s.nodesOf (.collection n) = collectionNodes c := by
  simp only [nodesOf, h]
  cases c <;> rfl

/-- The thing is an argument, a call, a definition or a collection, and it is there. -/
def Has (s : Store) : Node → Prop
  | .collection n => n < s.collections.length
  | .object _ => False
  | .component c =>
    match c.kind with
    | .argument => s.arguments.Holds ⟨c.id⟩
    | .call => s.calls.Holds ⟨c.id⟩
    | .definition => s.definitions.Holds ⟨c.id⟩
    | _ => False

/-- What is there is one of four kinds of things. -/
@[elab_as_elim]
theorem Has.cases {motive : ∀ z, s.Has z → Prop}
    (collection : ∀ n (hn : n < s.collections.length), motive (.collection n) hn)
    (argument : ∀ (a : Ref Argument) (ha : s.arguments.Holds a), motive (refNode .argument a) ha)
    (call : ∀ (q : Ref CallCell) (hq : s.calls.Holds q), motive (refNode .call q) hq)
    (definition : ∀ (d : Ref DefinitionCell) (hd : s.definitions.Holds d),
      motive (refNode .definition d) hd)
    (z : Node) (h : s.Has z) : motive z h := by
  cases z with
  | collection n => exact collection n h
  | object id => exact h.elim
  | component c =>
    obtain ⟨kind, id⟩ := c
    cases kind with
    | argument => exact argument ⟨id⟩ h
    | call => exact call ⟨id⟩ h
    | definition => exact definition ⟨id⟩ h
    | _ => exact h.elim

/-- The thing is an argument, a call, a definition or a collection, and both stores hold the same
there. -/
def Same (s t : Store) : Node → Prop
  | .collection n => t.collections[n]? = s.collections[n]?
  | .object _ => False
  | .component c =>
    match c.kind with
    | .argument => t.arguments.get ⟨c.id⟩ = s.arguments.get ⟨c.id⟩
    | .call => t.calls.get ⟨c.id⟩ = s.calls.get ⟨c.id⟩
    | .definition => t.definitions.get ⟨c.id⟩ = s.definitions.get ⟨c.id⟩
    | _ => False

/-- What is there is the same as itself. -/
theorem Same.refl (hz : s.Has z) : Same s s z := by
  cases z, hz using Has.cases <;> rfl

theorem Same.trans (h : Same s t z) (h' : Same t u z) : Same s u z := by
  cases z with
  | collection n => exact Eq.trans h' h
  | object id => exact h.elim
  | component c =>
    obtain ⟨kind, id⟩ := c
    cases kind with
    | argument | call | definition => exact Eq.trans h' h
    | _ => exact h.elim

/-- What is the same refers to the same. -/
theorem Same.nodesOf (h : Same s t z) : t.nodesOf z = s.nodesOf z := by
  cases z with
  | collection n =>
    have hget : t.collections[n]? = s.collections[n]? := h
    simp only [Store.nodesOf, hget]
  | object id => exact h.elim
  | component c =>
    obtain ⟨kind, id⟩ := c
    cases kind with
    | argument =>
      have hget : t.arguments.get ⟨id⟩ = s.arguments.get ⟨id⟩ := h
      simp only [Store.nodesOf, componentNodes, hget]
    | call =>
      have hget : t.calls.get ⟨id⟩ = s.calls.get ⟨id⟩ := h
      simp only [Store.nodesOf, componentNodes, hget]
    | definition =>
      have hget : t.definitions.get ⟨id⟩ = s.definitions.get ⟨id⟩ := h
      simp only [Store.nodesOf, componentNodes, hget]
    | _ => exact h.elim

/-! ### Changes of some things -/

section Cells

variable {α : Type} [Inhabited α] {kind : ComponentKind} {nodes : α → List Node}
  {names : List Node} {c c' c'' : Cells α}

/-- Cells were only added, apart from the named ones, and nothing refers to more than before but to
named things. -/
def CellsTouched (kind : ComponentKind) (nodes : α → List Node) (names : List Node)
    (c c' : Cells α) : Prop :=
  ∀ r, c.Holds r → c'.Holds r ∧ (refNode kind r ∉ names → c'.get r = c.get r) ∧
    ∀ w ∈ nodes (c'.get r), w ∈ nodes (c.get r) ∨ w ∈ names

theorem cellsTouched_of_extends (h : c.Extends c') : CellsTouched kind nodes names c c' :=
  fun _ hr => ⟨h.holds hr, fun _ => h.get hr, fun _ hw => .inl (h.get hr ▸ hw)⟩

theorem cellsTouched_refl (c : Cells α) : CellsTouched kind nodes names c c :=
  cellsTouched_of_extends (.refl c)

theorem CellsTouched.trans (h : CellsTouched kind nodes names c c')
    (h' : CellsTouched kind nodes names c' c'') : CellsTouched kind nodes names c c'' := by
  intro r hr
  obtain ⟨hr', hsame, hnodes⟩ := h r hr
  obtain ⟨hr'', hsame', hnodes'⟩ := h' r hr'
  refine ⟨hr'', fun hnew => (hsame' hnew).trans (hsame hnew), fun w hw => ?_⟩
  rcases hnodes' w hw with hw | hw
  · exact hnodes w hw
  · exact .inr hw

/-- A named cell may be changed. -/
theorem cellsTouched_modify {r : Ref α} {f : α → α} (hr : refNode kind r ∈ names)
    (hf : ∀ w ∈ nodes (f (c.get r)), w ∈ nodes (c.get r) ∨ w ∈ names) :
    CellsTouched kind nodes names c (c.modify r f) := by
  intro q hq
  refine ⟨Cells.holds_modify.mpr hq, fun hnew => ?_, fun w hw => ?_⟩
  · have hne : q ≠ r := by
      rintro rfl
      exact hnew hr
    exact Cells.get_modify_of_ne hne f
  · rw [Cells.get_modify hq] at hw
    split at hw
    · rename_i he
      rw [he] at hw ⊢
      exact hf w hw
    · exact .inl hw

end Cells

/-- Of what was declared before, only the named things were changed, and nothing refers to more than
before but to named things. -/
structure Touches (names : List Node) (s t : Store) : Prop where
  arguments : CellsTouched .argument (fun a : Argument => Value.entryNodes a.properties) names
    s.arguments t.arguments
  calls : CellsTouched .call (fun c : CallCell => refNodes .argument c.arguments) names
    s.calls t.calls
  definitions : CellsTouched .definition (fun d : DefinitionCell => refNodes .call d.parts) names
    s.definitions t.definitions
  collection : ∀ n c, s.collections[n]? = some c → ∃ c', t.collections[n]? = some c' ∧
    (.collection n ∉ names → c' = c) ∧
    ∀ w ∈ collectionNodes c', w ∈ collectionNodes c ∨ w ∈ names

variable {names : List Node}

theorem touches_of_grown (h : Grown s t) : Touches names s t where
  arguments := cellsTouched_of_extends h.arguments
  calls := cellsTouched_of_extends h.calls
  definitions := cellsTouched_of_extends h.definitions
  collection _ c hc := ⟨c, getElem?_of_prefix h.collections hc, fun _ => rfl, fun _ => .inl⟩

theorem touches_refl (s : Store) : Touches names s s := touches_of_grown (.refl s)

theorem Touches.trans (h : Touches names s t) (h' : Touches names t u) : Touches names s u where
  arguments := h.arguments.trans h'.arguments
  calls := h.calls.trans h'.calls
  definitions := h.definitions.trans h'.definitions
  collection n c hc := by
    obtain ⟨c', hc', hsame, hnodes⟩ := h.collection n c hc
    obtain ⟨c'', hc'', hsame', hnodes'⟩ := h'.collection n c' hc'
    refine ⟨c'', hc'', fun hnew => (hsame' hnew).trans (hsame hnew), fun w hw => ?_⟩
    rcases hnodes' w hw with hw | hw
    · exact hnodes w hw
    · exact .inr hw

/-- What was there is there. -/
theorem Touches.has (h : Touches names s t) (hz : s.Has z) : t.Has z := by
  cases z, hz using Has.cases with
  | collection n hn =>
    obtain ⟨c, hc, -⟩ := h.collection n _ (List.getElem?_eq_getElem hn)
    exact (List.getElem?_eq_some_iff.mp hc).1
  | argument a ha => exact (h.arguments a ha).1
  | call q hq => exact (h.calls q hq).1
  | definition d hd => exact (h.definitions d hd).1

/-- What is not named is the same. -/
theorem Touches.same (h : Touches names s t) (hz : s.Has z) (hnew : z ∉ names) : Same s t z := by
  cases z, hz using Has.cases with
  | collection n hn =>
    obtain ⟨c, hc, hsame, -⟩ := h.collection n _ (List.getElem?_eq_getElem hn)
    show t.collections[n]? = s.collections[n]?
    rw [hc, hsame hnew, List.getElem?_eq_getElem hn]
  | argument a ha => exact (h.arguments a ha).2.1 hnew
  | call q hq => exact (h.calls q hq).2.1 hnew
  | definition d hd => exact (h.definitions d hd).2.1 hnew

/-- Nothing refers to more than before but to named things. -/
theorem Touches.nodes (h : Touches names s t) (hz : s.Has z) (hw : w ∈ t.nodesOf z) :
    w ∈ s.nodesOf z ∨ w ∈ names := by
  cases z, hz using Has.cases with
  | collection n hn =>
    have hc := List.getElem?_eq_getElem hn
    obtain ⟨c, hc', -, hnodes⟩ := h.collection n _ hc
    rw [nodesOf_collection hc'] at hw
    rw [nodesOf_collection hc]
    exact hnodes w hw
  | argument a ha => exact (h.arguments a ha).2.2 w hw
  | call q hq => exact (h.calls q hq).2.2 w hw
  | definition d hd => exact (h.definitions d hd).2.2 w hw

/-! ### Two sides -/

/-- All that a thing leads to is there, and nothing of it is within some definitions. -/
def Clear (s : Store) (B : Ref DefinitionCell → Prop) (y : Node) : Prop :=
  ∀ z, s.Reaches y z → s.Has z ∧ ¬ s.Within B z

theorem Clear.next (h : s.Clear B y) (hz : z ∈ s.nodesOf y) : s.Clear B z :=
  fun w hw => h w (.head hz hw)

/-- Nothing can be reached from both of two collections of definitions, and all that can be reached
from them is there. -/
structure Parted (s : Store) (A B : Ref DefinitionCell → Prop) : Prop where
  left : ∀ z, s.Within A z → s.Has z
  right : ∀ z, s.Within B z → s.Has z
  apart : ∀ z, s.Within A z → ¬ s.Within B z

theorem Parted.symm (h : s.Parted A B) : s.Parted B A :=
  ⟨h.right, h.left, fun z hB hA => h.apart z hA hB⟩

/-- What is within the one side is clear of the other. -/
theorem Parted.clear (h : s.Parted A B) (hy : s.Within A y) : s.Clear B y := by
  intro z hz
  obtain ⟨a, ha, hy⟩ := hy
  have hwithin : s.Within A z := ⟨a, ha, hy.trans hz⟩
  exact ⟨h.left z hwithin, h.apart z hwithin⟩

/-- A change that names only what is of the one side, or clear of the other, leaves the other side
as it was, and the two sides apart. -/
theorem Parted.touched (h : s.Parted A B) (ht : Touches names s t)
    (hnames : ∀ y ∈ names, s.Within A y ∨ s.Clear B y) :
    t.Parted A B ∧ (∀ z, t.Within B z ↔ s.Within B z) ∧ ∀ z, s.Within B z → Same s t z := by
  have hclear : ∀ y ∈ names, s.Clear B y := fun y hy => (hnames y hy).elim h.clear id
  have hsame : ∀ z, s.Within B z → Same s t z := fun z hz =>
    ht.same (h.right z hz) fun hmem => (hclear z hmem z (.refl s z)).2 hz
  have hwithin : ∀ z, t.Within B z ↔ s.Within B z := by
    refine fun z => ⟨fun ⟨b, hb, hz⟩ => ?_, fun ⟨b, hb, hz⟩ => ?_⟩
    · refine hz.passes (fun y hy w hw => ?_) (within_self hb)
      rw [(hsame y hy).nodesOf] at hw
      exact hy.next hw
    · refine (hz.passes (P := fun y => s.Within B y ∧ t.Within B y) (fun y hy w hw => ?_)
        ⟨within_self hb, within_self hb⟩).2
      exact ⟨hy.1.next hw, hy.2.next ((hsame y hy.1).nodesOf ▸ hw)⟩
  -- What is clear of the other side leads to nothing that is not.
  have hleft : ∀ z, t.Within A z → s.Clear B z := by
    rintro z ⟨a, ha, hz⟩
    refine hz.passes (fun y hy w hw => ?_) (h.clear (within_self ha))
    rcases ht.nodes (hy y (.refl s y)).1 hw with hw | hw
    · exact hy.next hw
    · exact hclear w hw
  refine ⟨⟨fun z hz => ?_, fun z hz => ?_, fun z hz hB => ?_⟩, hwithin, hsame⟩
  · exact ht.has (hleft z hz z (.refl s z)).1
  · exact ht.has (h.right z ((hwithin z).mp hz))
  · exact (hleft z hz z (.refl s z)).2 ((hwithin z).mp hB)

end Store

/-! ### Edits -/

/-- A change of a declaration, or of a list or a mapping among its properties. -/
inductive Edit where
  | className (d : Ref DefinitionCell) (v : Value)
  | identifier (d : Ref DefinitionCell) (v : Value)
  | interfaces (d : Ref DefinitionCell) (v : Value)
  | addCall (d : Ref DefinitionCell) (c : Ref CallCell)
  | addArgument (c : Ref CallCell) (a : Ref Argument)
  | property (a : Ref Argument) (name value : Value)
  /-- A write into a mapping. -/
  | entry (place : Nat) (key value : Value)
  /-- Any change of a mapping, as the entries that it has then. -/
  | entries (place : Nat) (es : List (Value × Value))
  /-- Any change of a list, as the items that it has then. -/
  | items (place : Nat) (vs : List Value)

namespace Edit

open Store

/-- Makes the change. -/
def run : Edit → Action Unit
  | .className d v => setClassName d v
  | .identifier d v => setIdentifier d v
  | .interfaces d v => setInterfaces d v
  | .addCall d c => Store.addCall d c
  | .addArgument c a => Store.addArgument c a
  | .property a n v => setProperty a n v
  | .entry place k v => putEntry place k v
  | .entries place es => changeEntries place fun _ => es
  | .items place vs => changeItems place fun _ => vs

/-- What is changed, and what the change puts in. A call that is added may get an identifier, so it
is changed too. -/
def names : Edit → List Node
  | .className d _ | .identifier d _ | .interfaces d _ => [refNode .definition d]
  | .addCall d c => [refNode .definition d, refNode .call c]
  | .addArgument c a => [refNode .call c, refNode .argument a]
  | .property a _ v => refNode .argument a :: v.nodes
  | .entry place _ v => .collection place :: v.nodes
  | .entries place es => .collection place :: Value.entryNodes es
  | .items place vs => .collection place :: Value.itemNodes vs

/-- The store after the change, whether it is accepted or not. -/
def after (s : Store) (e : Edit) : Store := (ExceptT.run e.run s).2

end Edit

/-- An entry that is written refers to what its value refers to. -/
theorem Value.entryNodes_put {key value : Value} {entries : List (Value × Value)} {w : Node}
    (h : w ∈ entryNodes (put key value entries)) : w ∈ entryNodes entries ∨ w ∈ value.nodes := by
  induction entries with
  | nil => simpa [put, entryNodes] using h
  | cons e rest ih =>
    obtain ⟨k, v⟩ := e
    rw [put] at h
    split at h
    · rw [entryNodes, List.mem_append] at h ⊢
      exact h.elim .inr fun h => .inl (.inr h)
    · rw [entryNodes, List.mem_append] at h ⊢
      rcases h with h | h
      · exact .inl (.inl h)
      · exact (ih h).imp_left .inr

namespace Store

variable {s t u : Store} {names : List Node} {A B : Ref DefinitionCell → Prop}

/-- What is checked first changes nothing. -/
theorem touches_checked {α : Type} {x : Except Fault α} {f : α → Action Unit}
    (hf : ∀ a, Touches names s (ExceptT.run (f a) s).2) :
    Touches names s (ExceptT.run (Work.lift x >>= f) s).2 := by
  cases x with
  | ok a =>
    rw [Work.run_bind_ok (Work.run_lift _ s)]
    exact hf a
  | error e =>
    rw [Work.run_bind_error (Work.run_lift _ s)]
    exact touches_refl s

/-- A named definition may be changed. -/
theorem touches_definition {d : Ref DefinitionCell} {f : DefinitionCell → DefinitionCell}
    (hd : refNode .definition d ∈ names)
    (hf : ∀ w ∈ refNodes .call (f (s.definitions.get d)).parts,
      w ∈ refNodes .call (s.definitions.get d).parts ∨ w ∈ names) :
    Touches names s { s with definitions := s.definitions.modify d f } where
  arguments := cellsTouched_refl _
  calls := cellsTouched_refl _
  definitions := cellsTouched_modify hd hf
  collection _ c hc := ⟨c, hc, fun _ => rfl, fun _ => .inl⟩

/-- A named call may be changed. -/
theorem touches_call {c : Ref CallCell} {f : CallCell → CallCell} (hc : refNode .call c ∈ names)
    (hf : ∀ w ∈ refNodes .argument (f (s.calls.get c)).arguments,
      w ∈ refNodes .argument (s.calls.get c).arguments ∨ w ∈ names) :
    Touches names s { s with calls := s.calls.modify c f } where
  arguments := cellsTouched_refl _
  calls := cellsTouched_modify hc hf
  definitions := cellsTouched_refl _
  collection _ c hc := ⟨c, hc, fun _ => rfl, fun _ => .inl⟩

/-- A named collection may be changed. -/
theorem touches_amend {place : Nat} {f : Collection → Collection}
    (hplace : .collection place ∈ names)
    (hf : ∀ c, ∀ w ∈ collectionNodes (f c), w ∈ collectionNodes c ∨ w ∈ names) :
    Touches names s { s with collections := s.collections.modify place f } where
  arguments := cellsTouched_refl _
  calls := cellsTouched_refl _
  definitions := cellsTouched_refl _
  collection n c hc := by
    rw [List.getElem?_modify, hc]
    by_cases hn : place = n
    · subst hn
      exact ⟨f c, by simp, fun hnew => absurd hplace hnew, hf c⟩
    · exact ⟨c, by simp [hn], fun _ => rfl, fun _ => .inl⟩

/-- An edit changes and refers to nothing but what it names. -/
theorem touches_edit (s : Store) (e : Edit) : Touches e.names s (e.after s) := by
  cases e with
  | className d v =>
    exact touches_checked fun n => touches_definition (List.mem_singleton.mpr rfl) fun _ => .inl
  | identifier d v =>
    show Touches _ s (ExceptT.run (setIdentifier d v) s).2
    unfold setIdentifier
    rw [Work.run_bind_ok (run_read d s)]
    exact touches_checked fun i => touches_definition (List.mem_singleton.mpr rfl) fun _ => .inl
  | interfaces d v =>
    show Touches _ s (ExceptT.run (setInterfaces d v) s).2
    unfold setInterfaces
    rw [Work.run_bind_ok (run_read d s)]
    exact touches_checked fun i => touches_definition (List.mem_singleton.mpr rfl) fun _ => .inl
  | addCall d c =>
    have hkeep : ∀ place : CallPlace, ∀ x : DefinitionCell,
        ∀ w ∈ refNodes .call (x.keep place c).parts, w ∈ refNodes .call x.parts ∨
          w ∈ (Edit.addCall d c).names := by
      intro place x w hw
      obtain ⟨q, hq, rfl⟩ := List.mem_map.mp hw
      rcases DefinitionOf.mem_parts_keep hq with rfl | hq
      · exact .inr (List.mem_cons_of_mem _ (List.mem_singleton.mpr rfl))
      · exact .inl (List.mem_map_of_mem hq)
    show Touches _ s (ExceptT.run (Store.addCall d c) s).2
    unfold addCall
    rw [Work.run_bind_ok (run_read d s), Work.run_bind_ok (run_read c s)]
    dsimp only
    split
    · exact touches_definition List.mem_cons_self (hkeep _ _)
    · exact .trans (touches_call (List.mem_cons_of_mem _ (List.mem_singleton.mpr rfl)) fun _ => .inl)
        (touches_definition List.mem_cons_self (hkeep _ _))
  | addArgument c a =>
    refine touches_call List.mem_cons_self fun w hw => ?_
    unfold refNodes CallOf.addArgument at hw
    rw [List.map_append, List.mem_append] at hw
    exact hw.imp_right fun h => List.mem_cons_of_mem _ h
  | property a n v =>
    show Touches _ s (ExceptT.run (setProperty a n v) s).2
    unfold setProperty
    split
    · exact {
        arguments := cellsTouched_modify List.mem_cons_self fun w hw =>
          (Value.entryNodes_put hw).imp_right fun h => List.mem_cons_of_mem _ h
        calls := cellsTouched_refl _
        definitions := cellsTouched_refl _
        collection := fun _ c hc => ⟨c, hc, fun _ => rfl, fun _ => .inl⟩ }
    · exact touches_refl s
  | entry place k v =>
    refine touches_amend List.mem_cons_self fun c w hw => ?_
    cases c with
    | list items => exact .inl hw
    | map es => exact (Value.entryNodes_put hw).imp_right fun h => List.mem_cons_of_mem _ h
  | entries place es =>
    refine touches_amend List.mem_cons_self fun c w hw => ?_
    cases c with
    | list items => exact .inl hw
    | map es => exact .inr (List.mem_cons_of_mem _ hw)
  | items place vs =>
    refine touches_amend List.mem_cons_self fun c w hw => ?_
    cases c with
    | list items => exact .inr (List.mem_cons_of_mem _ hw)
    | map es => exact .inl hw

/-! ### Series of edits -/

/-- What edits on the side of some definitions make of a store. Each of them names what can be
reached from these definitions, or what leads to nothing of the others. Between the edits anything
may be made, and all but the declarations may change in any way. -/
inductive Edited (A B : Ref DefinitionCell → Prop) (s : Store) : Store → Prop
  | refl : Edited A B s s
  | edit {t : Store} (h : Edited A B s t) (e : Edit)
    (he : ∀ y ∈ e.names, t.Within A y ∨ t.Clear B y) : Edited A B s (e.after t)
  | grown {t u : Store} (h : Edited A B s t) (hg : Grown t u) : Edited A B s u

/-- However the one side is edited, the other side is as it was, and the two sides share nothing. -/
theorem Parted.edited (h : s.Parted A B) (he : Edited A B s t) :
    t.Parted A B ∧ (∀ z, t.Within B z ↔ s.Within B z) ∧ ∀ z, s.Within B z → Same s t z := by
  have hstep : ∀ {names : List Node} {t u : Store}, Touches names t u →
      (∀ y ∈ names, t.Within A y ∨ t.Clear B y) →
      (t.Parted A B ∧ (∀ z, t.Within B z ↔ s.Within B z) ∧ ∀ z, s.Within B z → Same s t z) →
      u.Parted A B ∧ (∀ z, u.Within B z ↔ s.Within B z) ∧ ∀ z, s.Within B z → Same s u z := by
    rintro names t u ht hnames ⟨hparted, hwithin, hsame⟩
    obtain ⟨hparted', hwithin', hsame'⟩ := hparted.touched ht hnames
    exact ⟨hparted', fun z => (hwithin' z).trans (hwithin z),
      fun z hz => (hsame z hz).trans (hsame' z ((hwithin z).mpr hz))⟩
  induction he with
  | refl => exact ⟨h, fun _ => .rfl, fun z hz => .refl (h.right z hz)⟩
  | edit _ e hnames ih => exact hstep (touches_edit _ e) hnames ih
  | grown _ hg ih =>
    have htouches : Touches [] _ _ := touches_of_grown hg
    exact hstep htouches nofun ih

/-- Whatever is edited, what was there is there. -/
theorem Edited.has (h : Edited A B s t) {z : Node} (hz : s.Has z) : t.Has z := by
  induction h with
  | refl => exact hz
  | edit _ e _ ih => exact (touches_edit _ e).has ih
  | grown _ hg ih =>
    have htouches : Touches [] _ _ := touches_of_grown hg
    exact htouches.has ih

end Store

end Wiring
