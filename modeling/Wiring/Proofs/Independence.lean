import Wiring.Proofs.Separating

/-!
# `Wiring.Proofs.Independence`: a copy and what it is a copy of

A copy of a definition takes along all that can be reached from it. If that is plain data, the copy
shows what the definition shows, up to places, and nothing can be reached from both, so that the two
are parted from then on (`copy_plain`). `copies_are_independent` says what follows for copies and for
extended definitions: whatever is done to the copy, the base and all other definitions stay what
they were, and whatever is done to these, the copy stays what it was.

What a value shows is read down to a depth that grows with the store, through collections that may
hold each other. `PlainRegion.lookAt_eq` says that the depth does not matter, since a place that is
met again inside of itself is not entered again. So what is done elsewhere does not show.

The changes must not put a part of the one side into the other. A call of the base that is added to
the copy belongs to both, and a change of it shows in both (`extend_shares_added_call`).
-/

set_option autoImplicit false

namespace Wiring

/-! ### Plain data in the store -/

/-- The items of a list, or the values of a mapping. -/
def Collection.values : Collection → List Value
  | .list items => items
  | .map entries => entries.map Prod.snd

theorem Value.mem_itemNodes {items : List Value} {v : Value} {w : Node} (hv : v ∈ items)
    (hw : w ∈ v.nodes) : w ∈ itemNodes items := by
  induction items with
  | nil => cases hv
  | cons first rest ih =>
    rcases List.mem_cons.mp hv with rfl | hv
    · exact List.mem_append_left _ hw
    · exact List.mem_append_right _ (ih hv)

theorem Value.mem_entryNodes {entries : List (Value × Value)} {e : Value × Value} {w : Node}
    (he : e ∈ entries) (hw : w ∈ e.2.nodes) : w ∈ entryNodes entries := by
  induction entries with
  | nil => cases he
  | cons first rest ih =>
    rcases List.mem_cons.mp he with rfl | he
    · exact List.mem_append_left _ hw
    · exact List.mem_append_right _ (ih he)

namespace Store

variable {s t u : Store} {Q : Node → Prop}

/-- The value is plain data: it refers to nothing, or it is a list or a mapping with a place, and
such a one stands there. What it held when it was last looked at does not matter. -/
inductive Plain (s : Store) : Value → Prop
  | closed {v : Value} (h : v.nodes = []) : Plain s v
  | list {p : Nat} {items : List Value} (old : List Value)
    (h : s.collections[p]? = some (.list items)) : Plain s (.list (some p) old)
  | map {p : Nat} {entries : List (Value × Value)} (old : List (Value × Value))
    (h : s.collections[p]? = some (.map entries)) : Plain s (.map (some p) old)

/-- The thing is a definition or a call, or an argument or a collection of plain data, and it is
there. -/
def PlainNode (s : Store) : Node → Prop
  | .collection p => ∃ c, s.collections[p]? = some c ∧ ∀ v ∈ c.values, s.Plain v
  | .object _ => False
  | .component c =>
    match c.kind with
    | .argument => s.arguments.Holds ⟨c.id⟩ ∧
        ∀ e ∈ (s.arguments.get ⟨c.id⟩).properties, s.Plain e.2
    | .call => s.calls.Holds ⟨c.id⟩
    | .definition => s.definitions.Holds ⟨c.id⟩
    | _ => False

/-- The definition is there with all that can be reached from it, and its properties are plain
data. -/
def PlainDefinition (s : Store) (d : Ref DefinitionCell) : Prop :=
  ∀ z, s.Reaches (refNode .definition d) z → s.PlainNode z

/-- Some things are plain and refer to each other only. -/
structure PlainRegion (s : Store) (Q : Node → Prop) : Prop where
  plain : ∀ z, Q z → s.PlainNode z
  next : ∀ y, Q y → ∀ z ∈ s.nodesOf y, Q z

theorem PlainNode.has {z : Node} (h : s.PlainNode z) : s.Has z := by
  cases z with
  | collection p =>
    obtain ⟨c, hc, -⟩ := h
    exact (List.getElem?_eq_some_iff.mp hc).1
  | object id => exact h.elim
  | component c =>
    obtain ⟨kind, id⟩ := c
    cases kind with
    | argument => exact h.1
    | call | definition => exact h
    | _ => exact h.elim

theorem PlainDefinition.region {d : Ref DefinitionCell} (h : s.PlainDefinition d) :
    s.PlainRegion (s.Reaches (refNode .definition d)) :=
  ⟨h, fun _ hy _ hz => hy.trans (.of_mem hz)⟩

/-- A definition of a region is plain. -/
theorem PlainRegion.definition (h : s.PlainRegion Q) {d : Ref DefinitionCell}
    (hd : Q (refNode .definition d)) : s.PlainDefinition d :=
  fun z hz => h.plain z (hz.passes h.next hd)

/-- What stands in a collection of a region is plain and refers to things of the region. -/
theorem PlainRegion.item (h : s.PlainRegion Q) {p : Nat} {c : Collection} (hp : Q (.collection p))
    (hc : s.collections[p]? = some c) {v : Value} (hv : v ∈ c.values) :
    s.Plain v ∧ ∀ w ∈ v.nodes, Q w := by
  obtain ⟨c', hc', hplain⟩ := h.plain _ hp
  obtain rfl := Option.some.inj (hc.symm.trans hc')
  refine ⟨hplain v hv, fun w hw => h.next _ hp w ?_⟩
  rw [nodesOf_collection hc]
  cases c with
  | list items => exact Value.mem_itemNodes hv hw
  | map entries =>
    obtain ⟨e, he, rfl⟩ := List.mem_map.mp hv
    exact Value.mem_entryNodes he hw

/-- What an argument of a region has for properties is plain and refers to things of the region. -/
theorem PlainRegion.property (h : s.PlainRegion Q) {a : Ref Argument}
    (ha : Q (refNode .argument a)) {e : Value × Value} (he : e ∈ (s.arguments.get a).properties) :
    s.Plain e.2 ∧ ∀ w ∈ e.2.nodes, Q w :=
  ⟨(h.plain _ ha).2 e he, fun w hw => h.next _ ha w (Value.mem_entryNodes he hw)⟩

/-! ### What plain data shows -/

/-- A value that refers to nothing looks as it is. -/
theorem lookAt_closed (n : Nat) : ∀ {way : List Nat} {around : List Component} {v : Value},
    v.nodes = [] → s.lookAt n way around v = v := by
  induction n with
  | zero => exact fun _ => rfl
  | succ n ih =>
    intro way around v hv
    cases v with
    | list p items =>
      cases p with
      | some p => cases hv
      | none =>
        have hnone : Value.itemNodes items = [] := hv
        have hlook : items.map (s.lookAt n ([] ++ way) around) = items.map id :=
          List.map_congr_left fun v hmem => ih <| List.eq_nil_iff_forall_not_mem.mpr fun w hw =>
            List.not_mem_nil (hnone ▸ Value.mem_itemNodes hmem hw)
        rw [List.map_id] at hlook
        exact congrArg (Value.list none) hlook
    | map p entries =>
      cases p with
      | some p => cases hv
      | none =>
        have hnone : Value.entryNodes entries = [] := hv
        have hlook : entries.map (fun e => (e.1, s.lookAt n ([] ++ way) around e.2))
            = entries.map id :=
          List.map_congr_left fun e hmem => congrArg (Prod.mk e.1) <| ih <|
            List.eq_nil_iff_forall_not_mem.mpr fun w hw =>
              List.not_mem_nil (hnone ▸ Value.mem_entryNodes hmem hw)
        rw [List.map_id] at hlook
        exact congrArg (Value.map none) hlook
    | object id | component c parts => cases hv
    | _ => rfl

/-- Places on a way are no more than there are collections. -/
theorem length_le_of_nodup {way : List Nat} {n : Nat} (hnodup : way.Nodup)
    (hlt : ∀ p ∈ way, p < n) : way.length ≤ n := by
  have hsub : way ⊆ List.range n := fun p hp => List.mem_range.mpr (hlt p hp)
  simpa using (List.subperm_of_subset hnodup hsub).length_le

/-- In two stores that hold the same collections in a region, a plain value of the region looks the
same. The depths do not matter as soon as they leave room for every place once: a place that is met
again is not entered again. -/
theorem PlainRegion.lookAt_eq (h : s.PlainRegion Q)
    (hsame : ∀ p, Q (.collection p) → t.collections[p]? = s.collections[p]?) (n : Nat) :
    ∀ {m : Nat} {way : List Nat} {around : List Component} {v : Value}, s.Plain v →
      (∀ w ∈ v.nodes, Q w) → way.Nodup → (∀ p ∈ way, p < s.collections.length) →
      s.collections.length < n + way.length → s.collections.length < m + way.length →
      t.lookAt n way around v = s.lookAt m way around v := by
  induction n with
  | zero =>
    intro m way around v _ _ hnodup hlt hn _
    exact absurd (length_le_of_nodup hnodup hlt) (by omega)
  | succ n ih =>
    intro m way around v hv hQ hnodup hlt hn hm
    cases m with
    | zero => exact absurd (length_le_of_nodup hnodup hlt) (by omega)
    | succ m =>
      -- One level below, the way is longer by a place that was not on it.
      have hbelow : ∀ {p : Nat} {c : Collection}, Q (.collection p) →
          s.collections[p]? = some c → ¬ onTheWay way (some p) = true → ∀ v ∈ c.values,
            t.lookAt n (p :: way) around v = s.lookAt m (p :: way) around v := by
        intro p c hp hc hnew v hv
        have hlen : (p :: way).length = way.length + 1 := rfl
        refine ih (h.item hp hc hv).1 (h.item hp hc hv).2 (List.nodup_cons.mpr ⟨?_, hnodup⟩)
          (List.forall_mem_cons.mpr ⟨(List.getElem?_eq_some_iff.mp hc).1, hlt⟩) (by omega) (by omega)
        exact fun hmem => hnew (by simpa [onTheWay] using hmem)
      cases hv with
      | closed hclosed => rw [lookAt_closed _ hclosed, lookAt_closed _ hclosed]
      | list old hp =>
        rename_i p items
        have hmem : Q (.collection p) := hQ _ (List.mem_singleton.mpr rfl)
        simp only [lookAt, itemsAt, Option.bind_some, hp, (hsame p hmem).trans hp]
        split
        · rfl
        · exact congrArg _ (List.map_congr_left (hbelow hmem hp ‹_›))
      | map old hp =>
        rename_i p entries
        have hmem : Q (.collection p) := hQ _ (List.mem_singleton.mpr rfl)
        simp only [lookAt, entriesAt, Option.bind_some, hp, (hsame p hmem).trans hp]
        split
        · rfl
        · exact congrArg _ <| List.map_congr_left fun e he =>
            congrArg (Prod.mk e.1) (hbelow hmem hp ‹_› e.2 (List.mem_map_of_mem he))

theorem lt_nesting (s : Store) : s.collections.length < s.nesting := by
  unfold nesting
  omega

/-- A plain value of a region is shown as before if the collections of the region are as before and
none was removed. -/
theorem PlainRegion.current_congr (h : s.PlainRegion Q)
    (hsame : ∀ p, Q (.collection p) → t.collections[p]? = s.collections[p]?)
    (hlength : s.collections.length ≤ t.collections.length) {v : Value} (hv : s.Plain v)
    (hQ : ∀ w ∈ v.nodes, Q w) : t.current v = s.current v := by
  have ht := lt_nesting t
  exact h.lookAt_eq hsame _ hv hQ List.nodup_nil nofun (by simp; omega)
    (by simpa using lt_nesting s)

/-! ### Definitions that are unchanged -/

/-- Everything that can be reached from a definition is the same thing with the same in it, and the
definition, its calls and their arguments show what they showed. -/
structure Unchanged (s t : Store) (d : Ref DefinitionCell) : Prop where
  same : ∀ z, s.Reaches (refNode .definition d) z → Same s t z
  definition : t.definition d = s.definition d
  call : ∀ q ∈ (s.definitions.get d).parts, t.call q = s.call q ∧
    ∀ a ∈ (s.calls.get q).arguments, t.argument a = s.argument a

/-- An argument of a region shows the same if its cell and the collections of the region do. -/
theorem PlainRegion.argument_congr (h : s.PlainRegion Q)
    (hsame : ∀ p, Q (.collection p) → t.collections[p]? = s.collections[p]?)
    (hlength : s.collections.length ≤ t.collections.length) {a : Ref Argument}
    (ha : Q (refNode .argument a)) (hget : t.arguments.get a = s.arguments.get a) :
    t.argument a = s.argument a := by
  have hproperties : (s.arguments.get a).properties.map (fun e => (e.1, t.current e.2))
      = (s.arguments.get a).properties.map fun e => (e.1, s.current e.2) :=
    List.map_congr_left fun e he => congrArg (Prod.mk e.1)
      (h.current_congr hsame hlength (h.property ha he).1 (h.property ha he).2)
  unfold argument
  dsimp only
  rw [hget, hproperties]

theorem length_le_of_has (h : ∀ z, s.Has z → t.Has z) :
    s.collections.length ≤ t.collections.length := by
  cases hlength : s.collections.length with
  | zero => exact Nat.zero_le _
  | succ n =>
    have hn : s.Has (.collection n) := by
      show n < s.collections.length
      omega
    exact h _ hn

/-- A plain definition is unchanged if everything that it leads to is the same and nothing was
removed. -/
theorem PlainDefinition.unchanged {d : Ref DefinitionCell} (h : s.PlainDefinition d)
    (hsame : ∀ z, s.Reaches (refNode .definition d) z → Same s t z)
    (hhas : ∀ z, s.Has z → t.Has z) : s.Unchanged t d := by
  have hcalls : ∀ q ∈ (s.definitions.get d).parts, t.call q = s.call q ∧
      ∀ a ∈ (s.calls.get q).arguments, t.argument a = s.argument a := by
    intro q hq
    have hcall : s.Reaches (refNode .definition d) (refNode .call q) :=
      .of_mem (List.mem_map_of_mem hq)
    have hget : t.calls.get q = s.calls.get q := hsame _ hcall
    have harguments : ∀ a ∈ (s.calls.get q).arguments, t.argument a = s.argument a := by
      intro a ha
      have hargument : s.Reaches (refNode .definition d) (refNode .argument a) :=
        hcall.trans (.of_mem (List.mem_map_of_mem ha))
      exact h.region.argument_congr (fun p hp => hsame _ hp) (length_le_of_has hhas) hargument
        (hsame _ hargument)
    refine ⟨?_, harguments⟩
    unfold call CallOf.map
    rw [hget, List.map_congr_left harguments]
  have hget : t.definitions.get d = s.definitions.get d := hsame _ (.refl s _)
  refine ⟨hsame, ?_, hcalls⟩
  unfold definition
  rw [hget, DefinitionOf.map_congr fun q hq => (hcalls q hq).1]

/-- A plain value stays plain if the collections that it refers to stay. -/
theorem Plain.same {v : Value} (h : s.Plain v) (hsame : ∀ w ∈ v.nodes, Same s t w) : t.Plain v := by
  cases h with
  | closed h => exact .closed h
  | list old h => exact .list old (Eq.trans (hsame _ (List.mem_singleton.mpr rfl)) h)
  | map old h => exact .map old (Eq.trans (hsame _ (List.mem_singleton.mpr rfl)) h)

/-- A region stays plain if it stays the same. -/
theorem PlainRegion.same (h : s.PlainRegion Q) (hsame : ∀ z, Q z → Same s t z)
    (hhas : ∀ z, Q z → t.Has z) : t.PlainRegion Q where
  next y hy z hz := h.next y hy z ((hsame y hy).nodesOf ▸ hz)
  plain z hz := by
    have hthere := hhas z hz
    cases z, hthere using Has.cases with
    | collection p hp =>
      obtain ⟨c, hc, hplain⟩ := h.plain _ hz
      have hget : t.collections[p]? = s.collections[p]? := hsame _ hz
      exact ⟨c, hget.trans hc, fun v hv =>
        (hplain v hv).same fun w hw => hsame w ((h.item hz hc hv).2 w hw)⟩
    | argument a ha =>
      have hget : t.arguments.get a = s.arguments.get a := hsame _ hz
      refine ⟨ha, fun e he => ?_⟩
      have hproperty := h.property hz (hget ▸ he)
      exact hproperty.1.same fun w hw => hsame w (hproperty.2 w hw)
    | call q hq => exact hq
    | definition d hd => exact hd

/-! ### All that is reached -/

/-- Of the things that are declared there are no more than steps are made. -/
theorem length_le_reach {found : List Node} (hnodup : found.Nodup) (hhas : ∀ z ∈ found, s.Has z) :
    found.length ≤ s.reach := by
  let all : List Node := (List.range s.collections.length).map .collection ++
    ((List.range s.arguments.items.length).map (fun n => .component ⟨.argument, n⟩) ++
    ((List.range s.calls.items.length).map (fun n => .component ⟨.call, n⟩) ++
    (List.range s.definitions.items.length).map fun n => .component ⟨.definition, n⟩))
  have hsub : found ⊆ all := by
    intro z hz
    have hthere := hhas z hz
    cases z, hthere using Has.cases with
    | collection p hp =>
      exact List.mem_append_left _ (List.mem_map_of_mem (List.mem_range.mpr hp))
    | argument a ha =>
      exact List.mem_append_right _ (List.mem_append_left _
        (List.mem_map.mpr ⟨a.index, List.mem_range.mpr ha, rfl⟩))
    | call q hq =>
      exact List.mem_append_right _ (List.mem_append_right _ (List.mem_append_left _
        (List.mem_map.mpr ⟨q.index, List.mem_range.mpr hq, rfl⟩)))
    | definition d hd =>
      exact List.mem_append_right _ (List.mem_append_right _ (List.mem_append_right _
        (List.mem_map.mpr ⟨d.index, List.mem_range.mpr hd, rfl⟩)))
  have hlength := (List.subperm_of_subset hnodup hsub).length_le
  simp only [all, List.length_append, List.length_map, List.length_range] at hlength
  unfold reach
  omega

/-- With every step either something new is found, or all has been found. -/
theorem reachedIn_closed_or (n : Nat) : ∀ {found : List Node}, found.Nodup →
    (s.reachedIn n found).Nodup ∧
      ((∀ y ∈ s.reachedIn n found, ∀ z ∈ s.nodesOf y, z ∈ s.reachedIn n found) ∨
        found.length + n ≤ (s.reachedIn n found).length) := by
  induction n with
  | zero => exact fun h => ⟨h, .inr (Nat.le_refl _)⟩
  | succ n ih =>
    intro found hnodup
    have hmore : (found ++ found.flatMap s.nodesOf).eraseDups.Nodup := Container.nodup_eraseDups _
    have hsub : found ⊆ (found ++ found.flatMap s.nodesOf).eraseDups :=
      fun z hz => List.mem_eraseDups.mpr (List.mem_append_left _ hz)
    unfold reachedIn
    dsimp only
    split
    · rename_i hlength
      exact ⟨hnodup, .inl fun y hy z hz => mem_of_length_eq hnodup hlength hy hz⟩
    · rename_i hlength
      have hlt := (List.subperm_of_subset hnodup hsub).length_le
      obtain ⟨hnodup', hclosed | hlength'⟩ := ih hmore
      · exact ⟨hnodup', .inl hclosed⟩
      · exact ⟨hnodup', .inr (by omega)⟩

/-- What is reached from things that lead to plain things only is a plain region. -/
theorem plainRegion_reachedIn {start : List Node} (hnodup : start.Nodup)
    (h : ∀ y ∈ start, ∀ z, s.Reaches y z → s.PlainNode z) :
    s.PlainRegion (· ∈ s.reachedIn s.reach start) := by
  have hreaches : ∀ z ∈ s.reachedIn s.reach start, ∃ y ∈ start, s.Reaches y z := by
    refine reachedIn_induction ?_ _ fun z hz => ⟨z, hz, .refl s z⟩
    rintro y ⟨x, hx, hxy⟩ z hz
    exact ⟨x, hx, hxy.trans (.of_mem hz)⟩
  have hplain : ∀ z ∈ s.reachedIn s.reach start, s.PlainNode z := fun z hz => by
    obtain ⟨y, hy, hyz⟩ := hreaches z hz
    exact h y hy z hyz
  refine ⟨hplain, ?_⟩
  obtain ⟨hnodup', hclosed | hlength⟩ := reachedIn_closed_or (s := s) s.reach hnodup
  · exact hclosed
  · have hbound := length_le_reach hnodup' fun z hz => (hplain z hz).has
    have hnil : start = [] := List.eq_nil_of_length_eq_zero (by omega)
    intro y hy
    obtain ⟨x, hx, -⟩ := hreaches y hy
    exact absurd (hnil ▸ hx) List.not_mem_nil

/-- What is copied along with a plain definition is a plain region. -/
theorem PlainDefinition.reachable {b : Ref DefinitionCell} (h : s.PlainDefinition b) :
    s.PlainRegion (· ∈ s.reachable b) :=
  plainRegion_reachedIn (List.nodup_singleton _) fun _ hy _ hz =>
    h _ (List.mem_singleton.mp hy ▸ hz)

/-! ### Renamed things -/

section WithCopies

variable {found : List Node} {b : Ref DefinitionCell}

theorem newName_component (c : Component) :
    s.newName found (.component c)
      = .component (Value.renamedComponent (s.newName found) c) := by
  unfold Value.renamedComponent newName
  dsimp only
  split <;> rfl

theorem newName_refNode {α : Type} (kind : ComponentKind) (r : Ref α) :
    s.newName found (refNode kind r) = refNode kind (renamedRef (s.newName found) kind r) := by
  unfold refNode renamedRef Value.renamedComponent newName
  dsimp only
  split <;> rfl

theorem newName_collection (p : Nat) :
    s.newName found (.collection p)
      = .collection (Value.renamedPlace (s.newName found) p) := rfl

theorem refNodes_renamed {α : Type} (kind : ComponentKind) (refs : List (Ref α)) :
    refNodes kind (refs.map (renamedRef (s.newName found) kind))
      = (refNodes kind refs).map (s.newName found) := by
  unfold refNodes
  rw [List.map_map, List.map_map]
  exact List.map_congr_left fun r _ => (newName_refNode kind r).symm

mutual

/-- A renamed value refers to what the value refers to, renamed. -/
theorem nodes_renamed : ∀ v : Value,
    (v.renamed (s.newName found)).nodes = v.nodes.map (s.newName found)
  | .list none items => itemNodes_renamed items
  | .map none entries => entryNodes_renamed entries
  | .list (some _) _ | .map (some _) _ | .object _ => rfl
  | .component c _ => by
    rw [Value.renamed, Value.nodes, Value.nodes, List.map_singleton, newName_component]
  | .null | .bool _ | .int _ | .float _ | .text _ | .bytes _ | .path _ | .parser _ | .other _ => rfl

theorem itemNodes_renamed : ∀ items : List Value,
    Value.itemNodes (Value.renamedItems (s.newName found) items)
      = (Value.itemNodes items).map (s.newName found)
  | [] => rfl
  | v :: rest => by
    rw [Value.renamedItems, Value.itemNodes, Value.itemNodes, List.map_append, nodes_renamed v,
      itemNodes_renamed rest]

theorem entryNodes_renamed : ∀ entries : List (Value × Value),
    Value.entryNodes (Value.renamedEntries (s.newName found) entries)
      = (Value.entryNodes entries).map (s.newName found)
  | [] => rfl
  | (_, v) :: rest => by
    rw [Value.renamedEntries, Value.entryNodes, Value.entryNodes, List.map_append, nodes_renamed v,
      entryNodes_renamed rest]

end

theorem renamedItems_eq_map (f : Node → Node) (items : List Value) :
    Value.renamedItems f items = items.map (Value.renamed f) := by
  induction items with
  | nil => rfl
  | cons v rest ih => rw [Value.renamedItems, ih, List.map_cons]

theorem renamedEntries_eq_map (f : Node → Node) (entries : List (Value × Value)) :
    Value.renamedEntries f entries = entries.map fun e => (e.1, e.2.renamed f) := by
  induction entries with
  | nil => rfl
  | cons e rest ih => rw [Value.renamedEntries, ih, List.map_cons]

/-- The values of a renamed collection are those of the collection, renamed. -/
theorem values_renamed (f : Node → Node) (c : Collection) :
    (renamedCollection f c).values = c.values.map (Value.renamed f) := by
  cases c with
  | list items => exact renamedItems_eq_map f items
  | map entries =>
    unfold renamedCollection Collection.values
    dsimp only
    rw [renamedEntries_eq_map, List.map_map, List.map_map]
    rfl

theorem collectionNodes_renamed (c : Collection) :
    collectionNodes (renamedCollection (s.newName found) c)
      = (collectionNodes c).map (s.newName found) := by
  cases c with
  | list items => exact itemNodes_renamed items
  | map entries => exact entryNodes_renamed entries

theorem mem_placesIn {p : Nat} : p ∈ placesIn found ↔ .collection p ∈ found := by
  unfold placesIn
  rw [List.mem_filterMap]
  constructor
  · rintro ⟨z, hz, h⟩
    cases z with
    | collection n =>
      cases h
      exact hz
    | _ => cases h
  · exact fun h => ⟨_, h, rfl⟩

/-- The copy of a collection that is copied along is new, and holds renamed values. -/
theorem withCopies_collection {p : Nat} {c : Collection} (hp : .collection p ∈ found)
    (hc : s.collections[p]? = some c) :
    s.collections.length ≤ Value.renamedPlace (s.newName found) p ∧
      (s.withCopies found).collections[Value.renamedPlace (s.newName found) p]?
        = some (renamedCollection (s.newName found) c) := by
  have hmem : p ∈ placesIn found := mem_placesIn.mpr hp
  have hlt : (placesIn found).idxOf p < (placesIn found).length := List.idxOf_lt_length_of_mem hmem
  have hplace : Value.renamedPlace (s.newName found) p
      = s.collections.length + (placesIn found).idxOf p := by
    show behind s.collections.length (placesIn found) p = _
    rw [behind, if_pos hmem]
  rw [hplace]
  refine ⟨Nat.le_add_right _ _, ?_⟩
  unfold withCopies
  dsimp only
  rw [List.getElem?_append_right (Nat.le_add_right _ _), Nat.add_sub_cancel_left,
    List.getElem?_map, List.getElem?_eq_getElem hlt, List.getElem_idxOf, Option.map_some, hc]
  rfl

/-- Copies of different collections have different places. -/
theorem renamedPlace_inj {p q : Nat} (hp : .collection p ∈ found) (hq : .collection q ∈ found)
    (h : Value.renamedPlace (s.newName found) p = Value.renamedPlace (s.newName found) q) :
    p = q := by
  have hp' : p ∈ placesIn found := mem_placesIn.mpr hp
  have hq' : q ∈ placesIn found := mem_placesIn.mpr hq
  have hbehind : behind s.collections.length (placesIn found) p
      = behind s.collections.length (placesIn found) q := h
  rw [behind, behind, if_pos hp', if_pos hq'] at hbehind
  exact (List.idxOf_inj hp').mp (Nat.add_left_cancel hbehind)

/-- What a copy refers to are the copies of what the thing refers to. -/
theorem nodesOf_newName (hplain : s.PlainRegion (· ∈ found)) {y : Node} (hy : y ∈ found) :
    (s.withCopies found).nodesOf (s.newName found y) = (s.nodesOf y).map (s.newName found) := by
  have hthere := (hplain.plain y hy).has
  cases y, hthere using Has.cases with
  | collection p hp =>
    obtain ⟨c, hc, -⟩ := hplain.plain _ hy
    rw [newName_collection, nodesOf_collection (withCopies_collection hy hc).2,
      nodesOf_collection hc, collectionNodes_renamed]
  | argument a ha =>
    rw [newName_refNode]
    show Value.entryNodes ((s.withCopies found).arguments.get _).properties = _
    rw [(withCopies_argument hy).2]
    exact entryNodes_renamed _
  | call q hq =>
    rw [newName_refNode]
    show refNodes .argument ((s.withCopies found).calls.get _).arguments = _
    rw [(withCopies_call hy).2]
    exact refNodes_renamed _ _
  | definition d hd =>
    rw [newName_refNode]
    show refNodes .call ((s.withCopies found).definitions.get _).parts = _
    rw [(withCopies_definition hy).2.2, DefinitionOf.parts_map]
    exact refNodes_renamed _ _

/-- The copy of a plain value is plain. -/
theorem plain_renamed {v : Value} (hv : s.Plain v) (hfound : ∀ w ∈ v.nodes, w ∈ found) :
    (s.withCopies found).Plain (v.renamed (s.newName found)) := by
  cases hv with
  | closed h =>
    rw [Value.renamed_of_closed _ h]
    exact .closed h
  | list old h =>
    exact .list _ (withCopies_collection (hfound _ (List.mem_singleton.mpr rfl)) h).2
  | map old h =>
    exact .map _ (withCopies_collection (hfound _ (List.mem_singleton.mpr rfl)) h).2

/-- The copy of a plain thing is plain and new. -/
theorem plainNode_newName (hplain : s.PlainRegion (· ∈ found)) {y : Node} (hy : y ∈ found) :
    (s.withCopies found).PlainNode (s.newName found y) ∧ ¬ s.Has (s.newName found y) := by
  have hthere := (hplain.plain y hy).has
  cases y, hthere using Has.cases with
  | collection p hp =>
    obtain ⟨c, hc, -⟩ := hplain.plain _ hy
    obtain ⟨hnew, hcopy⟩ := withCopies_collection hy hc
    refine ⟨⟨_, hcopy, fun v hv => ?_⟩, Nat.not_lt.mpr hnew⟩
    rw [values_renamed] at hv
    obtain ⟨w, hw, rfl⟩ := List.mem_map.mp hv
    exact plain_renamed (hplain.item hy hc hw).1 (hplain.item hy hc hw).2
  | argument a ha =>
    obtain ⟨hholds, hcopy⟩ := withCopies_argument (s := s) hy
    rw [newName_refNode]
    refine ⟨⟨hholds, fun e he => ?_⟩, ?_⟩
    · have hcopied : e ∈ ((s.withCopies found).arguments.get
          (renamedRef (s.newName found) .argument a)).properties := he
      rw [hcopy, show (Argument.renamed (s.newName found) (s.arguments.get a)).properties = _
        from renamedEntries_eq_map _ _] at hcopied
      obtain ⟨old, hold, rfl⟩ := List.mem_map.mp hcopied
      have hproperty := hplain.property hy hold
      exact plain_renamed hproperty.1 hproperty.2
    · rw [renamedRef_newName (by decide)]
      exact not_holds_behind (mem_componentsIn.mpr hy)
  | call q hq =>
    rw [newName_refNode]
    refine ⟨(withCopies_call hy).1, ?_⟩
    rw [renamedRef_newName (by decide)]
    exact not_holds_behind (mem_componentsIn.mpr hy)
  | definition d hd =>
    rw [newName_refNode]
    exact ⟨(withCopies_definition hy).2.1, (withCopies_definition hy).1⟩

/-- From a copy only copies are reached. -/
theorem reaches_newName (hplain : s.PlainRegion (· ∈ found)) {y z : Node} (hy : y ∈ found)
    (h : (s.withCopies found).Reaches (s.newName found y) z) :
    ∃ x ∈ found, z = s.newName found x := by
  refine h.passes (P := fun z => ∃ x ∈ found, z = s.newName found x) ?_ ⟨y, hy, rfl⟩
  rintro y ⟨x, hx, rfl⟩ z hz
  rw [nodesOf_newName hplain hx] at hz
  obtain ⟨w, hw, rfl⟩ := List.mem_map.mp hz
  exact ⟨w, hplain.next x hx w hw, rfl⟩

/-! ### What a copy shows -/

/-- A copied value looks like the value, up to places. -/
theorem bare_lookAt_renamed (hplain : s.PlainRegion (· ∈ found)) (n : Nat) :
    ∀ {way : List Nat} {around : List Component} {v : Value}, s.Plain v →
      (∀ w ∈ v.nodes, w ∈ found) → way.Nodup → (∀ p ∈ way, .collection p ∈ found) →
      s.collections.length < n + way.length →
      ((s.withCopies found).lookAt n (way.map (Value.renamedPlace (s.newName found))) around
          (v.renamed (s.newName found))).bare
        = (s.lookAt n way around v).bare := by
  have hlt : ∀ {way : List Nat}, (∀ p ∈ way, Node.collection p ∈ found) →
      ∀ p ∈ way, p < s.collections.length :=
    fun hway p hp => (hplain.plain _ (hway p hp)).has
  induction n with
  | zero =>
    intro way around v _ _ hnodup hway hn
    exact absurd (length_le_of_nodup hnodup (hlt hway)) (by omega)
  | succ n ih =>
    intro way around v hv hfound hnodup hway hn
    have honTheWay : ∀ {p : Nat}, .collection p ∈ found →
        onTheWay (way.map (Value.renamedPlace (s.newName found)))
            (some (Value.renamedPlace (s.newName found) p)) = onTheWay way (some p) := by
      intro p hp
      unfold onTheWay
      rw [Option.any_some, Option.any_some, Bool.eq_iff_iff, List.contains_iff_mem,
        List.contains_iff_mem, List.mem_map]
      constructor
      · rintro ⟨q, hq, he⟩
        exact renamedPlace_inj (hway q hq) hp he ▸ hq
      · exact fun hmem => ⟨p, hmem, rfl⟩
    have hbelow : ∀ {p : Nat} {c : Collection}, .collection p ∈ found →
        s.collections[p]? = some c → ¬ onTheWay way (some p) = true → ∀ v ∈ c.values,
          ((s.withCopies found).lookAt n
              (Value.renamedPlace (s.newName found) p ::
                way.map (Value.renamedPlace (s.newName found))) around
              (v.renamed (s.newName found))).bare
            = (s.lookAt n (p :: way) around v).bare := by
      intro p c hp hc hnew v hv
      have hlen : (p :: way).length = way.length + 1 := rfl
      refine @ih (p :: way) around v (hplain.item hp hc hv).1 (hplain.item hp hc hv).2
        (List.nodup_cons.mpr ⟨?_, hnodup⟩) (List.forall_mem_cons.mpr ⟨hp, hway⟩) (by omega)
      exact fun hmem => hnew (by simpa [onTheWay] using hmem)
    cases hv with
    | closed h => rw [Value.renamed_of_closed _ h, lookAt_closed _ h, lookAt_closed _ h]
    | list old h =>
      rename_i p items
      have hp : .collection p ∈ found := hfound _ (List.mem_singleton.mpr rfl)
      rw [Value.renamed, Option.map_some]
      simp only [lookAt, itemsAt, Option.bind_some, h, (withCopies_collection hp h).2,
        renamedCollection, honTheWay hp]
      split
      · rfl
      · simp only [Value.bare, Value.bareItems_eq_map, renamedItems_eq_map, List.map_map]
        exact congrArg _ (List.map_congr_left (hbelow hp h ‹_›))
    | map old h =>
      rename_i p entries
      have hp : .collection p ∈ found := hfound _ (List.mem_singleton.mpr rfl)
      rw [Value.renamed, Option.map_some]
      simp only [lookAt, entriesAt, Option.bind_some, h, (withCopies_collection hp h).2,
        renamedCollection, honTheWay hp]
      split
      · rfl
      · simp only [Value.bare, Value.bareEntries_eq_map, renamedEntries_eq_map, List.map_map]
        exact congrArg _ <| List.map_congr_left fun e he =>
          congrArg (Prod.mk e.1) (hbelow hp h ‹_› e.2 (List.mem_map_of_mem he))

/-- A copied value is shown like the value, up to places. -/
theorem bare_current_renamed (hplain : s.PlainRegion (· ∈ found)) {v : Value} (hv : s.Plain v)
    (hfound : ∀ w ∈ v.nodes, w ∈ found) :
    ((s.withCopies found).current (v.renamed (s.newName found))).bare = (s.current v).bare := by
  have hdeep : s.collections.length < (s.withCopies found).nesting := by
    have hlt := lt_nesting (s.withCopies found)
    have hle := (List.prefix_append s.collections ((placesIn found).map fun n =>
      renamedCollection (s.newName found) (s.collections[n]?.getD default))).length_le
    exact Nat.lt_of_le_of_lt hle hlt
  refine (bare_lookAt_renamed hplain _ hv hfound List.nodup_nil nofun
    (by simpa using hdeep)).trans ?_
  exact congrArg _ <| hplain.lookAt_eq (fun _ _ => rfl) _ hv hfound List.nodup_nil nofun
    (by simpa using hdeep) (by simpa using lt_nesting s)

theorem bareArgument_renamed (hplain : s.PlainRegion (· ∈ found)) {a : Ref Argument}
    (ha : refNode .argument a ∈ found) :
    (s.withCopies found).bareArgument (renamedRef (s.newName found) .argument a)
      = s.bareArgument a := by
  have hcopy := (withCopies_argument (s := s) ha).2
  unfold bareArgument Argument.bare argument
  dsimp only
  rw [hcopy]
  unfold Argument.renamed
  dsimp only
  rw [renamedEntries_eq_map, Value.bareEntries_eq_map, Value.bareEntries_eq_map, List.map_map,
    List.map_map, List.map_map]
  refine congrArg (Argument.mk _ _) (List.map_congr_left fun e he => congrArg (Prod.mk e.1) ?_)
  have hproperty := hplain.property ha he
  exact bare_current_renamed hplain hproperty.1 hproperty.2

theorem bareCall_renamed (hplain : s.PlainRegion (· ∈ found)) {q : Ref CallCell}
    (hq : refNode .call q ∈ found) :
    (s.withCopies found).bareCall (renamedRef (s.newName found) .call q) = s.bareCall q := by
  unfold bareCall call CallOf.map
  rw [(withCopies_call (s := s) hq).2]
  dsimp only [CallOf.map]
  rw [List.map_map, List.map_map, List.map_map]
  exact congrArg (CallOf.mk _ _) <| List.map_congr_left fun a ha =>
    bareArgument_renamed hplain (hplain.next _ hq _ (List.mem_map_of_mem ha))

theorem bareDefinition_eq (s : Store) (d : Ref DefinitionCell) :
    s.bareDefinition d = (s.definitions.get d).map s.bareCall := by
  unfold bareDefinition definition DefinitionOf.mapArguments
  rw [DefinitionOf.map_map]
  rfl

/-- The copy of a definition shows what the definition shows, up to places. -/
theorem bareDefinition_renamed (hplain : s.PlainRegion (· ∈ found))
    (hb : refNode .definition b ∈ found) :
    (s.withCopies found).bareDefinition (renamedRef (s.newName found) .definition b)
      = s.bareDefinition b := by
  rw [bareDefinition_eq, bareDefinition_eq, (withCopies_definition (s := s) hb).2.2,
    DefinitionOf.map_map]
  exact DefinitionOf.map_congr fun q hq =>
    bareCall_renamed hplain (hplain.next _ hb _ (List.mem_map_of_mem hq))

end WithCopies

/-! ### Copies and their bases -/

variable {b x : Ref DefinitionCell} {D : Ref DefinitionCell → Prop}

/-- What can be reached from plain definitions is a plain region. -/
theorem plainRegion_within (hD : ∀ d, D d → s.PlainDefinition d) : s.PlainRegion (s.Within D) where
  plain z hz := by
    obtain ⟨d, hd, hz⟩ := hz
    exact hD d hd z hz
  next _ hy _ hz := hy.next hz

/-- A new plain definition that shares nothing with some others, which are as they were. -/
structure Copied (s t : Store) (x : Ref DefinitionCell) (D : Ref DefinitionCell → Prop) :
    Prop where
  new : ¬ s.definitions.Holds x
  plain : t.PlainDefinition x
  parted : t.Parted (· = x) D
  has : ∀ z, s.Has z → t.Has z
  within : ∀ z, t.Within D z ↔ s.Within D z
  same : ∀ z, s.Within D z → Same s t z

/-- Copying a plain definition succeeds, and the copy shows what the definition shows, up to
places. -/
theorem copy_plain (hb : s.PlainDefinition b) (hD : ∀ d, D d → s.PlainDefinition d) :
    ∃ x t, (copy b).run s = (.ok x, t) ∧ s.Copied t x D ∧
      t.bareDefinition x = s.bareDefinition b := by
  have hplain := hb.reachable
  have hmem : refNode .definition b ∈ s.reachable b :=
    mem_reachedIn _ (List.nodup_singleton _) (List.mem_singleton.mpr rfl) (.here _) (Nat.zero_le _)
  have hcan : s.CanCopy b := fun n hn => (hplain.plain _ hn).elim
  have htouches : Touches [] s (s.withCopies (s.reachable b)) :=
    touches_of_grown ⟨List.prefix_append _ _, List.prefix_append _ _, List.prefix_append _ _,
      List.prefix_append _ _⟩
  -- Whatever is reached from the copy is a copy, and copies are new.
  have hcopied : ∀ z, (s.withCopies (s.reachable b)).Reaches
      (refNode .definition (renamedRef (s.newName (s.reachable b)) .definition b)) z →
      (s.withCopies (s.reachable b)).PlainNode z ∧ ¬ s.Has z := by
    intro z hz
    rw [← newName_refNode] at hz
    obtain ⟨y, hy, rfl⟩ := reaches_newName hplain hmem hz
    exact plainNode_newName hplain hy
  -- The others have nothing to do with it, whatever stands against them.
  have hothers : s.Parted (fun _ => False) D :=
    ⟨fun _ hz => hz.elim fun _ h => h.1.elim, fun z hz => ((plainRegion_within hD).plain z hz).has,
      fun _ hz => hz.elim fun _ h => h.1.elim⟩
  obtain ⟨hparted, hwithin, hsame⟩ := hothers.touched htouches nofun
  refine ⟨_, _, hcan.run_copy, ⟨(withCopies_definition hmem).1, fun z hz => (hcopied z hz).1,
    ⟨?_, hparted.right, ?_⟩, fun z => htouches.has, hwithin, hsame⟩,
    bareDefinition_renamed hplain hmem⟩
  · rintro z ⟨_, rfl, hz⟩
    exact (hcopied z hz).1.has
  · rintro z ⟨_, rfl, hz⟩ hzD
    exact (hcopied z hz).2 (hothers.right z ((hwithin z).mp hzD))

/-- What is plain does not depend on what the definitions hold. -/
theorem PlainNode.redefined {z : Node} {f : DefinitionCell → DefinitionCell} (h : t.PlainNode z) :
    ({ t with definitions := t.definitions.modify x f } : Store).PlainNode z := by
  have hvalue : ∀ v, t.Plain v →
      ({ t with definitions := t.definitions.modify x f } : Store).Plain v := by
    intro v hv
    cases hv with
    | closed h => exact .closed h
    | list old h => exact .list old h
    | map old h => exact .map old h
  cases z with
  | collection p =>
    obtain ⟨c, hc, hvalues⟩ := h
    exact ⟨c, hc, fun v hv => hvalue v (hvalues v hv)⟩
  | object id => exact h
  | component c =>
    obtain ⟨kind, id⟩ := c
    cases kind with
    | argument => exact ⟨h.1, fun e he => hvalue _ (h.2 e he)⟩
    | definition => exact Cells.holds_modify.mpr h
    | _ => exact h

/-- A change of the copy alone that keeps its calls. -/
theorem Copied.redefined (h : s.Copied t x D) {f : ∀ {γ : Type}, DefinitionOf γ → DefinitionOf γ}
    (hf : ∀ {γ δ : Type} (g : γ → δ) (d : DefinitionOf γ), (f d).map g = f (d.map g))
    (hparts : ∀ {γ : Type} (d : DefinitionOf γ), (f d).parts = d.parts) :
    let u : Store := { t with definitions := t.definitions.modify x fun d => f d }
    s.Copied u x D ∧ u.bareDefinition x = f (t.bareDefinition x) := by
  intro u
  have hx : t.definitions.Holds x := (h.plain _ (.refl t _))
  have hget : u.definitions.get x = f (t.definitions.get x) := Cells.get_modify_self hx _
  have htouches : Touches [refNode .definition x] t u := by
    refine touches_definition (List.mem_singleton.mpr rfl) fun w hw => .inl ?_
    rwa [hparts] at hw
  obtain ⟨hparted, hwithin, hsame⟩ := h.parted.touched htouches fun y hy =>
    .inl (List.mem_singleton.mp hy ▸ within_self rfl)
  refine ⟨⟨h.new, fun z hz => .redefined ?_, hparted, fun z hz => htouches.has (h.has z hz),
    fun z => (hwithin z).trans (h.within z),
    fun z hz => (h.same z hz).trans (hsame z ((h.within z).mpr hz))⟩, ?_⟩
  · refine h.plain z (hz.passes (fun y hy w hw => ?_) (.refl t _))
    rcases htouches.nodes (h.plain y hy).has hw with hw | hw
    · exact hy.trans (.of_mem hw)
    · exact List.mem_singleton.mp hw ▸ .refl t _
  · rw [bareDefinition_eq, bareDefinition_eq, hget, hf]
    refine congrArg f (DefinitionOf.map_congr fun q hq => ?_)
    have hcall : t.Reaches (refNode .definition x) (refNode .call q) :=
      .of_mem (List.mem_map_of_mem hq)
    have harguments : ∀ a ∈ (t.calls.get q).arguments, u.argument a = t.argument a := fun a ha =>
      h.plain.region.argument_congr (t := u) (fun _ _ => rfl) (Nat.le_refl _)
        (hcall.trans (.of_mem (List.mem_map_of_mem ha))) rfl
    unfold bareCall call CallOf.map
    show (⟨_, _, ((t.calls.get q).arguments.map u.argument).map Argument.bare⟩ : Call) = _
    rw [List.map_congr_left harguments]

/-- A copy of a definition, made in one store and found in another, with an identifier and a class.
It is new and shows what the base shows. The definitions around it are as they were. What is done to
the copy from then on does not change them, and what is done to them does not change the copy. -/
structure IndependentCopy (s t : Store) (b x : Ref DefinitionCell) (D : Ref DefinitionCell → Prop)
    (identifier : Option String) (className : String) : Prop where
  new : ¬ s.definitions.Holds x
  shows : t.bareDefinition x
    = { s.bareDefinition b with identifier := identifier, className := className }
  before : ∀ d, D d → s.Unchanged t d
  others : ∀ u, Edited (· = x) D t u → ∀ d, D d → t.Unchanged u d
  copy : ∀ u, Edited D (· = x) t u → t.Unchanged u x

/-- What shares nothing with plain definitions is independent of them. -/
theorem Copied.independent (h : s.Copied t x D) (hD : ∀ d, D d → s.PlainDefinition d)
    {i : Option String} {n : String}
    (hshows : t.bareDefinition x = { s.bareDefinition b with identifier := i, className := n }) :
    s.IndependentCopy t b x D i n where
  new := h.new
  shows := hshows
  before d hd := (hD d hd).unchanged (fun z hz => h.same z ⟨d, hd, hz⟩) h.has
  others u hu d hd := by
    have hregion := (plainRegion_within hD).same h.same fun z hz =>
      h.has z ((plainRegion_within hD).plain z hz).has
    obtain ⟨-, -, hsame⟩ := h.parted.edited hu
    exact (hregion.definition (within_self hd)).unchanged (fun z hz => hsame z ⟨d, hd, hz⟩)
      fun z => hu.has
  copy u hu := by
    obtain ⟨-, -, hsame⟩ := h.parted.symm.edited hu
    exact h.plain.unchanged (fun z hz => hsame z ⟨x, rfl, hz⟩) fun z => hu.has

/-- An identifier that is accepted is set, and nothing else is. -/
theorem setIdentifier_eq_ok {v : Value} (h : (setIdentifier x v).run s = (.ok (), t)) :
    ∃ i, DefinitionOf.checkIdentifier (s.definitions.get x).className v = .ok i ∧
      t = { s with definitions := s.definitions.modify x fun d => { d with identifier := i } } := by
  unfold setIdentifier at h
  rw [Work.run_bind_ok (run_read x s)] at h
  obtain ⟨i, t', hcheck, hrun⟩ := Work.bind_eq_ok h
  rw [Work.run_lift] at hcheck
  obtain ⟨hok, rfl⟩ := Prod.mk.inj hcheck
  cases hrun
  exact ⟨i, Except.mapError_eq_ok.mp hok, rfl⟩

/-- A class that is accepted is set, and nothing else is. -/
theorem setClassName_eq_ok {v : Value} (h : (setClassName x v).run s = (.ok (), t)) :
    ∃ n, DefinitionOf.checkClassName v = .ok n ∧
      t = { s with definitions := s.definitions.modify x fun d => { d with className := n } } := by
  unfold setClassName at h
  obtain ⟨n, t', hcheck, hrun⟩ := Work.bind_eq_ok h
  rw [Work.run_lift] at hcheck
  obtain ⟨hok, rfl⟩ := Prod.mk.inj hcheck
  cases hrun
  exact ⟨n, Except.mapError_eq_ok.mp hok, rfl⟩

/-- Copies are independent. A definition of plain data can be copied, and the copy as well as every
definition that is obtained by extending it is independent of it and of any other definitions of
plain data: it shows what the base shows, apart from the identifier and the class that it was given,
and from then on no change on one of the two sides shows on the other. -/
theorem copies_are_independent (hb : D b) (hD : ∀ d, D d → s.PlainDefinition d) :
    (∃ x t, (copy b).run s = (.ok x, t) ∧
      s.IndependentCopy t b x D (s.definitions.get b).identifier (s.definitions.get b).className) ∧
    ∀ (r : Ref ContainerCell) (interface base identifier className : Value)
      (x : Ref DefinitionCell) (t : Store), (baseOf r interface base).run s = (.ok b, s) →
      (extend r interface base identifier className).run s = (.ok x, t) →
      ∃ i n, DefinitionOf.checkIdentifier (s.definitions.get b).className identifier = .ok i ∧
        (if className.truthy then DefinitionOf.checkClassName className = .ok n
          else n = (s.definitions.get b).className) ∧
        s.IndependentCopy t b x D i n := by
  obtain ⟨y, t₁, hcopy, hcopied, hshows⟩ := copy_plain (hD b hb) hD
  refine ⟨⟨y, t₁, hcopy, hcopied.independent hD hshows⟩, ?_⟩
  intro r interface base identifier className x t hbase h
  unfold extend at h
  rw [Work.run_bind_ok hbase, Work.run_bind_ok hcopy] at h
  obtain ⟨_, t₂, hidentifier, h⟩ := Work.bind_eq_ok h
  obtain ⟨i, hi, rfl⟩ := setIdentifier_eq_ok hidentifier
  have hclass : (t₁.definitions.get y).className = (s.definitions.get b).className :=
    congrArg (fun d : Definition => d.className) hshows
  rw [hclass] at hi
  obtain ⟨hcopied', hshows'⟩ := hcopied.redefined (f := fun d => { d with identifier := i })
    (fun _ _ => rfl) fun _ => rfl
  rw [hshows] at hshows'
  split at h
  · rename_i htruthy
    obtain ⟨_, t₃, hname, h⟩ := Work.bind_eq_ok h
    obtain ⟨n, hn, rfl⟩ := setClassName_eq_ok hname
    obtain ⟨hcopied'', hshows''⟩ := hcopied'.redefined (f := fun d => { d with className := n })
      (fun _ _ => rfl) fun _ => rfl
    rw [hshows'] at hshows''
    cases h
    exact ⟨i, n, hi, (if_pos htruthy).mpr hn, hcopied''.independent hD hshows''⟩
  · rename_i htruthy
    cases h
    exact ⟨i, _, hi, (if_neg htruthy).mpr rfl, hcopied'.independent hD hshows'⟩

/-- Declares a logger with a call whose argument is a mapping with a list in it, and adds it to a
container. -/
def declareLevels : Action Unit := do
  let call ← placeCall ⟨"setLevels", none, [⟨"levels", "scalar",
    [(.text "value", .map none [(.text "low", .list none [.int 1])])]⟩]⟩
  let logger ← declareDefinition (.text "app.Logger") .null (.list none [.text "Log"])
  addCall logger call
  addDefinition (← makeContainer) .null logger

/-- The store with the logger. -/
def levelsStore : Store := (declareLevels.run (Store.empty default)).2

/-- Everything of which the logger is made. -/
def levelsNodes : List Node :=
  [refNode .definition (⟨0⟩ : Ref DefinitionCell), refNode .call (⟨0⟩ : Ref CallCell),
    refNode .argument (⟨0⟩ : Ref Argument), .collection 1, .collection 0]

theorem plainDefinition_levels : levelsStore.PlainDefinition ⟨0⟩ := by
  intro z hz
  have hmem : z ∈ levelsNodes := by
    refine hz.passes (P := (· ∈ levelsNodes)) ?_ List.mem_cons_self
    decide +kernel
  have hlist : levelsStore.collections[0]? = some (.list [.int 1]) := rfl
  have hmap : ∃ old, levelsStore.collections[1]? = some (.map [(.text "low", .list (some 0) old)]) :=
    ⟨_, rfl⟩
  obtain ⟨old, hmap⟩ := hmap
  simp only [levelsNodes, List.mem_cons, List.not_mem_nil, or_false] at hmem
  rcases hmem with rfl | rfl | rfl | rfl | rfl
  · exact Nat.zero_lt_one
  · exact Nat.zero_lt_one
  · refine ⟨Nat.zero_lt_one, fun e he => ?_⟩
    rw [List.mem_singleton.mp he]
    exact .map _ hmap
  · refine ⟨_, hmap, fun v hv => ?_⟩
    rw [List.mem_singleton.mp hv]
    exact .list _ hlist
  · refine ⟨_, hlist, fun v hv => ?_⟩
    rw [List.mem_singleton.mp hv]
    exact .closed rfl

/-- The store with the logger and an extended one. -/
def quietStore : Store :=
  ((extend ⟨0⟩ (.text "Log") .null (.text "quiet") .null).run levelsStore).2

/-- The list deep inside of the extended logger gets another item. That of the logger does not. -/
theorem copies_are_independent_levels :
    (extend ⟨0⟩ (.text "Log") .null (.text "quiet") .null).run levelsStore = (.ok ⟨1⟩, quietStore) ∧
      ((Edit.items 3 [.int 2]).after quietStore).definition ⟨0⟩ = levelsStore.definition ⟨0⟩ ∧
      (((Edit.items 3 [.int 2]).after quietStore).bareArgument ⟨1⟩).properties
        = [(.text "value", .map none [(.text "low", .list none [.int 2])])] := by
  have hrun : (extend ⟨0⟩ (.text "Log") .null (.text "quiet") .null).run levelsStore
      = (.ok ⟨1⟩, quietStore) := rfl
  obtain ⟨-, hextend⟩ := copies_are_independent (s := levelsStore) (b := ⟨0⟩) (D := (· = ⟨0⟩)) rfl
    fun d hd => hd ▸ plainDefinition_levels
  obtain ⟨i, n, -, -, hcopy⟩ := hextend ⟨0⟩ (.text "Log") .null (.text "quiet") .null ⟨1⟩ _ rfl hrun
  -- The list is reached through the call, its argument and the mapping of the copy.
  have hwithin : quietStore.Within (· = ⟨1⟩) (.collection 3) :=
    ⟨⟨1⟩, rfl, .head (z := refNode .call (⟨1⟩ : Ref CallCell)) (by decide +kernel) <|
      .head (z := refNode .argument (⟨1⟩ : Ref Argument)) (by decide +kernel) <|
      .head (z := .collection 2) (by decide +kernel) <|
      .of_mem (by decide +kernel)⟩
  have hedited := hcopy.others _ (.edit .refl (.items 3 [.int 2]) fun y hy =>
    .inl (List.mem_singleton.mp hy ▸ hwithin)) ⟨0⟩ rfl
  exact ⟨hrun, hedited.definition.trans (hcopy.before ⟨0⟩ rfl).definition, rfl⟩

/-- A call of the logger that is added to the extended one belongs to both. An argument that this
call gets is seen in the logger too. -/
theorem extend_shares_added_call :
    let shared := (Edit.addCall ⟨1⟩ ⟨0⟩).after quietStore
    (extend ⟨0⟩ (.text "Log") .null (.text "quiet") .null).run levelsStore
        = (.ok ⟨1⟩, quietStore) ∧
      shared.Within (· = ⟨1⟩) (refNode .call (⟨0⟩ : Ref CallCell)) ∧
      ((Edit.addArgument ⟨0⟩ ⟨1⟩).after shared).definition ⟨0⟩ ≠ levelsStore.definition ⟨0⟩ := by
  refine ⟨rfl, ⟨⟨1⟩, rfl, .of_mem (by decide +kernel)⟩, fun h => ?_⟩
  have hlength := congrArg (fun d : Definition => d.parts.map fun c => c.arguments.length) h
  revert hlength
  decide +kernel

end Store

end Wiring
