import Wiring.Proofs.Applying
import Wiring.Proofs.Declaring

/-!
# `Wiring.Proofs.Indexing`: what a container holds after any additions

A container is filled by additions: a definition is added under an interface that is named, or under
all of its own. `Filling` are the stores that a program which declares things can lead to from one
with a new container, next to what was added to that container so far, entry by entry. No definition
that was added may be renamed, and everything else may change.

The container is then what the entries make in turn (`Filling.indexed`), so each of its listings can
be read off them. `answers_of_filling` states what each way of asking the container answers. Under a
key stands the last definition that was added for it, and interfaces and identifiers are listed in
the order in which they came up first. `run_addTargets` is what one addition does: a name that is
not valid is refused and changes nothing, and the interfaces of a definition are always valid names,
so its addition under all of them cannot stop in between.

A definition is asked for by the name of an interface. What is no name is refused before anything is
looked up, so it is not reported as missing (`refused_without_name`).
-/

set_option autoImplicit false

namespace Wiring

namespace Container

variable {δ : Type}

/-! ### Containers that entries make -/

/-- The container that entries make in turn. -/
def ofEntries (es : List (DefinitionKey × δ)) : Container δ := es.foldl addEntry .empty

theorem ofEntries_append (es : List (DefinitionKey × δ)) (e : DefinitionKey × δ) :
    ofEntries (es ++ [e]) = (ofEntries es).addOne e.1.interface e.1.identifier e.2 :=
  List.foldl_concat ..

/-- Adding a definition under several interfaces adds one entry for each. -/
theorem ofEntries_add (es : List (DefinitionKey × δ)) (names : List String) (k : Option String)
    (d : δ) :
    ofEntries (es ++ names.map fun i => (⟨i, k⟩, d)) = (ofEntries es).add names k d := by
  unfold ofEntries add
  rw [List.foldl_append, List.foldl_map]
  rfl

/-- Under a key stands the last entry for it. -/
theorem find?_ofEntries (es : List (DefinitionKey × δ)) (q : DefinitionKey) :
    (ofEntries es).find? q = (es.reverse.find? fun e => e.1 = q).map Prod.snd := by
  induction es using List.reverseRecOn with
  | nil => rfl
  | append_singleton es e ih =>
    have hkey : e.1 = q ↔ q.interface = e.1.interface ∧ q.identifier = e.1.identifier := by
      rw [eq_comm, DefinitionKey.mk.injEq]
    rw [ofEntries_append, find?_addOne, ih, List.reverse_concat, List.find?_cons]
    by_cases h : e.1 = q
    · rw [if_pos (hkey.mp h), decide_eq_true h]
      rfl
    · rw [if_neg (mt hkey.mpr h), decide_eq_false h]

/-- The interfaces are listed as they came up first. -/
theorem interfaces_ofEntries (es : List (DefinitionKey × δ)) :
    (ofEntries es).interfaces = (es.map fun e => e.1.interface).eraseDups := by
  induction es using List.reverseRecOn with
  | nil => rfl
  | append_singleton es e ih =>
    rw [ofEntries_append, interfaces_addOne, List.map_append, List.map_singleton,
      eraseDups_append_singleton, ih]
    simp only [List.mem_eraseDups]

/-- The identifiers of an interface are listed as they came up first. -/
theorem keys_ofEntries (es : List (DefinitionKey × δ)) (i : String) :
    ((ofEntries es).definitions i).keys =
      ((es.filter fun e => e.1.interface = i).map fun e => e.1.identifier).eraseDups := by
  induction es using List.reverseRecOn with
  | nil => rfl
  | append_singleton es e ih =>
    rw [ofEntries_append, keys_definitions_addOne, ih, List.filter_append, List.map_append]
    by_cases h : e.1.interface = i
    · have hlast : [e].filter (fun e => e.1.interface = i) = [e] := by simp [h]
      rw [hlast, List.map_singleton, eraseDups_append_singleton]
      simp only [h, List.mem_eraseDups, true_and, ite_not]
    · have hlast : [e].filter (fun e => e.1.interface = i) = [] := by simp [h]
      rw [hlast, List.map_nil, List.append_nil, if_neg fun hi => h hi.1.symm]

theorem filled_ofEntries (es : List (DefinitionKey × δ)) : (ofEntries es).Filled := by
  induction es using List.reverseRecOn with
  | nil => exact filled_empty
  | append_singleton es e ih =>
    rw [ofEntries_append]
    exact filled_addOne ih _ _ _

/-! ### Listings that agree -/

variable {c : Container δ}

/-- No key is listed twice. -/
theorem nodup_keys_entries (c : Container δ) : (c.entries.map Prod.fst).Nodup := by
  unfold entries
  rw [List.map_flatMap, List.nodup_flatMap]
  constructor
  · intro e _
    rw [List.map_map]
    refine List.Nodup.of_map DefinitionKey.identifier ?_
    rw [List.map_map]
    exact e.2.nodup
  · refine List.Pairwise.imp ?_ (List.pairwise_map.mp c.index.nodup)
    intro e e' hne q hq hq'
    simp only [List.map_map, List.mem_map] at hq hq'
    obtain ⟨x, -, rfl⟩ := hq
    obtain ⟨y, -, heq⟩ := hq'
    exact hne (congrArg DefinitionKey.interface heq).symm

/-- An interface that is listed has definitions, and no other has. -/
theorem contains_iff (hc : c.Filled) (i : String) :
    c.contains i = true ↔ i ∈ c.interfaces := by
  unfold contains definitions
  cases h : c.index.get? i with
  | none => simpa [interfaces, OrderedMap.empty] using OrderedMap.get?_eq_none_iff.mp h
  | some m =>
    have hmem := OrderedMap.get?_eq_some_iff.mp h
    have hne := hc _ hmem
    simp only [Option.getD_some, Bool.not_eq_true', List.isEmpty_eq_false_iff, ne_eq, hne,
      not_false_iff, true_iff]
    exact List.mem_map_of_mem hmem

/-- The definitions of the interfaces are counted. -/
theorem size_eq_sum (c : Container δ) :
    c.size = (c.interfaces.map fun i => (c.definitions i).size).sum := by
  unfold size entries interfaces OrderedMap.keys
  rw [List.length_flatMap, List.map_map]
  refine congrArg List.sum (List.map_congr_left fun e he => ?_)
  have hget : c.index.get? e.1 = some e.2 := OrderedMap.get?_eq_some_iff.mpr he
  simp only [Function.comp_apply, definitions, hget, Option.getD_some, List.length_map]
  rfl

end Container

/-! ### One addition -/

/-- The definition has names, as every definition that can be declared. -/
structure DefinitionOf.Named (d : DefinitionCell) : Prop where
  className_ne : d.className ≠ ""
  interfaces_ne : "" ∉ d.interfaces

/-- The interfaces that a definition is added under, none if the one that is given is no name. -/
def DefinitionOf.targets (d : DefinitionCell) (interface : Value) : List String :=
  match interface with
  | .null => d.allInterfaces
  | v => v.name?.toList

/-- A definition that has names is never added under an empty one. -/
theorem DefinitionOf.ne_of_mem_targets {d : DefinitionCell} (hd : d.Named) {v : Value} {i : String}
    (hi : i ∈ d.targets v) : i ≠ "" := by
  unfold targets at hi
  split at hi
  · exact fun he => allInterfaces_ne hd.className_ne hd.interfaces_ne (he ▸ hi)
  · exact Value.ne_of_name? (Option.mem_toList.mp hi)

/-- Every definition has an interface to be added under. -/
theorem DefinitionOf.allInterfaces_ne_nil (d : DefinitionCell) : d.allInterfaces ≠ [] := by
  unfold allInterfaces
  split
  · exact List.cons_ne_nil _ _
  · rename_i h
    exact fun he => h (by simp [he])

namespace Store

variable {s : Store} {r q : Ref ContainerCell} {d : Ref DefinitionCell}

/-- The store where a definition is added to a container under some interfaces. -/
def listing (s : Store) (r : Ref ContainerCell) (names : List String) (d : Ref DefinitionCell) :
    Store where
  __ := s
  containers := s.containers.modify r fun c => c.add names (s.definitions.get d).identifier d

theorem listing_nil (s : Store) (r : Ref ContainerCell) (d : Ref DefinitionCell) :
    s.listing r [] d = s := by
  have hsame : s.containers.modify r (fun c => c) = s.containers :=
    congrArg Cells.mk (List.modify_id _ _)
  show { s with containers := s.containers.modify r fun c => c } = s
  rw [hsame]

/-- Adding a definition fails only if the interface that is given is no name, and then changes
nothing. Under all of its interfaces it can always be added. -/
theorem run_addTargets (s : Store) (r : Ref ContainerCell) (v : Value) (d : Ref DefinitionCell)
    (hd : (s.definitions.get d).Named) :
    (addDefinition r v d).run s
      = (if (s.definitions.get d).targets v = [] then .error (.definition .interfaceName)
          else .ok (),
        s.listing r ((s.definitions.get d).targets v) d) := by
  by_cases hv : v = .null
  · subst hv
    have hnames : "" ∉ (s.definitions.get d).allInterfaces :=
      DefinitionOf.allInterfaces_ne hd.className_ne hd.interfaces_ne
    rw [run_addDefinition s r d hnames]
    show _ = (if (s.definitions.get d).allInterfaces = [] then _ else _, _)
    rw [if_neg (DefinitionOf.allInterfaces_ne_nil _)]
    rfl
  · have htargets : (s.definitions.get d).targets v = v.name?.toList := by
      cases v <;> first | rfl | exact absurd rfl hv
    have hone : (addDefinition r v d).run s
        = (forM [v] fun v => (do
          let name ← Work.lift ((Container.checkInterface v).mapError .definition)
          change r fun c => c.addOne name (s.definitions.get d).identifier d : Action Unit)).run
          s := by
      unfold addDefinition
      rw [Work.run_bind_ok (run_read d s)]
      cases v <;> first | rfl | exact absurd rfl hv
    rw [hone, htargets]
    cases hname : v.name? with
    | none =>
      have hcheck : Container.checkInterface v = .error .interfaceName := by
        rw [Container.checkInterface, hname]
      rw [Option.toList_none, if_pos rfl, listing_nil, List.forM_cons, bind_assoc, hcheck]
      exact Work.run_bind_error (Work.run_lift _ s)
    | some i =>
      have hi : "" ∉ [i] := by
        rw [List.mem_singleton]
        exact (Value.ne_of_name? hname).symm
      rw [Option.toList_some, if_neg (List.cons_ne_nil _ _), Value.eq_text_of_name? hname]
      exact run_addUnder r _ d [i] s hi

end Store

/-! ### Histories -/

namespace Declaring

/-- The step adds a definition that is there, or it renames none of those that were added. -/
def Permitted (es : List (DefinitionKey × Ref DefinitionCell)) (s : Store) : Declaring → Prop
  | .add _ _ d => s.definitions.Holds d
  | .identifier d _ => ∀ e ∈ es, e.2 ≠ d
  | _ => True

/-- What the step adds to a container. -/
def entries (r : Ref ContainerCell) (s : Store) :
    Declaring → List (DefinitionKey × Ref DefinitionCell)
  | .add q v d =>
    if q = r then
      ((s.definitions.get d).targets v).map fun i => (⟨i, (s.definitions.get d).identifier⟩, d)
    else []
  | _ => []

end Declaring

/-- The stores that a program which declares things can lead to from one with a new container, and
what was added to the container so far. A definition that was added is not renamed, and everything
but definitions and containers may change in any way. -/
inductive Filling (r : Ref ContainerCell) : List (DefinitionKey × Ref DefinitionCell) → Store → Prop
  | new {s : Store} (hnamed : s.definitions.All DefinitionOf.Named) (hr : s.containers.Holds r)
    (hnew : s.containers.get r = .empty) : Filling r [] s
  | step {es : List (DefinitionKey × Ref DefinitionCell)} {s : Store} (a : Declaring)
    (h : Filling r es s) (ha : a.Permitted es s) :
    Filling r (es ++ a.entries r s) (ExceptT.run a.run s).2
  | elsewhere {es : List (DefinitionKey × Ref DefinitionCell)} {s s' : Store} (h : Filling r es s)
    (hdefinitions : s'.definitions = s.definitions) (hcontainers : s'.containers = s.containers) :
    Filling r es s'

namespace Store

/-- The container is what the entries make, and each of them has the identifier of its definition
for its key. -/
structure Indexed (r : Ref ContainerCell) (es : List (DefinitionKey × Ref DefinitionCell))
    (s : Store) : Prop where
  named : s.definitions.All DefinitionOf.Named
  holds : s.containers.Holds r
  container : s.containers.get r = Container.ofEntries es
  entry : ∀ e ∈ es, e.1.interface ≠ "" ∧ s.definitions.Holds e.2 ∧
    (s.definitions.get e.2).identifier = e.1.identifier

variable {s : Store} {r : Ref ContainerCell} {es : List (DefinitionKey × Ref DefinitionCell)}

/-- What is not about definitions or containers keeps the entries. -/
theorem Indexed.of_eq (h : s.Indexed r es) {t : Store}
    (hdefinitions : t.definitions = s.definitions) (hcontainers : t.containers = s.containers) :
    t.Indexed r es where
  named := hdefinitions ▸ h.named
  holds := hcontainers ▸ h.holds
  container := hcontainers ▸ h.container
  entry := hdefinitions ▸ h.entry

/-- A new definition keeps the entries. -/
theorem Indexed.withDefinition (h : s.Indexed r es) {d : DefinitionCell} (hd : d.Named) :
    { s with definitions := s.definitions.add d }.Indexed r es where
  named := Cells.all_add h.named hd
  holds := h.holds
  container := h.container
  entry := by
    intro e he
    obtain ⟨hi, hheld, hk⟩ := h.entry e he
    exact ⟨hi, Cells.holds_add hheld d, by rw [Cells.get_add_of_lt hheld, hk]⟩

/-- A change of a definition keeps the entries, if it keeps the names, and the identifier when the
definition was added. -/
theorem Indexed.changedDefinition (h : s.Indexed r es) (d : Ref DefinitionCell)
    {f : DefinitionCell → DefinitionCell} (hf : ∀ x : DefinitionCell, x.Named → (f x).Named)
    (hidentifier : (∃ e ∈ es, e.2 = d) → ∀ x : DefinitionCell, (f x).identifier = x.identifier) :
    { s with definitions := s.definitions.modify d f }.Indexed r es where
  named := Cells.all_modify h.named hf
  holds := h.holds
  container := h.container
  entry := by
    intro e he
    obtain ⟨hi, hheld, hk⟩ := h.entry e he
    refine ⟨hi, Cells.holds_modify.mpr hheld, ?_⟩
    rw [Cells.get_modify hheld]
    split
    · rename_i hd
      rw [hidentifier ⟨e, he, hd⟩, hk]
    · exact hk

/-- A new container keeps the entries. -/
theorem Indexed.withContainer (h : s.Indexed r es) (c : ContainerCell) :
    { s with containers := s.containers.add c }.Indexed r es where
  named := h.named
  holds := Cells.holds_add h.holds c
  container := (Cells.get_add_of_lt h.holds c).trans h.container
  entry := h.entry

/-- An addition to the container adds its entries, and one to another container none. -/
theorem Indexed.added (h : s.Indexed r es) (q : Ref ContainerCell) (v : Value)
    {d : Ref DefinitionCell} (hd : s.definitions.Holds d) :
    Indexed r (es ++ (Declaring.add q v d).entries r s)
      (ExceptT.run (addDefinition q v d) s).2 := by
  have hnamed := h.named.get hd
  rw [run_addTargets s q v d hnamed]
  exact {
    named := h.named
    holds := Cells.holds_modify.mpr h.holds
    container := by
      show (s.containers.modify q _).get r = _
      rw [Cells.get_modify h.holds, h.container, Declaring.entries]
      by_cases hq : q = r
      · rw [if_pos hq, if_pos hq.symm, Container.ofEntries_add]
      · rw [if_neg hq, if_neg (Ne.symm hq), List.append_nil]
    entry := by
      intro e he
      rcases List.mem_append.mp he with he | he
      · exact h.entry e he
      · rw [Declaring.entries] at he
        split at he
        · obtain ⟨i, hi, rfl⟩ := List.mem_map.mp he
          exact ⟨DefinitionOf.ne_of_mem_targets hnamed hi, hd, rfl⟩
        · cases he }

/-- A step that adds no definition to a container keeps the entries. -/
theorem Indexed.unadded (h : s.Indexed r es) {a : Declaring} (ha : a.Permitted es s)
    (hadd : ∀ q v d, a ≠ .add q v d) : Indexed r es (ExceptT.run a.run s).2 := by
  cases a with
  | add q v d => exact absurd rfl (hadd q v d)
  | argument n k ps =>
    show Indexed r es (ExceptT.run (do let _ ← declareArgument n k ps) s).2
    rw [run_discarded]
    exact after_checked (Indexed r es) h fun _ _ => h.of_eq rfl rfl
  | property a n v =>
    show Indexed r es (ExceptT.run (setProperty a n v) s).2
    unfold setProperty
    split
    · exact h.of_eq rfl rfl
    · exact h
  | call m i as =>
    show Indexed r es (ExceptT.run (do let _ ← declareCall m i as) s).2
    rw [run_discarded]
    exact after_checked (Indexed r es) h fun _ _ => h.of_eq rfl rfl
  | callArgument c a => exact h.of_eq rfl rfl
  | definition c i names =>
    show Indexed r es (ExceptT.run (do let _ ← declareDefinition c i names) s).2
    rw [run_discarded]
    refine after_checked (Indexed r es) h fun d hd => ?_
    obtain ⟨hclass, -, hinterfaces, -⟩ := DefinitionOf.parts_of_declare hd
    exact h.withDefinition ⟨hclass, hinterfaces⟩
  | className d v =>
    refine after_checked (Indexed r es) h fun n hn => ?_
    have hn' := DefinitionOf.ne_of_checkClassName (Except.mapError_eq_ok.mp hn)
    exact h.changedDefinition d (fun x hx => ⟨hn', hx.interfaces_ne⟩) fun _ _ => rfl
  | identifier d v =>
    show Indexed r es (ExceptT.run (setIdentifier d v) s).2
    unfold setIdentifier
    rw [Work.run_bind_ok (run_read d s)]
    refine after_checked (Indexed r es) h fun i _ => ?_
    refine h.changedDefinition d (fun x hx => ⟨hx.className_ne, hx.interfaces_ne⟩) ?_
    rintro ⟨e, he, hd⟩
    exact absurd hd (ha e he)
  | interfaces d v =>
    show Indexed r es (ExceptT.run (setInterfaces d v) s).2
    unfold setInterfaces
    rw [Work.run_bind_ok (run_read d s)]
    refine after_checked (Indexed r es) h fun names hnames => ?_
    obtain ⟨hne, -⟩ := DefinitionOf.checkInterfaces_wellFormed hnames
    exact h.changedDefinition d (fun x hx => ⟨hx.className_ne, hne⟩) fun _ _ => rfl
  | addCall d c =>
    -- The call may get an identifier first, which no definition shows.
    have hkept : ∀ (place : CallPlace) (calls : Cells CallCell),
        Indexed r es { s with
          calls := calls
          definitions := s.definitions.modify d fun x => x.keep place c } := by
      intro place calls
      have hd := h.changedDefinition d
        (f := fun x => x.keep place c) (by cases place <;> exact fun x hx => ⟨hx.1, hx.2⟩)
        (by cases place <;> exact fun _ _ => rfl)
      exact hd.of_eq rfl rfl
    show Indexed r es (ExceptT.run (Store.addCall d c) s).2
    unfold addCall
    rw [Work.run_bind_ok (run_read d s), Work.run_bind_ok (run_read c s)]
    simp only [Stored.cells]
    cases (s.definitions.get d).placeFor (s.calls.get c) with
    | constructor => exact hkept .constructor s.calls
    | keyed i => exact hkept (.keyed i) _
  | container => exact h.withContainer _

/-- A step adds its entries. -/
theorem Indexed.run (h : s.Indexed r es) {a : Declaring} (ha : a.Permitted es s) :
    Indexed r (es ++ a.entries r s) (ExceptT.run a.run s).2 := by
  cases a with
  | add q v d => exact h.added q v ha
  | _ =>
    simp only [Declaring.entries, List.append_nil]
    exact h.unadded ha nofun

end Store

/-- A container that is filled is what was added to it makes. -/
theorem Filling.indexed {r : Ref ContainerCell} {es : List (DefinitionKey × Ref DefinitionCell)}
    {s : Store} (h : Filling r es s) : s.Indexed r es := by
  induction h with
  | new hnamed hr hnew => exact ⟨hnamed, hr, hnew, nofun⟩
  | step a _ ha ih => exact ih.run ha
  | elsewhere _ hdefinitions hcontainers ih => exact ih.of_eq hdefinitions hcontainers

/-! ### What the container answers -/

namespace Store

/-- What a container answers that was filled with some entries. -/
structure Answers (r : Ref ContainerCell) (es : List (DefinitionKey × Ref DefinitionCell))
    (s : Store) : Prop where
  /-- Under a key stands the last definition that was added for it. -/
  last : ∀ q, (s.containers.get r).find? q = (es.reverse.find? fun e => e.1 = q).map Prod.snd
  once : ((s.containers.get r).entries.map Prod.fst).Nodup
  own : ∀ e ∈ (s.containers.get r).entries, (s.definitions.get e.2).identifier = e.1.identifier
  interfaces : (s.containers.get r).interfaces = (es.map fun e => e.1.interface).eraseDups
  identifiers : ∀ i, ((s.containers.get r).definitions i).keys =
    ((es.filter fun e => e.1.interface = i).map fun e => e.1.identifier).eraseDups
  contained : ∀ i, (s.containers.get r).contains i = true ↔
    ∃ ds, (definitionsOf r (.text i)).run s = (.ok ds, s) ∧ ds ≠ []
  listed : ∀ i, (s.containers.get r).contains i = true ↔ i ∈ (s.containers.get r).interfaces
  counted : (s.containers.get r).size = (s.containers.get r).toList.length
  counted_each : (s.containers.get r).size = ((s.containers.get r).interfaces.map fun i =>
    ((s.containers.get r).definitions i).size).sum
  /-- What is asked for by a name is missing exactly if no entry has the key. -/
  missing : ∀ i k, i ≠ "" →
    ((∃ why t, (definitionOf r (.text i) (Value.optional k)).run s = (.error (.notFound why), t)) ↔
      ∀ d, (⟨i, k⟩, d) ∉ (s.containers.get r).entries)
  nameless : ∀ v k, v.name? = none →
    (definitionOf r v k).run s = (.error (.definition .interfaceName), s)

/-- What adding a definition to a container does. -/
structure Adds (r : Ref ContainerCell) (s : Store) (d : Ref DefinitionCell) : Prop where
  /-- It is added under exactly its interfaces, or else its class. -/
  all : ∃ t, (addDefinition r .null d).run s = (.ok (), t) ∧
    t = { s with containers := t.containers } ∧
    (∀ q, q ≠ r → t.containers.get q = s.containers.get q) ∧
    ∀ k, (t.containers.get r).find? k =
      if k.interface ∈ (if (s.definitions.get d).interfaces = [] then
          [(s.definitions.get d).className] else (s.definitions.get d).interfaces) ∧
        k.identifier = (s.definitions.get d).identifier then some d
      else (s.containers.get r).find? k
  /-- What is no name is refused, and changes nothing. -/
  refused : ∀ v, v ≠ .null → v.name? = none →
    (addDefinition r v d).run s = (.error (.definition .interfaceName), s)

variable {s : Store} {r : Ref ContainerCell} {es : List (DefinitionKey × Ref DefinitionCell)}

/-- Asking for the definitions of an interface. -/
theorem run_definitionsOf (s : Store) (r : Ref ContainerCell) {i : String} (hi : i ≠ "") :
    (definitionsOf r (.text i)).run s = (.ok ((s.containers.get r).definitions i).entries, s) := by
  unfold definitionsOf
  rw [Container.checkInterface_text hi]
  rfl

/-- Asking for a definition. -/
theorem run_definitionOf (s : Store) (r : Ref ContainerCell) {i : String} (hi : i ≠ "")
    (k : Option String) :
    (definitionOf r (.text i) (Value.optional k)).run s =
      match (s.containers.get r).find? ⟨i, k⟩ with
      | some d => (.ok d, s)
      | none => (.error (.notFound ((s.containers.get r).absence ⟨i, k⟩)), s) := by
  have hsought : soughtIdentifier (Value.optional k) = .ok (true, k) := by cases k <;> rfl
  unfold definitionOf
  rw [Container.checkInterface_text hi, hsought]
  show ExceptT.run (match (s.containers.get r).find? ⟨i, k⟩ with
    | some d => pure d
    | none => throw (.notFound ((s.containers.get r).absence ⟨i, k⟩)) :
      Action (Ref DefinitionCell)) s = _
  cases (s.containers.get r).find? ⟨i, k⟩ <;> rfl

/-- Asking without a name. -/
theorem run_definitionOf_nameless (s : Store) (r : Ref ContainerCell) {v : Value}
    (hv : v.name? = none) (k : Value) :
    (definitionOf r v k).run s = (.error (.definition .interfaceName), s) := by
  have hcheck : Container.checkInterface v = .error .interfaceName := by
    rw [Container.checkInterface, hv]
  unfold definitionOf
  rw [hcheck]
  rfl

/-- What the answers of a container are. -/
theorem Indexed.answers (h : s.Indexed r es) : s.Answers r es := by
  have hlisted : ∀ i, (s.containers.get r).contains i = true ↔
      i ∈ (s.containers.get r).interfaces := by
    rw [h.container]
    exact Container.contains_iff (Container.filled_ofEntries es)
  have hinterfaces : (s.containers.get r).interfaces =
      (es.map fun e => e.1.interface).eraseDups := by
    rw [h.container, Container.interfaces_ofEntries]
  exact {
    last := by
      rw [h.container]
      exact Container.find?_ofEntries es
    once := Container.nodup_keys_entries _
    own := by
      rintro ⟨q, d⟩ he
      rw [Container.mem_entries_iff, h.container, Container.find?_ofEntries] at he
      obtain ⟨e, hfound, hd⟩ := Option.map_eq_some_iff.mp he
      have hmem := List.mem_reverse.mp (List.mem_of_find?_eq_some hfound)
      have hkey : e.1 = q := by simpa using List.find?_some hfound
      rw [← hd, ← hkey]
      exact (h.entry e hmem).2.2
    interfaces := hinterfaces
    identifiers := by
      rw [h.container]
      exact Container.keys_ofEntries es
    contained := by
      intro i
      by_cases hi : i = ""
      · -- No definition was added without a name, and asking for one is refused.
        have hnot : i ∉ (s.containers.get r).interfaces := by
          rw [hinterfaces, List.mem_eraseDups, List.mem_map]
          rintro ⟨e, he, hei⟩
          exact (h.entry e he).1 (hei.trans hi)
        rw [hlisted]
        refine iff_of_false hnot ?_
        rintro ⟨ds, hrun, -⟩
        subst hi
        cases hrun
      · rw [run_definitionsOf s r hi, Container.contains, Bool.not_eq_true',
          List.isEmpty_eq_false_iff]
        refine ⟨fun hne => ⟨_, rfl, hne⟩, ?_⟩
        rintro ⟨ds, hrun, hne⟩
        cases hrun
        exact hne
    listed := hlisted
    counted := (List.length_map _).symm
    counted_each := Container.size_eq_sum _
    missing := by
      intro i k hi
      rw [run_definitionOf s r hi]
      cases hfind : (s.containers.get r).find? ⟨i, k⟩ with
      | some d =>
        refine iff_of_false ?_ fun hno => hno d (Container.mem_entries_iff.mpr hfind)
        rintro ⟨why, t, hrun⟩
        cases hrun
      | none =>
        refine iff_of_true ⟨_, _, rfl⟩ fun d hd => ?_
        rw [Container.mem_entries_iff, hfind] at hd
        cases hd
    nameless := fun v k hv => run_definitionOf_nameless s r hv k }

/-- What an addition to the container does. -/
theorem Indexed.adds (h : s.Indexed r es) {d : Ref DefinitionCell} (hd : s.definitions.Holds d) :
    s.Adds r d where
  all := by
    refine ⟨_, run_addDefinition s r d (DefinitionOf.allInterfaces_ne (h.named.get hd).className_ne
      (h.named.get hd).interfaces_ne), rfl, fun q hq => Cells.get_modify_of_ne hq _, fun k => ?_⟩
    have hinterfaces : (s.definitions.get d).allInterfaces =
        if (s.definitions.get d).interfaces = [] then [(s.definitions.get d).className]
        else (s.definitions.get d).interfaces := by
      simp only [DefinitionOf.allInterfaces, List.isEmpty_iff]
    rw [Cells.get_modify_self h.holds, Container.find?_add, hinterfaces]
  refused := by
    intro v hv hname
    have htargets : (s.definitions.get d).targets v = [] := by
      unfold DefinitionOf.targets
      split
      · exact absurd rfl hv
      · rw [hname, Option.toList_none]
    rw [run_addTargets s r v d (h.named.get hd), htargets, if_pos rfl, listing_nil]

end Store

/-- A container that was filled answers as the entries say, whichever additions they come from. A
further definition is added under all of its interfaces, and the name of an interface that is not
valid is refused without effect. -/
theorem answers_of_filling {r : Ref ContainerCell}
    {es : List (DefinitionKey × Ref DefinitionCell)} {s : Store} (h : Filling r es s) :
    s.Answers r es ∧ ∀ d, s.definitions.Holds d → s.Adds r d :=
  ⟨h.indexed.answers, fun _ hd => h.indexed.adds hd⟩

/-- Definitions with interfaces and identifiers in common, and a container without any. -/
def unfilledStore : Store where
  __ := Store.empty default
  definitions := ⟨[⟨"app.Logger", none, ["Log", "Sink"], none, .empty⟩,
    ⟨"app.Other", some "other", [], none, .empty⟩, ⟨"app.New", none, ["Log"], none, .empty⟩]⟩
  containers := ⟨[.empty]⟩

/-- Additions to the container. The third one is refused, and the last one replaces a definition. -/
def fillingSteps : List Declaring :=
  [.add ⟨0⟩ .null ⟨0⟩, .add ⟨0⟩ (.text "Log") ⟨1⟩, .add ⟨0⟩ (.text "") ⟨1⟩, .add ⟨0⟩ .null ⟨2⟩]

/-- The store that they lead to. -/
def filledStore : Store :=
  fillingSteps.foldl (fun s a => (ExceptT.run a.run s).2) unfilledStore

/-- What they add. -/
def filledEntries : List (DefinitionKey × Ref DefinitionCell) :=
  [(⟨"Log", none⟩, ⟨0⟩), (⟨"Sink", none⟩, ⟨0⟩), (⟨"Log", some "other"⟩, ⟨1⟩), (⟨"Log", none⟩, ⟨2⟩)]

theorem filling_unfilledStore : Filling ⟨0⟩ [] unfilledStore := by
  refine .new ?_ Nat.one_pos rfl
  intro d hd
  fin_cases hd <;> exact ⟨by decide, by decide⟩

theorem filling_filledStore : Filling ⟨0⟩ filledEntries filledStore := by
  have hfirst : (0 : Nat) < 3 := by decide
  have hsecond : (1 : Nat) < 3 := by decide
  have hthird : (2 : Nat) < 3 := by decide
  have hall := Filling.step (.add ⟨0⟩ .null ⟨0⟩) filling_unfilledStore hfirst
  have hother := Filling.step (.add ⟨0⟩ (.text "Log") ⟨1⟩) hall hsecond
  have hrefused := Filling.step (.add ⟨0⟩ (.text "") ⟨1⟩) hother hsecond
  exact .step (.add ⟨0⟩ .null ⟨2⟩) hrefused hthird

/-- The answers of a container with a definition that was replaced. -/
theorem answers_of_filledStore :
    (filledStore.Answers ⟨0⟩ filledEntries ∧
        ∀ d, filledStore.definitions.Holds d → filledStore.Adds ⟨0⟩ d) ∧
      (filledStore.containers.get ⟨0⟩).entries =
        [(⟨"Log", none⟩, ⟨2⟩), (⟨"Log", some "other"⟩, ⟨1⟩), (⟨"Sink", none⟩, ⟨0⟩)] :=
  ⟨answers_of_filling filling_filledStore, by decide +kernel⟩

/-- A definition that is missing under no name is refused instead of being reported as missing. -/
theorem refused_without_name :
    ∃ s r es, Filling r es s ∧ (∀ d, (⟨"", none⟩, d) ∉ (s.containers.get r).entries) ∧
      ¬ ∃ why t, (Store.definitionOf r (.text "") .null).run s = (.error (.notFound why), t) := by
  refine ⟨_, _, _, filling_unfilledStore, fun d hd => ?_, ?_⟩
  · cases hd
  · rintro ⟨why, t, hrun⟩
    cases hrun

end Wiring
