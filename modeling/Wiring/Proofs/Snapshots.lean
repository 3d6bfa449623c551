import Wiring.Proofs.WellFormed
import Wiring.Snapshot

/-!
# `Wiring.Proofs.Snapshots`: a snapshot gives its container back

`decode_encode` is the main fact: decoding the document of a well formed container gives the
container, entry by entry. Decoding replays the document through the constructors and `addCall`. It
loses nothing because a well formed definition keeps each call under the call's own identifier, so
that replaying the calls inserts each of them behind the others, and because a container lists its
entries interface by interface, so that adding them in turn puts each in its old place.

A document holds plain values. `Value.bare` drops the places that lists and mappings may have, and
`Json.Undone v` says that the reader gives the value `v` back from the text that the writer makes of
it. `Value.isJson` is the data of documents, and `dumps?_isSome_iff` tells which containers have a
text: those whose properties meet no obstacle.
-/

set_option autoImplicit false

namespace Wiring

/-! ### Plain values -/

namespace Value

mutual

/-- A value without the places of its lists and mappings. -/
def bare : Value → Value
  | .list _ items => .list none (bareItems items)
  | .map _ entries => .map none (bareEntries entries)
  | v => v

/-- The items of a list without places. -/
def bareItems : List Value → List Value
  | [] => []
  | v :: rest => bare v :: bareItems rest

/-- The entries of a mapping without places. -/
def bareEntries : List (Value × Value) → List (Value × Value)
  | [] => []
  | (k, v) :: rest => (k, bare v) :: bareEntries rest

end

mutual

/-- Whether a value is a scalar other than a float, a list of such values, or a mapping of such
values under texts. -/
def isJson : Value → Bool
  | .null | .bool _ | .int _ | .text _ => true
  | .list _ items => areJson items
  | .map _ entries => entriesAreJson entries
  | _ => false

/-- Whether all items of a list are plain data. -/
def areJson : List Value → Bool
  | [] => true
  | v :: rest => isJson v && areJson rest

/-- Whether all entries of a mapping are plain data under texts. -/
def entriesAreJson : List (Value × Value) → Bool
  | [] => true
  | (.text _, v) :: rest => isJson v && entriesAreJson rest
  | _ => false

end

theorem bareItems_eq_map (items : List Value) : bareItems items = items.map bare := by
  induction items with
  | nil => rfl
  | cons v rest ih => simp [bareItems, ih]

theorem bareEntries_eq_map (entries : List (Value × Value)) :
    bareEntries entries = entries.map fun e => (e.1, e.2.bare) := by
  induction entries with
  | nil => rfl
  | cons e rest ih => simp [bareEntries, ih]

theorem areJson_iff (items : List Value) : areJson items = true ↔ ∀ v ∈ items, v.isJson = true := by
  induction items with
  | nil => simp [areJson]
  | cons v rest ih => simp [areJson, ih]

@[simp] theorem bare_optional (i : Option String) : (Value.optional i).bare = Value.optional i := by
  cases i <;> rfl

end Value

/-- The argument with plain properties. -/
def Argument.bare (a : Argument) : Argument :=
  { a with properties := Value.bareEntries a.properties }

/-- The container with plain properties. -/
def Container.bare (c : Container Definition) : Container Definition :=
  c.map (DefinitionOf.mapArguments Argument.bare)

/-- The arguments of a definition, those of the constructor first. -/
def DefinitionOf.allArguments (d : Definition) : List Argument :=
  (d.constructor.toList ++ d.callList).flatMap CallOf.arguments

/-- All properties of the container are plain data under texts, and nothing keeps them from being
written: no collection holds itself, and no number is too long. -/
def Container.HasJsonProperties (c : Container Definition) : Prop :=
  ∀ e ∈ c.entries, ∀ a ∈ e.2.allArguments,
    Value.entriesAreJson a.properties = true ∧ Json.entriesObstacle? [] a.properties = none

instance (c : Container Definition) : Decidable c.HasJsonProperties :=
  inferInstanceAs (Decidable (∀ e ∈ c.entries, ∀ a ∈ e.2.allArguments,
    Value.entriesAreJson a.properties = true ∧ Json.entriesObstacle? [] a.properties = none))

/-- The reader gives a value back, without its places, from the text that the writer makes of it. -/
def Json.Undone (v : Value) : Prop :=
  ∀ text, Json.document? v = some text → Json.read text = .ok v.bare

namespace Json

mutual

/-- What meets no obstacle has a text. -/
theorem write?_isSome (level : Nat) : ∀ (v : Value) (way : List Nat), obstacle? way v = none →
    (write? level v).isSome = true
  | .list p items, way, h => by
    rw [obstacle?] at h
    split at h
    · cases h
    · simpa [write?] using writeItems?_isSome (level + 1) items _ h
  | .map p entries, way, h => by
    rw [obstacle?] at h
    split at h
    · cases h
    · simpa [write?] using writeEntries?_isSome (level + 1) entries _ h
  | .null, _, _ | .bool true, _, _ | .bool false, _, _ | .int _, _, _ | .float _, _, _
  | .text _, _, _ => by simp [write?]

/-- Items that meet no obstacle have texts. -/
theorem writeItems?_isSome (level : Nat) : ∀ (items : List Value) (way : List Nat),
    itemsObstacle? way items = none → (writeItems? level items).isSome = true
  | [], _, _ => rfl
  | v :: rest, way, h => by
    rw [itemsObstacle?, Option.or_eq_none_iff] at h
    obtain ⟨s, hs⟩ := Option.isSome_iff_exists.mp (write?_isSome level v way h.1)
    obtain ⟨more, hm⟩ := Option.isSome_iff_exists.mp (writeItems?_isSome level rest way h.2)
    simp [writeItems?, hs, hm]

/-- Entries that meet no obstacle have texts. -/
theorem writeEntries?_isSome (level : Nat) : ∀ (entries : List (Value × Value)) (way : List Nat),
    entriesObstacle? way entries = none → (writeEntries? level entries).isSome = true
  | [], _, _ => rfl
  | (k, v) :: rest, way, h => by
    rw [entriesObstacle?, Option.or_eq_none_iff, Option.or_eq_none_iff] at h
    obtain ⟨hk, hv, hrest⟩ := h
    have hkey : (keyText? k).isSome = true := by
      cases k <;> first | rfl | cases hk
    obtain ⟨key, hkey⟩ := Option.isSome_iff_exists.mp hkey
    obtain ⟨s, hs⟩ := Option.isSome_iff_exists.mp (write?_isSome level v way hv)
    obtain ⟨more, hm⟩ := Option.isSome_iff_exists.mp (writeEntries?_isSome level rest way hrest)
    simp [writeEntries?, hkey, hs, hm]

end

/-- A document has a text if it meets no obstacle. -/
theorem document?_isSome_iff (v : Value) :
    (document? v).isSome = true ↔ obstacle? [] v = none := by
  unfold document?
  split
  · rename_i h
    have hnone := Option.isNone_iff_eq_none.mp h
    exact iff_of_true (write?_isSome 0 v [] hnone) hnone
  · rename_i h
    exact iff_of_false nofun fun hnone => h (Option.isNone_iff_eq_none.mpr hnone)

end Json

namespace Snapshot

/-! ### Records -/

/-- A part of a record is its field. -/
theorem part_record (fields : List (String × Value)) (key : String) :
    part (record fields) key
      = match OrderedMap.lookup key fields with
        | some x => .ok x
        | none => .error (.snapshotKey key) := by
  have hlookup : ∀ fields : List (String × Value),
      Value.lookup (.text key) (fields.map fun f => (.text f.1, f.2))
        = OrderedMap.lookup key fields := by
    intro fields
    induction fields with
    | nil => rfl
    | cons f rest ih =>
      by_cases h : f.1 = key <;> simp [Value.lookup, Value.sameScalar, OrderedMap.lookup, h, ih]
  show (match Value.lookup (.text key) (fields.map fun f => (.text f.1, f.2)) with
    | some x => .ok x
    | none => .error (.snapshotKey key) : Except Fault Value) = _
  rw [hlookup]

/-- Decoding each of some documents gives what each was made from. -/
theorem mapM_map_ok {α β ε : Type} {f : β → Except ε α} {g : α → β} (l : List α)
    (h : ∀ a ∈ l, f (g a) = .ok a) : (l.map g).mapM f = .ok l := by
  induction l with
  | nil => rfl
  | cons a rest ih =>
    rw [List.map_cons, List.mapM_cons, h a List.mem_cons_self,
      ih fun b hb => h b (List.mem_cons_of_mem _ hb)]
    rfl

/-! ### Decoding an encoded definition -/

/-- The properties of an argument come back as they are. -/
theorem propertiesOf_map (entries : List (Value × Value)) :
    propertiesOf (.map none entries) = .ok entries := by
  cases entries <;> simp [propertiesOf, Value.truthy]

theorem decodeArgument_encodeArgument {a : Argument} (h : a.WellFormed) :
    decodeArgument (encodeArgument a) = .ok a := by
  have hdeclare : Argument.declare (.text a.name) (.text a.kind) [] = .ok ⟨a.name, a.kind, []⟩ := by
    simp only [Argument.declare, Value.name?_text h.name_ne, Value.name?_text h.kind_ne]
  unfold decodeArgument encodeArgument
  simp only [part_record, OrderedMap.lookup, if_true, bind, Except.bind, String.reduceEq,
    if_false, hdeclare, Except.mapError, propertiesOf_map]

theorem declare_optional {c : Call} (h : CallOf.WellFormed c) :
    CallOf.declare (.text c.method) (Value.optional c.identifier) c.arguments = .ok c := by
  obtain ⟨method, identifier, arguments⟩ := c
  unfold CallOf.declare
  rw [Value.name?_text h.method_ne]
  cases identifier with
  | none => rfl
  | some i =>
    have hi : i ≠ "" := fun he => h.identifier_ne (by simp [he])
    simp [Value.optional, Value.name?_text hi]

theorem decodeCall_encodeCall {c : Call} (h : CallOf.WellFormed c) :
    decodeCall (encodeCall c) = .ok c := by
  have harguments : (c.arguments.map encodeArgument).mapM decodeArgument = .ok c.arguments :=
    mapM_map_ok _ fun a ha => decodeArgument_encodeArgument (h.arguments a ha)
  unfold decodeCall encodeCall
  simp only [part_record, OrderedMap.lookup, if_true, bind, Except.bind, String.reduceEq, if_false,
    itemsOf, Value.parts?, harguments, declare_optional h, Except.mapError]

/-- Adding a call that has an identifier keeps it under that identifier. -/
theorem addCall_of_identifier {d : Definition} {c : Call} {i : String}
    (hi : c.identifier = some i) (hc : c.isConstructor = false) :
    d.addCall c = { d with calls := d.calls.insert i c } := by
  obtain ⟨method, identifier, arguments⟩ := c
  cases hi
  simp [DefinitionOf.addCall, DefinitionOf.placeFor, hc, DefinitionOf.keep]

/-- Decoding encoded calls that have identifiers inserts each under its own. -/
theorem decodeCalls_encode (calls : List (String × Call)) :
    ∀ d : Definition,
      (∀ e ∈ calls, e.2.identifier = some e.1 ∧ e.2.isConstructor = false ∧
        CallOf.WellFormed e.2) →
      decodeCalls d ((calls.map Prod.snd).map encodeCall)
        = .ok { d with calls := calls.foldl (fun m e => m.insert e.1 e.2) d.calls } := by
  induction calls with
  | nil => intro d _; rfl
  | cons e rest ih =>
    intro d h
    obtain ⟨hi, hc, hw⟩ := h e List.mem_cons_self
    rw [List.map_cons, List.map_cons, decodeCalls, decodeCall_encodeCall hw]
    show decodeCalls (d.addCall e.2) _ = _
    rw [addCall_of_identifier hi hc, ih _ fun x hx => h x (List.mem_cons_of_mem _ hx)]
    rfl

theorem declare_encoded {d : Definition} (h : DefinitionOf.WellFormed d) :
    (DefinitionOf.declare (.text d.className) (Value.optional d.identifier)
        (.list none (d.interfaces.map .text)) : Except Fault Definition)
      = .ok ⟨d.className, d.identifier, d.interfaces, none, .empty⟩ := by
  have hclass : DefinitionOf.checkClassName (.text d.className) = .ok d.className := by
    simp only [DefinitionOf.checkClassName, Value.name?_text h.className_ne]
  have hidentifier : DefinitionOf.checkIdentifier d.className (Value.optional d.identifier)
      = .ok d.identifier := by
    cases hi : d.identifier with
    | none => rfl
    | some i =>
      have hne : i ≠ "" := fun he => h.identifier_ne (by rw [hi, he])
      simp [DefinitionOf.checkIdentifier, Value.optional, Value.name?_text hne]
  have hinterfaces : DefinitionOf.checkInterfaces d.className (.list none (d.interfaces.map .text))
      = .ok d.interfaces := by
    cases hn : d.interfaces with
    | nil => rfl
    | cons n rest =>
      have hnodup : ([] ++ d.interfaces).Nodup := by simpa using h.interfaces_nodup
      have hnames := DefinitionOf.checkNames_texts d.className d.interfaces h.interfaces_ne hnodup
      rw [hn, List.map_cons] at hnames
      simp [DefinitionOf.checkInterfaces, Value.truthy, Value.parts?, hnames, Except.mapError]
  unfold DefinitionOf.declare
  rw [hclass]
  simp only [Except.mapError, bind, Except.bind, hidentifier, hinterfaces]

theorem decodeDefinition_encodeEntry {d : Definition} (h : DefinitionOf.WellFormed d)
    (interface : String) : decodeDefinition (encodeEntry interface d) = .ok d := by
  -- Adding the calls of the table to an empty one gives the table.
  have hcalls : ∀ x : Definition, x.calls = .empty →
      decodeCalls x (d.callList.map encodeCall) = .ok { x with calls := d.calls } := by
    intro x hx
    have h' := decodeCalls_encode d.calls.entries x h.call
    rw [hx, OrderedMap.foldl_insert_entries] at h'
    exact h'
  unfold decodeDefinition encodeEntry
  simp only [part_record, OrderedMap.lookup, if_true, bind, Except.bind, String.reduceEq, if_false,
    declare_encoded h, itemsOf, Value.parts?]
  obtain ⟨className, identifier, interfaces, constructor, calls⟩ := d
  cases constructor with
  | none => exact hcalls _ rfl
  | some c =>
    obtain ⟨hctor, hw⟩ := h.constructor_call c rfl
    have hadd : DefinitionOf.addCall ⟨className, identifier, interfaces, none, .empty⟩ c
        = ⟨className, identifier, interfaces, some c, .empty⟩ := by
      simp [DefinitionOf.addCall, DefinitionOf.placeFor, hctor, DefinitionOf.keep]
    have hdecode := decodeCall_encodeCall hw
    simp only [Option.map_some, Option.getD_some]
    rw [show encodeCall c = .map none _ from rfl] at hdecode ⊢
    simp only [hdecode, pure, Except.pure, hadd]
    exact hcalls _ rfl

/-! ### Decoding an encoded container -/

/-- Decoding encoded entries adds each under its interface. -/
theorem decodeEntries_encode (entries : List (DefinitionKey × Definition)) :
    ∀ c : Catalogue,
      (∀ e ∈ entries, e.1.interface ≠ "" ∧ e.2.identifier = e.1.identifier ∧
        DefinitionOf.WellFormed e.2) →
      ∃ k, decodeEntries c (entries.map fun e => encodeEntry e.1.interface e.2) = .ok k ∧
        k.definitions = entries.foldl Container.addEntry c.definitions := by
  induction entries with
  | nil => intro c _; exact ⟨c, rfl, rfl⟩
  | cons e rest ih =>
    intro c h
    obtain ⟨hi, hk, hd⟩ := h e List.mem_cons_self
    obtain ⟨k, hrest, hdefs⟩ := ih (c.add [e.1.interface] e.2)
      fun x hx => h x (List.mem_cons_of_mem _ hx)
    have hinterface : part (encodeEntry e.1.interface e.2) "interface"
        = .ok (.text e.1.interface) := by
      simp only [encodeEntry, part_record, OrderedMap.lookup, if_true]
    have hnames : entryInterfaces (.text e.1.interface) e.2 = .ok [e.1.interface] := by
      simp [entryInterfaces, Container.checkInterface, Value.name?_text hi, Except.mapError,
        Except.map]
    refine ⟨k, ?_, ?_⟩
    · rw [List.map_cons, decodeEntries, hinterface]
      simp only [bind, Except.bind, decodeDefinition_encodeEntry hd, hnames]
      exact hrest
    · have hadd : (c.add [e.1.interface] e.2).definitions = Container.addEntry c.definitions e := by
        unfold Catalogue.add Catalogue.definitions Container.addEntry
        rw [Container.map_add, hk]
        rfl
      rw [hdefs, List.foldl_cons, hadd]

/-- Decoding the document of a well formed container gives the container. -/
theorem decode_encode {c : Container Definition} (h : c.WellFormed) :
    ∃ k, decode (encode c) = .ok k ∧ k.definitions = c := by
  obtain ⟨k, hk, hdefs⟩ := decodeEntries_encode c.entries .empty h.entry
  refine ⟨k, ?_, ?_⟩
  · have hlist : (c.toList.map fun e => encodeEntry e.1 e.2)
        = c.entries.map fun e => encodeEntry e.1.interface e.2 := by
      simp [Container.toList, Function.comp_def]
    have hpart : part (encode c) "dependencies"
        = .ok (.list none (c.entries.map fun e => encodeEntry e.1.interface e.2)) := by
      rw [encode, part_record, hlist]
      simp [OrderedMap.lookup]
    -- The mark and the version are the ones that decoding asks for.
    have hformat : Value.equal (.text format) (.text format) = true := by
      simp [Value.equal, Value.sameScalar]
    have hversion : Value.equal (.int version) (.int version) = true := by
      simp [Value.equal, Value.sameScalar, Value.sameNumber]
    unfold decode
    rw [hpart]
    simp only [encode, record, List.map_cons, List.map_nil, Value.lookup, Value.sameScalar,
      String.reduceEq, decide_true, decide_false, if_true, Bool.false_eq_true, if_false,
      Option.getD_some, hformat, hversion, Bool.not_true, itemsOf, Value.parts?, bind, Except.bind,
      hk, Except.mapError]
  · rw [hdefs]
    exact Container.foldl_addEntry_entries h.filled

/-! ### Text and back -/

/-- A record can be written if its fields can. -/
theorem obstacle?_record (fields : List (String × Value)) :
    Json.obstacle? [] (record fields) = none ↔ ∀ f ∈ fields, Json.obstacle? [] f.2 = none := by
  show Json.entriesObstacle? [] _ = none ↔ _
  induction fields with
  | nil => simp [Json.entriesObstacle?]
  | cons f rest ih => simp [Json.entriesObstacle?, Json.scalarObstacle?, Option.or_eq_none_iff, ih]

/-- A list can be written if its items can. -/
theorem obstacle?_list {α : Type} (f : α → Value) (l : List α) :
    Json.obstacle? [] (.list none (l.map f)) = none ↔ ∀ a ∈ l, Json.obstacle? [] (f a) = none := by
  show Json.itemsObstacle? [] _ = none ↔ _
  induction l with
  | nil => simp [Json.itemsObstacle?]
  | cons a rest ih => simp [Json.itemsObstacle?, Option.or_eq_none_iff, ih]

@[simp] theorem obstacle?_text (s : String) : Json.obstacle? [] (.text s) = none := rfl

@[simp] theorem obstacle?_optional (i : Option String) :
    Json.obstacle? [] (Value.optional i) = none := by
  cases i <;> rfl

theorem obstacle?_encodeCall (c : Call) : Json.obstacle? [] (encodeCall c) = none ↔
    ∀ a ∈ c.arguments, Json.entriesObstacle? [] a.properties = none := by
  have hargument : ∀ a : Argument, Json.obstacle? [] (encodeArgument a) = none ↔
      Json.entriesObstacle? [] a.properties = none := by
    intro a
    unfold encodeArgument
    simp [obstacle?_record, Json.obstacle?, Json.scalarObstacle?]
  unfold encodeCall
  simp [obstacle?_record, obstacle?_list, hargument]

theorem obstacle?_encodeEntry (interface : String) (d : Definition) :
    Json.obstacle? [] (encodeEntry interface d) = none ↔
      ∀ a ∈ d.allArguments, Json.entriesObstacle? [] a.properties = none := by
  have hconstructor : Json.obstacle? [] ((d.constructor.map encodeCall).getD .null) = none ↔
      ∀ c ∈ d.constructor.toList, Json.obstacle? [] (encodeCall c) = none := by
    cases d.constructor with
    | none => simp [Json.obstacle?, Json.scalarObstacle?]
    | some c => simp
  unfold encodeEntry DefinitionOf.allArguments
  simp only [obstacle?_record, List.forall_mem_cons, obstacle?_text, obstacle?_optional, obstacle?_list,
    hconstructor, obstacle?_encodeCall, List.mem_flatMap, List.mem_append]
  grind

/-- A container can be written if its properties can. -/
theorem obstacle?_encode (c : Container Definition) : Json.obstacle? [] (encode c) = none ↔
    ∀ e ∈ c.entries, ∀ a ∈ e.2.allArguments, Json.entriesObstacle? [] a.properties = none := by
  have hversion : Json.obstacle? [] (.int version) = none := by decide
  unfold encode Container.toList
  rw [List.map_map]
  simp only [obstacle?_record, List.forall_mem_cons, obstacle?_text, hversion, obstacle?_list,
    Function.comp_apply, obstacle?_encodeEntry]
  simp

/-- A container has a text if its properties can be written. -/
theorem dumps?_isSome_iff (c : Container Definition) : (dumps? c).isSome = true ↔
    ∀ e ∈ c.entries, ∀ a ∈ e.2.allArguments, Json.entriesObstacle? [] a.properties = none :=
  (Json.document?_isSome_iff _).trans (obstacle?_encode c)

theorem bare_record (fields : List (String × Value)) :
    (record fields).bare = record (fields.map fun f => (f.1, f.2.bare)) := by
  simp [record, Value.bare, Value.bareEntries_eq_map, Function.comp_def]

theorem bare_encodeCall (c : Call) : (encodeCall c).bare = encodeCall (c.map Argument.bare) := by
  unfold encodeCall
  rw [bare_record]
  simp [Value.bare, Value.bareItems_eq_map, CallOf.map, Function.comp_def, encodeArgument,
    bare_record, Argument.bare]

theorem bare_encodeEntry (interface : String) (d : Definition) :
    (encodeEntry interface d).bare = encodeEntry interface (d.mapArguments Argument.bare) := by
  unfold encodeEntry
  rw [bare_record]
  obtain ⟨className, identifier, interfaces, constructor, calls⟩ := d
  cases constructor <;>
    simp [Value.bare, Value.bareItems_eq_map, Function.comp_def, DefinitionOf.mapArguments,
      DefinitionOf.map, DefinitionOf.callList, OrderedMap.values, OrderedMap.map, bare_encodeCall]

/-- The document without places is that of the container without places. -/
theorem bare_encode (c : Container Definition) : (encode c).bare = encode c.bare := by
  unfold encode
  rw [bare_record]
  simp [Value.bare, Value.bareItems_eq_map, Function.comp_def, bare_encodeEntry, Container.bare,
    Container.toList, Container.entries_map]

/-- A well formed container with plain properties has a text, and loading the text gives the
container without places, provided that the reader gives the document back. -/
theorem loads_of_dumps? {c : Container Definition} (hc : c.WellFormed) (hj : c.HasJsonProperties)
    (hu : Json.Undone (encode c)) :
    ∃ text k, dumps? c = some text ∧ loads text = .ok k ∧ k.definitions = c.bare := by
  obtain ⟨text, htext⟩ := Option.isSome_iff_exists.mp
    ((dumps?_isSome_iff c).mpr fun e he a ha => (hj e he a ha).2)
  have hbare : c.bare.WellFormed :=
    Container.wellFormed_map (f := Argument.bare) (fun a ha => ⟨ha.name_ne, ha.kind_ne⟩) hc
  obtain ⟨k, hk, hdefs⟩ := decode_encode hbare
  refine ⟨text, k, htext, ?_, hdefs⟩
  unfold loads
  rw [hu text htext, bare_encode]
  exact hk

end Snapshot

end Wiring
