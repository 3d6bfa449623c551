import Wiring.Store

/-!
# `Wiring.Store.Values`: values as they are now

A list or a mapping that others may hold too gets a place among the collections of the store, and a
component refers to its cell. Looking at a value reads both again, so that whoever holds it sees
what became of it meanwhile. `settle` gives a place to every list and mapping of a value that has
none yet.
-/

set_option autoImplicit false

namespace Wiring

/-- The value that names a component. -/
def Component.value (c : Component) : Value := .component c []

/-- A parser as a value. -/
def Parser.value (p : Parser (Ref Config)) : Value := .parser (p.map Ref.index)

namespace Store

variable {ε : Type}

/-! ### Looking at values -/

/-- The components of some cells. -/
def components {α : Type} (kind : ComponentKind) (refs : List (Ref α)) : List Value :=
  refs.map fun r => Component.value ⟨kind, r.index⟩

/-- A component that may be missing. -/
def component? {α : Type} (kind : ComponentKind) (r : Option (Ref α)) : Value :=
  match r with
  | some r => Component.value ⟨kind, r.index⟩
  | none => .null

/-- What a component that is compared by what it holds is made of. -/
def partsOf (s : Store) (c : Component) : List (String × Value) :=
  match c.kind with
  | .argument =>
    let a := s.arguments.get ⟨c.id⟩
    [("name", .text a.name), ("kind", .text a.kind), ("properties", .map none a.properties)]
  | .call =>
    let x := s.calls.get ⟨c.id⟩
    [("method_name", .text x.method), ("arguments", .list none (components .argument x.arguments)),
      ("call_id", Value.optional x.identifier)]
  | .definition =>
    let d := s.definitions.get ⟨c.id⟩
    [("class_name", .text d.className), ("identifier", Value.optional d.identifier),
      ("interfaces", .list none (d.interfaces.map .text)),
      ("constructor", component? .call d.constructor)] ++
      d.calls.entries.map fun e => (e.1, Component.value ⟨.call, e.2.index⟩)
  | .container =>
    (s.containers.get ⟨c.id⟩).toList.map fun e =>
      (e.1, Component.value ⟨.definition, e.2.index⟩)
  | .settings => (s.settings.get ⟨c.id⟩).parts
  | .context => [((s.contexts.get ⟨c.id⟩).text, .null)]
  | _ => []

/-- The items of the list at a place. -/
def itemsAt (s : Store) (place : Option Nat) (items : List Value) : List Value :=
  match place.bind fun n => s.collections[n]? with
  | some (.list now) => now
  | _ => items

/-- The entries of the mapping at a place. -/
def entriesAt (s : Store) (place : Option Nat) (entries : List (Value × Value)) :
    List (Value × Value) :=
  match place.bind fun n => s.collections[n]? with
  | some (.map now) => now
  | _ => entries

/-- Whether a collection is one of those on the way. -/
def onTheWay (way : List Nat) (place : Option Nat) : Bool := place.any way.contains

/-- A value as it is now, down to a depth. What is met again inside itself is not entered again. -/
def lookAt (s : Store) : Nat → List Nat → List Component → Value → Value
  | 0, _, _, v => v
  | depth + 1, way, around, v =>
    match v with
    | .list p items =>
      if onTheWay way p then .list p []
      else .list p ((s.itemsAt p items).map (s.lookAt depth (p.toList ++ way) around))
    | .map p entries =>
      if onTheWay way p then .map p []
      else
        .map p ((s.entriesAt p entries).map fun e =>
          (e.1, s.lookAt depth (p.toList ++ way) around e.2))
    | .component c _ =>
      if around.contains c then .component c []
      else .component c ((s.partsOf c).map fun e => (e.1, s.lookAt depth way (c :: around) e.2))
    | v => v

/-- Whether a value comes to an end, down to a depth: none of its collections holds itself. -/
def endsAt (s : Store) : Nat → List Nat → Value → Bool
  | 0, _, _ => true
  | depth + 1, way, v =>
    match v with
    | .list p items =>
      !onTheWay way p && (s.itemsAt p items).all (s.endsAt depth (p.toList ++ way))
    | .map p entries =>
      !onTheWay way p &&
        (s.entriesAt p entries).all fun e => s.endsAt depth (p.toList ++ way) e.2
    | _ => true

/-- A depth that no value exceeds. -/
def nesting (s : Store) : Nat :=
  s.collections.length + 2 * (s.arguments.items.length + s.calls.items.length +
    s.definitions.items.length + s.containers.items.length + s.settings.items.length) + 8

/-- A value as it is now. -/
def current (s : Store) (v : Value) : Value := s.lookAt s.nesting [] [] v

/-- Named values as they are now. -/
def currentAll (s : Store) (vs : List (String × Value)) : List (String × Value) :=
  vs.map fun e => (e.1, s.current e.2)

/-- Looks at a value. -/
def look (v : Value) : Work ε Value := do pure ((← get).current v)

/-- Looks at a value that is to be written out, so that it must come to an end. -/
def lookThrough (v : Value) : Action Value := do
  let s ← get
  if s.endsAt s.nesting [] v then pure (s.current v) else Work.foreign .recursion

/-! ### Views -/

/-- The argument that a cell stands for. -/
def argument (s : Store) (r : Ref Argument) : Argument :=
  let a := s.arguments.get r
  { a with properties := a.properties.map fun e => (e.1, s.current e.2) }

/-- The call that a cell stands for. -/
def call (s : Store) (r : Ref CallCell) : Call := (s.calls.get r).map s.argument

/-- The definition that a cell stands for. -/
def definition (s : Store) (r : Ref DefinitionCell) : Definition :=
  (s.definitions.get r).map s.call

/-- The container that a cell stands for. -/
def container (s : Store) (r : Ref ContainerCell) : Container Definition :=
  (s.containers.get r).map s.definition

/-! ### Collections -/

/-- Gives a place to a collection. -/
def allocate (c : Collection) : Work ε Nat :=
  modifyGet fun s => (s.collections.length, { s with collections := s.collections ++ [c] })

mutual

/-- Gives a place to every list and mapping of a value that has none. -/
def settle : Value → Work ε Value
  | .list none items => do
    let items ← settleItems items
    pure (.list (some (← allocate (.list items))) items)
  | .map none entries => do
    let entries ← settleEntries entries
    pure (.map (some (← allocate (.map entries))) entries)
  | v => pure v

/-- Settles the items of a list. -/
def settleItems : List Value → Work ε (List Value)
  | [] => pure []
  | v :: rest => do
    let v ← settle v
    pure (v :: (← settleItems rest))

/-- Settles the values of a mapping. -/
def settleEntries : List (Value × Value) → Work ε (List (Value × Value))
  | [] => pure []
  | (k, v) :: rest => do
    let v ← settle v
    pure ((k, v) :: (← settleEntries rest))

end

/-- Settles named values. -/
def settleAll : List (String × Value) → Work ε (List (String × Value))
  | [] => pure []
  | (k, v) :: rest => do
    let v ← settle v
    pure ((k, v) :: (← settleAll rest))

/-- Changes the collection at a place. -/
def amend (place : Nat) (f : Collection → Collection) : Work ε Unit :=
  modify fun s => { s with collections := s.collections.modify place f }

/-- Writes an entry of the mapping at a place. -/
def putEntry (place : Nat) (key value : Value) : Work ε Unit :=
  amend place fun
    | .map entries => .map (Value.put key value entries)
    | c => c

/-- Changes the items of the list at a place. -/
def changeItems (place : Nat) (f : List Value → List Value) : Work ε Unit :=
  amend place fun
    | .list items => .list (f items)
    | c => c

/-- Changes the entries of the mapping at a place. -/
def changeEntries (place : Nat) (f : List (Value × Value) → List (Value × Value)) : Work ε Unit :=
  amend place fun
    | .map entries => .map (f entries)
    | c => c

/-! ### Objects -/

/-- Adds an object and gives its number. -/
def addObject (o : Object) : Work ε Nat :=
  modifyGet fun s => (s.objects.length, { s with objects := s.objects ++ [o] })

/-- Changes an object. -/
def changeObject (id : Nat) (f : Object → Object) : Work ε Unit :=
  modify fun s => { s with objects := s.objects.modify id f }

/-- The component that a value is, or that an object has as its part. -/
def component (s : Store) : Value → Option Component
  | .component c _ => some c
  | .object id =>
    match (s.objects[id]?).bind Object.part with
    | some (.component c _) => some c
    | _ => none
  | _ => none

/-- What a value is made of: an object that has a part of its own is as good as that part. -/
def content (s : Store) (v : Value) : Value :=
  match v with
  | .object id =>
    match (s.objects[id]?).bind Object.part with
    | some part => s.current part
    | none => v
  | v => v

/-- The class of a value. -/
def classOf (s : Store) : Value → ClassRef
  | .null => .builtin .none
  | .bool _ => .builtin .bool
  | .int _ => .builtin .int
  | .float _ => .builtin .float
  | .text _ => .builtin .text
  | .bytes _ => .builtin .bytes
  | .list _ _ => .builtin .list
  | .map _ _ => .builtin .mapping
  | .path _ => .builtin .path
  | .component c _ => .component c.kind
  | .parser p => .outside p.module p.name
  | .other name => .outside "builtins" name
  | .object id => ((s.objects[id]?).map Object.cls).getD (.builtin .object)

/-- Whether a value belongs to a class or to one below it. -/
def belongsTo (s : Store) (v : Value) (c : ClassRef) : Bool :=
  (s.program.lineage (s.classOf v)).contains c

end Store

end Wiring
