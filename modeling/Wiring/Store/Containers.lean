import Wiring.Store.Declarations

/-!
# `Wiring.Store.Containers`: containers of definition cells

A container keeps a definition under the identifier that it had when it was added. A definition that
gets another identifier later stays where it is.
-/

set_option autoImplicit false

namespace Wiring

namespace Store

/-- Makes a container without definitions. -/
def makeContainer : Action (Ref ContainerCell) := make Container.empty

/-- Adds a definition under an interface, or under all of its own. -/
def addDefinition (r : Ref ContainerCell) (interface : Value) (d : Ref DefinitionCell) :
    Action Unit := do
  let cell ← read d
  let names := match interface with
    | .null => cell.allInterfaces.map Value.text
    | v => [v]
  forM names fun v => do
    let name ← Work.lift ((Container.checkInterface v).mapError .definition)
    change r fun c => c.addOne name cell.identifier d

/-- The definitions of an interface. -/
def definitionsOf (r : Ref ContainerCell) (interface : Value) :
    Action (List (Option String × Ref DefinitionCell)) := do
  let name ← Work.lift ((Container.checkInterface interface).mapError .definition)
  pure ((← read r).definitions name).entries

/-- An identifier that is looked for. What is no text and not null is never found, and what cannot
be a key cannot be looked for. -/
def soughtIdentifier (v : Value) : Except Fault (Bool × Option String) :=
  match v with
  | .null => .ok (true, none)
  | .text s => .ok (true, some s)
  | v => if v.isKey then .ok (false, some v.display) else .error (.foreign .type)

/-- The definition of an interface with an identifier. -/
def definitionOf (r : Ref ContainerCell) (interface identifier : Value) :
    Action (Ref DefinitionCell) := do
  let name ← Work.lift ((Container.checkInterface interface).mapError .definition)
  let (known, i) ← Work.lift (soughtIdentifier identifier)
  let c ← read r
  match (if known then c.find? ⟨name, i⟩ else none) with
  | some d => pure d
  | none => throw (.notFound (c.absence ⟨name, i⟩))

/-- The definition that is to be extended. -/
def baseOf (r : Ref ContainerCell) (interface base : Value) : Action (Ref DefinitionCell) := do
  if !interface.isKey then Work.foreign .type
  let (isName, i) ← Work.lift (soughtIdentifier base)
  let known := match interface with
    | .text _ => isName
    | _ => false
  let c ← read r
  match (if known then c.find? ⟨interface.display, i⟩ else none) with
  | some d => pure d
  | none => throw (.notFound (.base interface.display i))

/-- A copy of a definition with another identifier, and with another class if one is given. -/
def extend (r : Ref ContainerCell) (interface base identifier className : Value) :
    Action (Ref DefinitionCell) := do
  let copied ← copy (← baseOf r interface base)
  setIdentifier copied identifier
  if className.truthy then setClassName copied className
  pure copied

/-! ### Declarations -/

/-- A fault of the container, with the source of the declaration that meets it. -/
def declaredIn (source : String) : Fault → Fault
  | .notFound why => .notFoundIn source why
  | f => f

/-- Makes the definition that a declaration starts from, and gives the interface that it is meant
for. -/
def startDefinition (r : Ref ContainerCell) (d : Declaration) :
    Action (Ref DefinitionCell × Option String) :=
  match d.base with
  | some reference => do
    let (interface, identifier) := d.baseKey reference
    let x ← Work.mapFault (declaredIn d.source) (extend r (.text interface)
      (Value.optional identifier) (Value.optional d.identifier) (Value.optional d.className))
    pure (x, d.interface.orElse fun _ => if interface = "" then none else some interface)
  | none => do
    let x ← declareDefinition (Value.optional d.className) (Value.optional d.identifier)
      (.list none [])
    pure (x, d.interface)

/-- Adds the calls of a declaration to a definition. -/
def addCalls (x : Ref DefinitionCell) : List Call → Action Unit
  | [] => pure ()
  | c :: rest => do
    addCall x (← placeCall c)
    addCalls x rest

/-- Makes the definition of a declaration against a container, which is left as it is. -/
def createDefinition (r : Ref ContainerCell) (d : Declaration) : Action (Ref DefinitionCell) := do
  let (x, interface) ← startDefinition r d
  addCalls x d.calls
  let cell ← read x
  setInterfaces x (.list none ((d.targets interface cell.className).map .text))
  pure x

/-- Adds the definition of a declaration to a container. -/
def applyDeclaration (r : Ref ContainerCell) (d : Declaration) : Action Unit := do
  addDefinition r .null (← createDefinition r d)

/-! ### Whole containers -/

/-- Makes the cells of the entries of a catalogue. Entries with one number share their cell. -/
def placeEntries (c : ContainerCell) (known : List (Nat × Ref DefinitionCell)) :
    List (DefinitionKey × Entry) → Action ContainerCell
  | [] => pure c
  | (k, e) :: rest => do
    match known.lookup e.ident with
    | some d => placeEntries (c.addOne k.interface k.identifier d) known rest
    | none =>
      let d ← place e.definition
      placeEntries (c.addOne k.interface k.identifier d) ((e.ident, d) :: known) rest

/-- Makes the cells of a catalogue. -/
def install (c : Catalogue) : Action (Ref ContainerCell) := do
  make (← placeEntries .empty [] c.container.entries)

/-- Reads a container from the text of a snapshot. -/
def restore (text : String) : Action (Ref ContainerCell) := do
  install (← Work.lift (Snapshot.loads text))

/-- Reads a container from a document. -/
def decode (document : Value) : Action (Ref ContainerCell) := do
  install (← Work.lift (Snapshot.decode document))

/-- Writes the snapshot of a container as text. -/
def snapshot (r : Ref ContainerCell) : Action String := do
  let c := (← get).container r
  match Snapshot.dumps? c with
  | some s => pure s
  | none => throw (.foreign (Snapshot.refusal c))

end Store

end Wiring
