import Wiring.Store.Copying

/-!
# `Wiring.Store.Declarations`: arguments, calls and definitions as cells

An argument or a call may belong to several holders, and all of them see its changes. Adding a call
without identifier to a definition gives the call cell the next free one.
-/

set_option autoImplicit false

namespace Wiring

namespace Store

/-! ### Arguments and calls -/

/-- Declares an argument. -/
def declareArgument (name kind : Value) (properties : List (Value × Value)) :
    Action (Ref Argument) := do
  make (← Work.lift ((Argument.declare name kind properties).mapError .definition))

/-- Writes a property of an argument. -/
def setProperty (r : Ref Argument) (name value : Value) : Action Unit :=
  if name.isKey then change r fun a => a.setProperty name value else Work.foreign .type

/-- Declares a call. -/
def declareCall (method identifier : Value) (arguments : List (Ref Argument)) :
    Action (Ref CallCell) := do
  make (← Work.lift ((CallOf.declare method identifier arguments).mapError .definition))

/-- Adds an argument to a call. -/
def addArgument (r : Ref CallCell) (a : Ref Argument) : Action Unit :=
  change r fun c => c.addArgument a

/-! ### Definitions -/

/-- Declares a definition without calls. -/
def declareDefinition (className identifier interfaces : Value) : Action (Ref DefinitionCell) := do
  let d : DefinitionCell ← Work.lift (DefinitionOf.declare className identifier interfaces)
  make d

/-- Changes the class of a definition. -/
def setClassName (r : Ref DefinitionCell) (v : Value) : Action Unit := do
  let name ← Work.lift ((DefinitionOf.checkClassName v).mapError .definition)
  change r fun d => { d with className := name }

/-- Changes the identifier of a definition. -/
def setIdentifier (r : Ref DefinitionCell) (v : Value) : Action Unit := do
  let d ← read r
  let i ← Work.lift ((DefinitionOf.checkIdentifier d.className v).mapError .definition)
  change r fun d => { d with identifier := i }

/-- Changes the declared interfaces of a definition. -/
def setInterfaces (r : Ref DefinitionCell) (v : Value) : Action Unit := do
  let d ← read r
  let names ← Work.lift (DefinitionOf.checkInterfaces d.className v)
  change r fun d => { d with interfaces := names }

/-- Adds a call to a definition, and gives it an identifier if it needs one. -/
def addCall (r : Ref DefinitionCell) (c : Ref CallCell) : Action Unit := do
  let place := (← read r).placeFor (← read c)
  match place with
  | .constructor => pure ()
  | .keyed i => change c fun x => { x with identifier := some i }
  change r fun d => d.keep place c

/-! ### Whole definitions -/

/-- Makes the cell of an argument. -/
def placeArgument (a : Argument) : Action (Ref Argument) := do
  make { a with properties := ← settleEntries a.properties }

/-- Makes the cells of a call. -/
def placeCall (c : Call) : Action (Ref CallCell) := do
  let arguments ← c.arguments.mapM placeArgument
  make ⟨c.method, c.identifier, arguments⟩

/-- Makes the cells of the calls of a table. -/
def placeCalls (t : OrderedMap String (Ref CallCell)) :
    List (String × Call) → Action (OrderedMap String (Ref CallCell))
  | [] => pure t
  | (i, c) :: rest => do placeCalls (t.insert i (← placeCall c)) rest

/-- Makes the cells of a definition. -/
def place (d : Definition) : Action (Ref DefinitionCell) := do
  let constructor ← d.constructor.mapM placeCall
  let calls ← placeCalls .empty d.calls.entries
  make ⟨d.className, d.identifier, d.interfaces, constructor, calls⟩

end Store

end Wiring
