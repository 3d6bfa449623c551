import Wiring.Resolution.Invocation

/-!
# `Wiring.Resolution.Arguments`: the values of declared arguments

The kind of an argument names the parser that finds its value, and the properties are for that
parser. A dependency and a call may request an object. When they name no identifier, they do not get
one of the definitions that are being built. An identifier between percent signs is a key of the
configuration.

Arguments are read when their turn comes, since objects that were built before may have changed
them.
-/

set_option autoImplicit false

namespace Wiring

namespace Store

/-! ### Identifiers -/

/-- Whether an identifier stands for a key of a configuration. -/
def isConfigKey (s : String) : Bool :=
  decide (3 ≤ s.length) && s.toList.head? = some '%' && s.toList.getLast? = some '%'

/-- The key that an identifier stands for. -/
def configKeyOf (s : String) : String := String.ofList ((s.toList.drop 1).dropLast)

/-- The identifier that a declared one stands for: that of the configuration under its key, if it is
between percent signs. Nothing stands for no identifier. -/
def requestedIdentifier (v : Value) (config : Option (Ref Config)) : Action Value := do
  if !v.truthy then pure .null
  else
    match v with
    | .text s =>
      if isConfigKey s then
        match config with
        | none => throw (.definition (.identifierWithoutConfig s))
        | some c =>
          match ← configValue c (.text (configKeyOf s)) .null with
          | .null => pure .null
          | found => do pure (.text ((← get).content found).display)
      else pure v
    | v =>
      match ((← get).content v).length? with
      | none => Work.foreign .type
      | some n =>
        if n < 3 then pure v
        else
          match v with
          | .bytes _ => Work.foreign .type
          | _ => Work.foreign .attribute

/-- The configuration of a parser: its own, or else that of the injector. -/
def configFor (r : Ref Injector) (own : Option (Ref Config)) : Action (Option (Ref Config)) := do
  match own with
  | some c => pure (some c)
  | none => do pure (← read r).config

/-- The identifier that an argument requests. -/
def argumentIdentifier (r : Ref Injector) (own : Option (Ref Config)) (a : Argument) :
    Action Value := do
  requestedIdentifier (a.property "id") (← configFor r own)

/-! ### Parsers -/

/-- Requests an object for an argument. -/
def dependency (answer : Answering) (r : Ref Injector) (interface identifier : Value)
    (building : Exclusions) : Action Value :=
  if identifier.truthy then answer r ⟨interface, identifier, .empty, building⟩ none
  else answer r ⟨interface, .null, building, building⟩ none

/-- The value of a dependency argument. -/
def dependencyValue (answer : Answering) (r : Ref Injector) (own : Option (Ref Config))
    (a : Argument) (building : Exclusions) : Action Value := do
  let interface := a.property "interface"
  if !interface.truthy then throw (.definition (.interfaceMissing a.name))
  dependency answer r interface (← argumentIdentifier r own a) building

/-- Runs what stands under the name of an attribute. The owner is named when nothing does. -/
def runAttribute (answer : Answering) (a : Argument) (owner method : String) (found : Attribute) :
    Action Value :=
  match found with
  | .missing => throw (.definition (.methodUnknown a.name owner method))
  | .plain => Work.foreign .type
  | .callable c => invoke answer c .nothing

/-- The name of the method that an argument calls. -/
def methodName (a : Argument) : Action Value := do
  let method := a.property "method"
  if !method.truthy then throw (.definition (.methodMissing a.name))
  pure method

/-- The value of an argument that calls a method of an object. -/
def objectCall (answer : Answering) (r : Ref Injector) (own : Option (Ref Config)) (a : Argument)
    (building : Exclusions) : Action Value := do
  let method ← methodName a
  let identifier ← argumentIdentifier r own a
  let target ← dependency answer r (a.property "interface") identifier building
  match method with
  | .text m =>
    let s ← get
    let owner := s.program.shortName (s.classOf target)
    runAttribute answer a owner m (← valueAttribute target m)
  | _ => Work.foreign .type

/-- The value of an argument that calls a method of a class. -/
def classCall (answer : Answering) (r : Ref Injector) (a : Argument) : Action Value := do
  let method ← methodName a
  let className := a.property "class"
  let registry ← read (← read r).registry
  let c ← Work.lift (registry.class? className)
  match method with
  | .text m => do runAttribute answer a className.display m ((← get).classAttribute c m)
  | _ => Work.foreign .type

/-- The value of a call argument. -/
def callValue (answer : Answering) (r : Ref Injector) (own : Option (Ref Config)) (a : Argument)
    (building : Exclusions) : Action Value := do
  let function := a.property "function"
  if (a.property "interface").truthy then objectCall answer r own a building
  else if (a.property "class").truthy then classCall answer r a
  else if function.truthy then
    let registry ← read (← read r).registry
    let f ← Work.lift (registry.function? function)
    invoke answer (.function f) .nothing
  else throw (.definition (.targetMissing a.name))

/-- The value of a configuration argument. -/
def configArgument (r : Ref Injector) (own : Option (Ref Config)) (a : Argument) :
    Action Value := do
  let key := a.property "key"
  if !key.truthy then throw (.definition (.keyMissing a.name))
  match ← configFor r own with
  | none => throw (.definition (.keyWithoutConfig a.name key.display))
  | some c => configValue c key (a.property "default")

/-- What a probe answers: all that it is given. -/
def probeValue (a : Argument) (building : Exclusions) : Action Value :=
  settle (.list none [.text "probe", .text a.kind, .text a.name, .map none a.properties,
    .list none (building.listed.map fun k =>
      .list none [.text k.interface, Value.optional k.identifier])])

/-- The value of an argument by a parser. -/
def parsedValue (answer : Answering) (r : Ref Injector) (parser : Parser (Ref Config))
    (cell : Ref Argument) (building : Exclusions) : Action Value := do
  let a := (← get).argument cell
  match parser with
  | .null => pure .null
  | .scalar => pure (a.property "value")
  | .array => settle (.map none a.properties)
  | .dependency own => dependencyValue answer r own a building
  | .call own => callValue answer r own a building
  | .config own => configArgument r own a
  | .probe => probeValue a building

/-- The value of a declared argument. -/
def argumentValue (answer : Answering) (r : Ref Injector) (cell : Ref Argument)
    (building : Exclusions) : Action Value := do
  let kind := (← read cell).kind
  match (← read r).parsers.get? kind with
  | some parser => parsedValue answer r parser cell building
  | none => throw (.definition (.parserMissing kind))

/-- The values of declared arguments by name, behind those already found. -/
def argumentValues (answer : Answering) (r : Ref Injector) (building : Exclusions) :
    List (String × Value) → List (Ref Argument) → Work Failure (List (String × Value))
  | found, [] => pure found
  | found, cell :: rest => do
    let name := (← Store.read cell).name
    let v ← Work.mapFault (Failure.mk (some name)) (argumentValue answer r cell building)
    argumentValues answer r building (OrderedMap.put name v found) rest

end Store

end Wiring
