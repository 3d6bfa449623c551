import Wiring.Resolution.Selection
import Wiring.Store.Objects

/-!
# `Wiring.Resolution.Request`: asking for objects

A request names an interface and perhaps an identifier. It tells what may not be selected without an
identifier, and what is being built around it. Whoever needs objects while others are built is given
a way to have requests answered.
-/

set_option autoImplicit false

namespace Wiring

/-- What is asked for. -/
structure Request where
  interface : Value
  identifier : Value
  /-- What may not be selected without an identifier. -/
  exclude : Exclusions
  /-- What is being built. -/
  building : Exclusions
  deriving Inhabited

/-- Arguments for a constructor, which are given in place of declared ones. -/
abbrev Given := Option (List (String × Value))

/-- A way to answer requests to injectors. -/
abbrev Answering := Ref Injector → Request → Given → Action Value

namespace Request

/-- A request from outside of any build. -/
def plain (interface identifier : Value) : Request := ⟨interface, identifier, .empty, .empty⟩

/-- What a request asks for, when its names are names. -/
def key? (r : Request) : Except Fault DefinitionKey :=
  match r.interface.name? with
  | none => .error (.definition .requestedInterface)
  | some interface =>
    ((DefinitionOf.checkIdentifier interface r.identifier).mapError .definition).map fun i =>
      ⟨interface, i⟩

end Request

namespace Store

/-- Checks that an object is of the expected class. -/
def checkExpected (interface : Value) (expected : Option ClassRef) (v : Value) : Action Unit := do
  match expected with
  | none => pure ()
  | some c =>
    let s ← get
    if s.belongsTo v c then pure ()
    else
      throw (.definition (.unexpectedType interface.display
        (s.program.shortName (s.classOf v)) (s.program.shortName c)))

/-- Answers a request for each of some identifiers in turn. -/
def answerEach (answer : Answering) (r : Ref Injector) (interface : String) :
    List (Option String) → Action (List (Option String × Value))
  | [] => pure []
  | i :: rest => do
    let v ← answer r (.plain (.text interface) (Value.optional i)) none
    let more ← answerEach answer r interface rest
    pure ((i, v) :: more)

/-- An object for each definition of an interface. -/
def answerAll (answer : Answering) (r : Ref Injector) (interface : Value) :
    Action (List (Option String × Value)) := do
  let container := (← read r).container
  let found ← definitionsOf container interface
  answerEach answer r interface.display (found.map Prod.fst)

end Store

end Wiring
