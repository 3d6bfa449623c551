import Wiring.Resolution.Arguments

/-!
# `Wiring.Resolution.Engine`: objects from definitions

A request is answered by an object that was set by hand, or else by building the selected
definition: the arguments of its constructor, the object, and then each of its calls with its
arguments. Nested requests know which definitions are being built above them, and those that name no
identifier do not select one of them. Nothing is kept: each request builds anew.

`step` answers a request given a way to answer nested ones, and `answer` ties the knot with a bound
on the nesting. As every nested build adds to the set of what is being built, the number of entries
in the containers bounds the nesting of containers whose keys are the identifiers of their
definitions; `depth` allows for others too.
-/

set_option autoImplicit false

namespace Wiring

namespace Store

/-! ### Building -/

/-- Requests what a parameter without argument wants. -/
def injection (answer : Answering) (r : Ref Injector) (building : Exclusions) : Injection :=
  fun name interface =>
    Work.mapFault (Failure.mk (some name))
      (answer r ⟨.text interface, .null, building, building⟩ none)

/-- The fault of a build at a call. The definition is named as it then is. -/
def reported {α : Type} (interface : String) (d : Ref DefinitionCell) (index : Nat)
    (method : String) (w : Work Failure α) : Action α := do
  match ← w.outcome with
  | .ok v => pure v
  | .error failure =>
    let x := (← get).definitions.get d
    throw (.resolution ⟨interface, x.identifier, x.className, index, method, failure.argument⟩
      failure.fault)

/-- Makes the object of a definition. Given arguments override the declared ones. -/
def constructDefined (answer : Answering) (r : Ref Injector) (building : Exclusions)
    (d : Ref DefinitionCell) (given : List (String × Value)) : Work Failure Value := do
  let cells ← match (← read d).constructor with
    | some c => do pure (← read c).arguments
    | none => pure []
  let declared ← argumentValues answer r building [] cells
  let arguments := given.foldl (fun found g => OrderedMap.put g.1 g.2 found) declared
  let s ← get
  let registry := s.registries.get (s.injectors.get r).registry
  registry.create s.program (.text (s.definitions.get d).className) arguments
    (some (injection answer r building))

/-- Runs a call of a definition on its object. -/
def runDefinedCall (answer : Answering) (r : Ref Injector) (building : Exclusions)
    (d : Ref DefinitionCell) (object : Value) (c : Ref CallCell) : Work Failure Unit := do
  let method := (← read c).method
  match ← Work.mapFault .plain (valueAttribute object method) with
  | .callable callback =>
    let arguments ← argumentValues answer r building [] (← read c).arguments
    let s ← get
    let registry := s.registries.get (s.injectors.get r).registry
    let passed ← registry.bind s.program callback arguments (some (injection answer r building))
    let _ ← Work.mapFault .plain (invoke answer callback passed)
  | _ => throw (.plain (.definition (.noSuchMethod (← read d).className method)))

/-- Runs calls in turn, of which the first has the given number. -/
def runDefinedCalls (answer : Answering) (r : Ref Injector) (building : Exclusions)
    (interface : String) (d : Ref DefinitionCell) (object : Value) :
    Nat → List (Ref CallCell) → Action Unit
  | _, [] => pure ()
  | index, c :: rest => do
    let method := (← read c).method
    reported interface d index method (runDefinedCall answer r building d object c)
    runDefinedCalls answer r building interface d object (index + 1) rest

/-- Makes the object of a definition and runs its calls. With given arguments, they are not run. -/
def assemble (answer : Answering) (r : Ref Injector) (interface : String) (d : Ref DefinitionCell)
    (building : Exclusions) (given : Given) : Action Value := do
  let object ← reported interface d 0 constructorMethod
    (constructDefined answer r building d (given.getD []))
  if given.isNone then
    runDefinedCalls answer r building interface d object 1 (← read d).callList
  pure object

/-- Builds a selected definition. -/
def build (answer : Answering) (r : Ref Injector) (interface : String) (d : Ref DefinitionCell)
    (building : Exclusions) (given : Given) : Action Value := do
  let x ← read d
  let key : DefinitionKey := ⟨interface, x.identifier⟩
  note (.opened key d.index x.className)
  report [.creating key x.className]
  let object ← assemble answer r interface d (building.insert key) given
  note (.closed key d.index)
  pure object

/-! ### Requests -/

/-- The object that was set for a key. The default one may be excluded. -/
def instance? (r : Ref Injector) (k : DefinitionKey) (exclude : Exclusions) :
    Action (Option Value) := do
  if k.identifier.isNone && exclude.contains k then pure none
  else
    match (← read r).instances.get? k with
    | some .null | none => pure none
    | some v => do pure (some (← look v))

/-- Answers a request, given a way to answer nested ones. With given arguments, objects that were
set are passed over. -/
def step (answer : Answering) (r : Ref Injector) (q : Request) (given : Given) : Action Value := do
  note (.requested q.interface q.identifier q.exclude q.building)
  let key ← Work.lift q.key?
  match ← (if given.isNone then instance? r key q.exclude else pure none) with
  | some v => pure v
  | none =>
    let s ← get
    let identifier := fun d => (s.definitions.get d).identifier
    let d ← Work.lift (Selection.select identifier
      (s.containers.get (s.injectors.get r).container) key q.exclude q.building)
    build answer r key.interface d q.building given

/-- Answers nested requests down to a depth. -/
def answer : Nat → Answering
  | 0 => fun _ _ _ => Work.foreign .recursion
  | depth + 1 => fun r q given => step (answer depth) r q given

/-- A depth that no resolution exceeds unless it goes round for ever: below it, a definition would
be built under the same exclusions as above. -/
def depth (s : Store) : Nat :=
  let entries := (s.containers.items.map Container.size).foldl (· + ·) 0
  (entries + 2) * (entries + 2)

/-- Answers a request from outside, with a journal of its own. -/
def resolve (s : Store) (r : Ref Injector) (q : Request) (given : Given) :
    Except Fault Value × Store :=
  (answer s.depth r q given).run { s with journal := [] }

/-- Answers a request from outside, and checks the class of the answer. -/
def request (r : Ref Injector) (q : Request) (given : Given) (expected : Option ClassRef) :
    Action Value := do
  let (result, s) := (← get).resolve r q given
  set s
  let v ← Work.lift result
  checkExpected q.interface expected v
  pure v

/-- Answers a request for each definition of an interface. -/
def requestAll (r : Ref Injector) (interface : Value) :
    Action (List (Option String × Value)) := do
  answerAll (answer (← get).depth) r interface

/-- The value of an argument by a parser, asked for from outside. -/
def requestValue (r : Ref Injector) (parser : Parser (Ref Config)) (a : Ref Argument)
    (building : Exclusions) : Action Value := do
  parsedValue (answer (← get).depth) r parser a building

/-- Runs something that can be called from outside. -/
def runCallable (c : Callable) (passed : Passed) : Action Value := do
  invoke (answer (← get).depth) c passed

/-- Binds declared arguments to the parameters of something that can be called. -/
def bindArguments (r : Ref Registry) (c : Callable) (arguments : List (String × Value))
    (inject : Option Injection) : Action Passed := do
  let s ← get
  Work.mapFault Failure.fault ((s.registries.get r).bind s.program c arguments inject)

/-- Makes an object of a registered class. -/
def createObject (r : Ref Registry) (className : Value) (arguments : List (String × Value))
    (inject : Option Injection) : Action Value := do
  let s ← get
  Work.mapFault Failure.fault
    ((s.registries.get r).create s.program className arguments inject)

/-- Asks a core for an object. -/
def requestCore (r : Ref Core) (interface identifier : Value) (expected : Option ClassRef)
    (given : Given) : Action Value := do
  request (← openInjector r) (.plain interface identifier) given expected

/-- Asks a core for an object of each definition of an interface. -/
def requestAllCore (r : Ref Core) (interface : Value) : Action (List (Option String × Value)) := do
  requestAll (← openInjector r) interface

end Store

end Wiring
