import Wiring.Resolution.Members
import Wiring.Store.BuiltinMethods

/-!
# `Wiring.Resolution.Invocation`: running what can be called

What is called binds its arguments to its parameters. Code of the program then records the run with
the object it belongs to, and raises its fault or gives its answer. Static methods, class methods
and functions belong to no object. Running the constructor of an object once more makes its record
anew.
-/

set_option autoImplicit false

namespace Wiring

namespace Store

/-- The answer of a routine that may belong to an object. -/
def answerOf (object : Option Nat) : Answer → Action Value
  | .literal l => evaluate l
  | .self => pure ((object.map Value.object).getD .null)
  | .recorded name =>
    match object with
    | none => Work.foreign .attribute
    | some id => do
      match (← get).objects[id]? with
      | some o => look (boundTo o.init name)
      | none => pure .null

/-- Runs a routine that records nothing. -/
def runDetached (r : Routine) (passed : Passed) : Action Value := do
  let _ ← bound r.params passed
  raising r
  answerOf none r.answer

/-- Makes a configuration of files by way of a class. -/
def readFiles (c : ClassRef) (passed : Passed) : Action Value := do
  let paths ← bound [⟨"paths", .rest, none, .other⟩] passed
  let names := ((← look (boundTo paths "paths")).parts?.getD []).map Value.display
  let made ← makeConfigOfIni names
  let v ← construct c .nothing
  match (← get).component v with
  | some x =>
    assign (α := Config) ⟨x.id⟩ made
    pure v
  | none => Work.foreign .attribute

/-- What something does that can be called. -/
def perform (answer : Answering) (c : Callable) (passed : Passed) : Action Value := do
  let p := (← get).program
  match c with
  | .function f => runDetached f.routine passed
  | .construct c => construct c passed
  | .detached _ m => runDetached m.routine passed
  | .unbound _ _ _ => Work.foreign .type
  | .method id _ m =>
    let b ← bound m.routine.params passed
    changeObject id fun o => o.record m.name b
    raising m.routine
    answerOf (some id) m.routine.answer
  | .initializer id _ r =>
    let b ← bound r.params passed
    changeObject id fun o => o.renew b
    raising r
    pure .null
  | .member self kind m =>
    let b ← lookAll (← bound m.params passed)
    match (← get).component self with
    | some x =>
      if x.kind = kind then runMember answer self x m.name (boundTo b)
      else Work.foreign .attribute
    | none => Work.foreign .attribute
  | .fromFiles c => readFiles c passed
  | .builtin self _ m => runBuiltin self m passed
  | .ofClass c name =>
    let _ ← bound [] passed
    match name with
    | "mro" => settle (.list none ((p.lineage c).map fun _ => .other "type"))
    | "__subclasses__" => settle (.list none [])
    | _ => pure .null

/-- Runs something that can be called. -/
def invoke (answer : Answering) (c : Callable) (passed : Passed) : Action Value :=
  running c (perform answer c passed)

end Store

end Wiring
