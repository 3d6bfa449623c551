import Wiring.Host.Callable
import Wiring.Resolution.Exclusion

/-!
# `Wiring.Host.Object`: the objects of the host program

An object records the parameters that its constructor was last run with and the calls of its methods
since then. An object of a class below one that the program does not declare has a part of that
class.

The journal tells what was done while objects were built, latest first.
-/

set_option autoImplicit false

namespace Wiring

/-- Parameters with what they are bound to, in the order of the parameters. -/
abbrev Bindings := List (String × Value)

/-- An object. -/
structure Object where
  cls : ClassRef
  init : Bindings
  calls : List (String × Bindings)
  part : Option Value
  deriving Inhabited

namespace Object

/-- Records a call of a method. -/
def record (o : Object) (name : String) (b : Bindings) : Object :=
  { o with calls := o.calls ++ [(name, b)] }

/-- Records a run of the constructor. -/
def renew (o : Object) (b : Bindings) : Object := { o with init := b, calls := [] }

end Object

/-- What is done while objects are built. -/
inductive JournalEntry where
  /-- A definition was asked for, with what the asker excludes and what is being built. -/
  | requested (interface identifier : Value) (exclude building : Exclusions)
  /-- The building of a definition began. -/
  | opened (key : DefinitionKey) (ident : Nat) (className : String)
  /-- The building of a definition ended. -/
  | closed (key : DefinitionKey) (ident : Nat)
  /-- Something that can be called began to run. -/
  | ran (c : Callable)
  /-- It came to its end, with a fault or without. -/
  | left (c : Callable) (failed : Bool)
  deriving Inhabited

end Wiring
