import Wiring.Host.Builtin

/-!
# `Wiring.Host.Callable`: what can be called

Code of the program, classes, and the members of values and of components can be called. A member
comes with the value that it was found on.
-/

set_option autoImplicit false

namespace Wiring

/-- Something that can be called. -/
inductive Callable where
  | function (f : Function)
  | construct (c : ClassRef)
  /-- A method of an object. -/
  | method (object : Nat) (owner : String) (m : Method)
  /-- The constructor of an object, to be run once more. -/
  | initializer (object : Nat) (owner : String) (r : Routine)
  /-- A method that needs no object. -/
  | detached (owner : String) (m : Method)
  /-- A routine of a class that lacks its object. -/
  | unbound (owner name : String) (params : List Param)
  /-- A method of a component, if the value that it was found on has one. -/
  | member (self : Value) (kind : ComponentKind) (m : ComponentMethod)
  /-- The way of a class to a configuration from files. -/
  | fromFiles (c : ClassRef)
  /-- A member of a value of the language, whose class has the given name. -/
  | builtin (self : Value) (className : String) (m : BuiltinMember)
  /-- What a class answers about itself. -/
  | ofClass (c : ClassRef) (name : String)
  deriving Inhabited

end Wiring
