import Wiring.Host.Program
import Wiring.OrderedMap

/-!
# `Wiring.Registry`: the classes and functions that definitions may name

Only what is registered can be built or called. A class may have several names, and the first of
them that still is its own is the interface it stands for.
-/

set_option autoImplicit false

namespace Wiring

/-- The registered classes and functions by name. -/
structure Registry where
  classes : OrderedMap String ClassRef
  functions : OrderedMap String Function
  deriving Inhabited

namespace Registry

/-- The registry without entries. -/
def empty : Registry := ⟨.empty, .empty⟩

/-- The name to register under: the given one, or the full name. -/
def nameOr (given : Option String) (full : String) : String :=
  match given with
  | some n => if n = "" then full else n
  | none => full

/-- Registers a class. -/
def register (r : Registry) (p : Program) (c : ClassRef) (name : Option String) : Registry :=
  { r with classes := r.classes.insert (nameOr name (p.fullName c)) c }

/-- Registers a function. -/
def registerFunction (r : Registry) (f : Function) (name : Option String) : Registry :=
  { r with functions := r.functions.insert (nameOr name (f.module ++ "." ++ f.qualifiedName)) f }

/-- The class of a name. A name that is no text is unknown, and one that cannot be a key is a fault
of its own. -/
def class? (r : Registry) (name : Value) : Except Fault ClassRef :=
  match name with
  | .text s =>
    match r.classes.get? s with
    | some c => .ok c
    | none => .error (.definition (.classUnknown s))
  | .bytes _ => .error (.foreign .type)
  | v => .error (.foreign (if v.isKey then .attribute else .type))

/-- The function of a name. -/
def function? (r : Registry) (name : Value) : Except Fault Function :=
  match name with
  | .text s =>
    match r.functions.get? s with
    | some f => .ok f
    | none => .error (.definition (.functionUnknown s))
  | v => .error (if v.isKey then .definition (.functionUnknown v.display) else .foreign .type)

/-- The interface that a class stands for. -/
def interfaceName (r : Registry) (p : Program) (c : ClassRef) : String :=
  match r.classes.entries.find? fun e => e.2 = c with
  | some e => e.1
  | none => p.fullName c

end Registry

end Wiring
