import Wiring.Store.Attributes

/-!
# `Wiring.Resolution.Filling`: declared arguments and the parameters that they fill

Declared arguments are bound to the parameters of their names. A parameter without one keeps its
default, and without a default it is requested when its annotation is a class from outside the
language. Parameters that take arguments by position only are passed by position, all others by
name, and what is left over goes to the parameter that collects options.
-/

set_option autoImplicit false

namespace Wiring

/-- A fault while arguments are found or used, with the argument at which it arose. -/
structure Failure where
  argument : Option String
  fault : Fault
  deriving Inhabited

/-- A fault that belongs to no argument. -/
def Failure.plain (f : Fault) : Failure := ⟨none, f⟩

/-- How a parameter without argument is found: by its name and the interface that it wants. -/
abbrev Injection := String → String → Work Failure Value

namespace Registry

/-- Removes the argument of a name. -/
def without (name : String) (arguments : List (String × Value)) : List (String × Value) :=
  arguments.filter fun a => a.1 ≠ name

/-- The value of a parameter without argument and default. -/
def request (r : Registry) (p : Program) (resolved : Bool) (callable : String)
    (inject : Option Injection) (param : Param) : Work Failure Value :=
  match p.wanted? resolved param.annotation, inject with
  | some c, some inject => inject param.name (r.interfaceName p c)
  | _, _ => throw (.plain (.definition (.parameterUnfilled param.name callable)))

/-- Passes a value to a parameter, before the arguments that are already passed. -/
def pass (param : Param) (v : Value) (passed : Passed) : Passed :=
  if param.kind = .positional then { passed with positional := v :: passed.positional }
  else { passed with named := (param.name, v) :: passed.named }

/-- Fills parameters in order. The answer holds what is passed, the arguments left over, and whether
a parameter collects them. -/
def fill (r : Registry) (p : Program) (resolved : Bool) (callable : String)
    (inject : Option Injection) :
    List Param → List (String × Value) →
      Work Failure (Passed × List (String × Value) × Bool)
  | [], left => pure (.nothing, left, false)
  | param :: rest, left =>
    match param.kind with
    | .options => do
      let (passed, left, _) ← r.fill p resolved callable inject rest left
      pure (passed, left, true)
    | .rest => r.fill p resolved callable inject rest left
    | _ =>
      match left.lookup param.name with
      | some v => do
        let (passed, left, collects) ←
          r.fill p resolved callable inject rest (without param.name left)
        pure (pass param v passed, left, collects)
      | none =>
        if param.default.isSome then r.fill p resolved callable inject rest left
        else do
          let v ← r.request p resolved callable inject param
          let (passed, left, collects) ← r.fill p resolved callable inject rest left
          pure (pass param v passed, left, collects)

/-- Binds declared arguments to the parameters of something callable. -/
def bind (r : Registry) (p : Program) (c : Callable) (arguments : List (String × Value))
    (inject : Option Injection) : Work Failure Passed :=
  match c.params? p with
  | none => pure ⟨[], arguments⟩
  | some params => do
    let name := c.name p
    let (passed, left, collects) ←
      r.fill p (p.resolves params) name inject params arguments
    if left.isEmpty then pure passed
    else if collects then pure { passed with named := passed.named ++ left }
    else throw (.plain (.definition (.argumentsUnknown (left.map Prod.fst) name)))

/-- Makes an object of a registered class from declared arguments. -/
def create (r : Registry) (p : Program) (className : Value) (arguments : List (String × Value))
    (inject : Option Injection) : Work Failure Value := do
  let c ← Work.lift ((r.class? className).mapError .plain)
  let passed ← r.bind p (.construct c) arguments inject
  Work.mapFault .plain (Store.running (.construct c) (Store.construct c passed))

end Registry

end Wiring
