import Wiring.Host.Program

/-!
# `Wiring.Host.Binding`: which parameter takes which value

Arguments are given by position and by name. The first by position go to the parameters that take
one, in order, and those left over to the parameter that collects the rest. Each by name goes to the
parameter of that name, and those without one to the parameter that collects options. `bind?` says
when this works out: no parameter is given twice, nothing is left over without a place, and every
parameter without a default is given.
-/

set_option autoImplicit false

namespace Wiring

/-- Arguments by position and by name. -/
structure Passed where
  positional : List Value
  named : List (String × Value)
  deriving Inhabited

/-- No arguments. -/
def Passed.nothing : Passed := ⟨[], []⟩

namespace Param

/-- Whether the parameter takes an argument by position. -/
def byPosition (p : Param) : Bool := p.kind = .positional || p.kind = .normal

/-- Whether the parameter takes an argument by its name. -/
def byName (p : Param) : Bool := p.kind = .normal || p.kind = .keyword

/-- Binds parameters in order. The arguments that no parameter takes by name are collected by
`options`, the ones by position that are left at the end by `rest`. -/
def bindFrom (all : List Param) :
    List Param → List Value → List (String × Value) → Option (List (String × Value))
  | [], positional, _ => if positional.isEmpty then some [] else none
  | p :: ps, positional, named =>
    match p.kind with
    | .rest => (bindFrom all ps [] named).map ((p.name, .list none positional) :: ·)
    | .options =>
      let taken := fun n => all.any fun q => q.byName && q.name = n
      let left := named.filter fun a => !taken a.1
      (bindFrom all ps positional named).map ((p.name, .map none (Value.entriesOf left)) :: ·)
    | _ =>
      let given := if p.byName then named.lookup p.name else none
      match (if p.byPosition then positional else []), given with
      | v :: more, none => (bindFrom all ps more named).map ((p.name, v) :: ·)
      | _ :: _, some _ => none
      | [], some v => (bindFrom all ps positional named).map ((p.name, v) :: ·)
      | [], none =>
        match p.default with
        | some v => (bindFrom all ps positional named).map ((p.name, v) :: ·)
        | none => none

/-- Binds arguments to parameters, if they fit. -/
def bind? (params : List Param) (passed : Passed) : Option (List (String × Value)) :=
  let known := fun n => params.any fun p => p.byName && p.name = n
  let collects := params.any fun p => p.kind = .options
  if passed.named.all (fun a => known a.1) || collects then
    bindFrom params params passed.positional passed.named
  else none

end Param

end Wiring
