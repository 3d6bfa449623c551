import Wiring.Container
import Wiring.Fault

/-!
# `Wiring.Resolution.Selection`: which definition answers a request

A request with an identifier selects that definition, unless it is being built already. A request
without one looks at the definitions of the interface that are not excluded: the default one is
selected if it is among them, else the only one, else the first one if something is excluded at all.

Definitions are of a type `δ`, and a function tells the identifier that each of them has.
-/

set_option autoImplicit false

namespace Wiring

namespace Selection

variable {δ : Type}

/-- The definitions of an interface that are not excluded, in order. -/
def candidates (c : Container δ) (interface : String) (exclude : Exclusions) : List δ :=
  ((c.definitions interface).entries.filter fun e => !exclude.contains ⟨interface, e.1⟩).map
    Prod.snd

/-- Selects among candidates. -/
def choose (identifier : δ → Option String) (interface : String) (excludes : Bool)
    (found : List δ) : Except Fault δ :=
  match found.find? fun d => (identifier d).isNone with
  | some d => .ok d
  | none =>
    match found with
    | [] => .error (.ambiguous interface [])
    | [d] => .ok d
    | d :: _ => if excludes then .ok d else .error (.ambiguous interface (found.map identifier))

/-- Selects the definition of a request without identifier. -/
def unnamed (identifier : δ → Option String) (c : Container δ) (interface : String)
    (exclude : Exclusions) : Except Fault δ :=
  let defined := (c.definitions interface).keys
  if defined.isEmpty then .error (.notFound (c.absence ⟨interface, none⟩))
  else
    match candidates c interface exclude with
    | [] => .error (.notFound (.allExcluded interface defined))
    | found => choose identifier interface (!exclude.isEmpty) found

/-- Selects the definition of a request with an identifier. -/
def named (c : Container δ) (k : DefinitionKey) (building : Exclusions) : Except Fault δ :=
  match c.get k with
  | .error why => .error (.notFound why)
  | .ok d => if building.contains k then .error (.circular k building) else .ok d

/-- Selects the definition of a request. -/
def select (identifier : δ → Option String) (c : Container δ) (k : DefinitionKey)
    (exclude building : Exclusions) : Except Fault δ :=
  match k.identifier with
  | some _ => named c k building
  | none => unnamed identifier c k.interface exclude

end Selection

end Wiring
