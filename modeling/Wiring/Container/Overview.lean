import Wiring.Container
import Wiring.Text.LetterCase

/-!
# `Wiring.Container.Overview`: searching and describing a container

A query selects the interfaces that contain it, whatever the case of their letters. The overview
lists the selected interfaces in rising order. Under each of them stand its definitions, and under a
definition its calls with their arguments, indented to the width of the identifier.
-/

set_option autoImplicit false

namespace Wiring.Container

variable {δ : Type}

/-- Whether a text stands somewhere inside another one. -/
def occursIn (needle : List Char) : List Char → Bool
  | [] => needle.isEmpty
  | c :: rest => needle.isPrefixOf (c :: rest) || occursIn needle rest

/-- Whether an interface answers a query. -/
def answers (query interface : String) : Bool :=
  occursIn (Text.lowercase query).toList (Text.lowercase interface).toList

/-- The interfaces that answer a query, in rising order. No query, or an empty one, selects all. -/
def search (c : Container δ) (query : Option String) : List String :=
  let selected :=
    match query with
    | none => c.interfaces
    | some q => if q = "" then c.interfaces else c.interfaces.filter (answers q)
  selected.mergeSort fun a b => decide (a ≤ b)

/-- One step of indentation. -/
def tab : String := "    "

/-- A number of spaces. -/
def spaces (n : Nat) : String := String.ofList (List.replicate n ' ')

/-- The lines of a call. -/
def callLines (padding : String) (c : Call) : List String :=
  [padding ++ "->" ++ c.method ++ "("] ++
    (c.arguments.map fun a => padding ++ tab ++ a.text) ++ [padding ++ ")"]

/-- The lines of a definition: its identifier and class, then the constructor and the calls. -/
def definitionLines (identifier : Option String) (d : Definition) : List String :=
  let shown := identifier.getD ""
  let padding := tab ++ spaces (shown.length + 2)
  (tab ++ "#" ++ shown ++ " " ++ d.className) ::
    (d.constructor.toList ++ d.callList).flatMap (callLines padding)

/-- The lines of an interface, with an empty line behind them. -/
def interfaceLines (c : Container Definition) (interface : String) : List String :=
  ("- " ++ interface) ::
    (c.definitions interface).entries.flatMap (fun e => definitionLines e.1 e.2) ++ [""]

/-- The first line of the overview. -/
def title : Option String → String
  | none => "Defined dependencies:"
  | some q =>
    if q = "" then "Defined dependencies:" else "Defined dependencies for \"" ++ q ++ "\":"

/-- A readable overview of the definitions. -/
def describe (c : Container Definition) (query : Option String) : String :=
  "\n".intercalate (title query :: (c.search query).flatMap c.interfaceLines)

end Wiring.Container
