import Wiring.OrderedMap

/-!
# `Wiring.Resolution.Parser`: ways to find the value of an argument

Each kind of argument has a parser. A scalar is its value property, an array all of its properties,
and null nothing. A configuration argument reads a key, a dependency requests another object, and a
call runs a method of a dependency or of a class, or a function. A parser that reads a configuration
may have one of its own; otherwise it reads the one of the injector.
-/

set_option autoImplicit false

namespace Wiring

/-- How the value of an argument is found. The configurations are of type `κ`. -/
inductive Parser (κ : Type) where
  | null
  | scalar
  | array
  | dependency (config : Option κ)
  | call (config : Option κ)
  | config (config : Option κ)
  /-- Answers with what it is given. -/
  | probe
  deriving DecidableEq, Inhabited

namespace Parser

variable {κ μ : Type}

/-- The name of a parser's class. -/
def name : Parser κ → String
  | .null => "NullArgumentParser"
  | .scalar => "ScalarArgumentParser"
  | .array => "ArrayArgumentParser"
  | .dependency _ => "DependencyArgumentParser"
  | .call _ => "CallArgumentParser"
  | .config _ => "ConfigArgumentParser"
  | .probe => "ProbeParser"

/-- The module of a parser's class. -/
def module : Parser κ → String
  | .null | .scalar | .array => "wirebox.argument_parser"
  | .dependency _ | .call _ => "wirebox.injectable_argument_parser"
  | .config _ => "wirebox.config_argument_parser"
  | .probe => "probe"

/-- The configuration that a parser has of its own. -/
def config? : Parser κ → Option κ
  | .dependency c | .call c | .config c => c
  | _ => none

/-- Changes the configuration of a parser. -/
def map (f : κ → μ) : Parser κ → Parser μ
  | .null => .null
  | .scalar => .scalar
  | .array => .array
  | .dependency c => .dependency (c.map f)
  | .call c => .call (c.map f)
  | .config c => .config (c.map f)
  | .probe => .probe

/-- The parsers of an injector, unless they are changed. -/
def standard : OrderedMap String (Parser κ) :=
  .ofList [("null", .null), ("scalar", .scalar), ("array", .array),
    ("dependency", .dependency none), ("call", .call none), ("config", .config none),
    ("parameter", .config none)]

end Parser

end Wiring
