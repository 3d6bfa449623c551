import Wiring.Component
import Wiring.Decimal.Shortest
import Wiring.Files.Path
import Wiring.Resolution.Parser
import Wiring.Text.Quoted

/-!
# `Wiring.Value`: the values that are wired together

A value is plain data, an object of the host program, a component of the engine, or a path. A list
or a mapping that others may hold too has a place, the number of the collection that it is a look
at: two with one place are one, and everything that happens to it is seen through both. One without
a place is only its content. Objects and components are named by their numbers.

A component that is compared by what it holds carries its parts, as they were when it was looked at.

Values are compared and shown by the host's rules: the two truth values count as 1 and 0, a whole
float equals its integer, the order of a mapping does not matter for equality, and an empty value
counts as false.
-/

set_option autoImplicit false

namespace Wiring

open Wiring.Decimal Wiring.Files

/-- A value of the host program. -/
inductive Value where
  | null
  | bool (b : Bool)
  | int (n : Int)
  | float (x : Binary64)
  | text (s : String)
  | bytes (data : List UInt8)
  | list (place : Option Nat) (items : List Value)
  | map (place : Option Nat) (entries : List (Value × Value))
  | object (id : Nat)
  | component (c : Component) (parts : List (String × Value))
  | path (p : Path)
  /-- A parser of arguments, whose configuration is named by its number. -/
  | parser (p : Parser Nat)
  /-- A value of which only the name of its class is known. -/
  | other (className : String)
  deriving Inhabited

namespace Value

/-! ### Text -/

/-- Floats have a point and at least one digit behind it, and an exponent below `1e-04` and from
`1e+16` on. -/
def floatStyle : FloatStyle := ⟨-4, 16, 2, "nan", "inf"⟩

/-- The number of the parts of a definition in front of its calls. -/
def definitionFields : Nat := 4

mutual

/-- The form of a value inside messages. -/
def literal : Value → String
  | .null => "None"
  | .bool true => "True"
  | .bool false => "False"
  | .int n => toString n
  | .float x => floatStyle.text x
  | .text s => Text.quoted s
  | .bytes data => Text.quotedBytes data
  | .list _ items => "[" ++ ", ".intercalate (literals items) ++ "]"
  | .map _ entries => "\x7b" ++ ", ".intercalate (literalEntries entries) ++ "\x7d"
  | .object _ => "<object>"
  | .component c parts =>
    match c.kind with
    | .argument | .call | .settings =>
      c.kind.names.2 ++ "(" ++ ", ".intercalate (literalParts parts) ++ ")"
    | .definition =>
      c.kind.names.2 ++ "(" ++ ", ".intercalate ((literalParts parts).take definitionFields) ++
        ", calls=\x7b" ++ ", ".intercalate ((literalKeyed parts).drop definitionFields) ++ "\x7d)"
    | .context => ", ".intercalate (parts.map Prod.fst)
    | _ => "<component>"
  | .path p => "PosixPath(" ++ Text.quoted p.text ++ ")"
  | .parser _ => "<parser>"
  | .other className => "<" ++ className ++ ">"

/-- The forms of the items of a list. -/
def literals : List Value → List String
  | [] => []
  | v :: rest => literal v :: literals rest

/-- The forms of the entries of a mapping. -/
def literalEntries : List (Value × Value) → List String
  | [] => []
  | (k, v) :: rest => (literal k ++ ": " ++ literal v) :: literalEntries rest

/-- The forms of parts by their names. -/
def literalParts : List (String × Value) → List String
  | [] => []
  | (k, v) :: rest => (k ++ "=" ++ literal v) :: literalParts rest

/-- The forms of parts as the entries of a mapping. -/
def literalKeyed : List (String × Value) → List String
  | [] => []
  | (k, v) :: rest => (Text.quoted k ++ ": " ++ literal v) :: literalKeyed rest

end

/-- The text of a value: a string and a path stand for themselves, all else has its literal form. -/
def display : Value → String
  | .text s => s
  | .path p => p.text
  | v => v.literal

/-- A name that may be missing, as it stands in messages. -/
def displayName : Option String → String
  | none => "None"
  | some s => s

/-! ### Truth and equality -/

/-- Whether a value counts as true. -/
def truthy : Value → Bool
  | .null => false
  | .bool b => b
  | .int n => n ≠ 0
  | .float x => !x.isZero
  | .text s => s ≠ ""
  | .bytes data => !data.isEmpty
  | .list _ items => !items.isEmpty
  | .map _ entries => !entries.isEmpty
  | .component c parts => c.kind ≠ .container || !parts.isEmpty
  | _ => true

/-- Equality of two numbers of any kind, where truth values count as 1 and 0. A number that equals
no number is still the same as itself. -/
def sameNumber : Value → Value → Bool
  | .bool a, .bool b => a = b
  | .bool a, .int n => n = if a then 1 else 0
  | .bool a, .float x => x.isInt (if a then 1 else 0)
  | .int n, .bool a => n = if a then 1 else 0
  | .int n, .int k => n = k
  | .int n, .float x => x.isInt n
  | .float x, .bool a => x.isInt (if a then 1 else 0)
  | .float x, .int n => x.isInt n
  | .float x, .float y => x = y || x.sameValue y
  | _, _ => false

/-- Equality of values without parts. -/
def sameScalar : Value → Value → Bool
  | .null, .null => true
  | .text s, .text t => s = t
  | .bytes a, .bytes b => a = b
  | .object a, .object b => a = b
  | .component a _, .component b _ => a = b
  | .path p, .path q => p = q
  | .parser p, .parser q => p = q
  | a, b => sameNumber a b

/-- The value stored under a key. -/
def lookup (key : Value) : List (Value × Value) → Option Value
  | [] => none
  | (k, v) :: rest => if sameScalar k key then some v else lookup key rest

mutual

/-- Equality of values. -/
def equal : Value → Value → Bool
  | .list _ xs, .list _ ys => equalLists xs ys
  | .map _ xs, .map _ ys => xs.length = ys.length && equalEntries xs ys
  | .component a xs, .component b ys =>
    a = b || (a.kind = b.kind && a.kind.isStructural && equalParts xs ys)
  | a, b => sameScalar a b

/-- Equality of lists, item by item. -/
def equalLists : List Value → List Value → Bool
  | [], [] => true
  | x :: xs, y :: ys => equal x y && equalLists xs ys
  | _, _ => false

/-- Whether the second mapping has an equal value under every key of the first. -/
def equalEntries : List (Value × Value) → List (Value × Value) → Bool
  | [], _ => true
  | (k, x) :: rest, ys =>
    (match lookup k ys with
    | some y => equal x y
    | none => false) && equalEntries rest ys

/-- Equality of parts, one by one. -/
def equalParts : List (String × Value) → List (String × Value) → Bool
  | [], [] => true
  | (k, x) :: xs, (l, y) :: ys => k = l && equal x y && equalParts xs ys
  | _, _ => false

end

/-- Whether two values are one, where values that cannot change are one when they are equal. -/
def isSame (a b : Value) : Bool :=
  match a, b with
  | .list p _, .list q _ => p.isSome && p = q
  | .map p _, .map q _ => p.isSome && p = q
  | .float x, .float y => x = y
  | .bool x, .bool y => x = y
  | .bool _, _ | _, .bool _ => false
  | .int x, .int y => x = y
  | .int _, .float _ | .float _, .int _ => false
  | a, b => sameScalar a b

/-! ### Mappings -/

/-- Writes an entry: a known key keeps its place, a new one is listed last. -/
def put (key value : Value) : List (Value × Value) → List (Value × Value)
  | [] => [(key, value)]
  | (k, v) :: rest => if sameScalar k key then (k, value) :: rest else (k, v) :: put key value rest

/-- The entries of a list of named values, where a repeated name keeps its first place and its last
value. -/
def entriesOf (pairs : List (String × Value)) : List (Value × Value) :=
  pairs.foldl (fun entries p => put (.text p.1) p.2 entries) []

/-- Whether a value may be a key of a mapping. -/
def isKey : Value → Bool
  | .list _ _ => false
  | .map _ _ => false
  | .component c _ => !c.kind.isStructural
  | _ => true

/-- The parts of a value that can be listed: the characters of a text, the keys of a mapping, and
the definitions of a container with their interfaces. -/
def parts? : Value → Option (List Value)
  | .list _ items => some items
  | .map _ entries => some (entries.map Prod.fst)
  | .component c parts =>
    if c.kind = .container then some (parts.map fun p => .list none [.text p.1, p.2]) else none
  | .text s => some (s.toList.map fun c => .text (String.singleton c))
  | .bytes data => some (data.map fun b => .int b.toNat)
  | _ => none

/-- The number of parts of a value, as far as it has parts. -/
def length? : Value → Option Nat
  | .text s => some s.length
  | .bytes data => some data.length
  | .list _ items => some items.length
  | .map _ entries => some entries.length
  | .component c parts => if c.kind = .container then some parts.length else none
  | _ => none

/-- The whole number that a value is, where the two truth values count as 1 and 0. -/
def whole? : Value → Option Int
  | .int n => some n
  | .bool b => some (if b then 1 else 0)
  | _ => none

/-- A text that may be missing, as a value. -/
def optional : Option String → Value
  | none => .null
  | some s => .text s

/-- The name that a value is, when it is a text that is not empty. -/
def name? : Value → Option String
  | .text s => if s = "" then none else some s
  | _ => none

end Value

end Wiring
