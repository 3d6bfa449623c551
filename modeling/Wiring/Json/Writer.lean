import Wiring.Json.Reader

/-!
# `Wiring.Json.Writer`: documents as text

A document is written with one space of indentation for each level and in ASCII only: every other
character stands as the numbers of its sixteen bit units. Keys that are not texts are written as the
text of their value.

Some values have no text: a value without a form in the format, such as a byte string or an object, a
whole number with more digits than the reader takes, and a list or a mapping that holds itself.
`obstacle?` tells what is met first.
-/

set_option autoImplicit false

namespace Wiring.Json

open Wiring.Decimal

/-- Floats in a document. Only the names of the special numbers differ from messages. -/
def floatStyle : FloatStyle := ⟨-4, 16, 2, "NaN", "Infinity"⟩

/-- A sixteen bit unit as an escape. -/
def escapeUnit (n : Nat) : List Char := '\\' :: 'u' :: Text.hexDigits 4 n

/-- A character as it stands in a document. -/
def escapeChar (c : Char) : List Char :=
  if c = '"' then ['\\', '"']
  else if c = '\\' then ['\\', '\\']
  else if c = '\n' then ['\\', 'n']
  else if c = '\r' then ['\\', 'r']
  else if c = '\t' then ['\\', 't']
  else if c.toNat = 0x8 then ['\\', 'b']
  else if c.toNat = 0xc then ['\\', 'f']
  else if 0x20 ≤ c.toNat && c.toNat ≤ 0x7e then [c]
  else if c.toNat ≤ 0xffff then escapeUnit c.toNat
  else
    let n := c.toNat - 0x10000
    escapeUnit (0xd800 + n / 0x400) ++ escapeUnit (0xdc00 + n % 0x400)

/-- A text with its quotes. -/
def quoted (s : String) : String := String.ofList ('"' :: s.toList.flatMap escapeChar ++ ['"'])

/-- A key of a mapping as text. -/
def keyText? : Value → Option String
  | .text s => some s
  | .null => some "null"
  | .bool b => some (if b then "true" else "false")
  | .int n => some (toString n)
  | .float x => some (floatStyle.text x)
  | _ => none

/-- A line break with the indentation of a level. -/
def lineBreak (level : Nat) : String := "\n" ++ String.ofList (List.replicate level ' ')

/-- Parts of a list or mapping between its brackets. -/
def bracketed (opening closing : String) (level : Nat) (parts : List String) : String :=
  if parts.isEmpty then opening ++ closing
  else
    opening ++ lineBreak (level + 1) ++ ("," ++ lineBreak (level + 1)).intercalate parts ++
      lineBreak level ++ closing

mutual

/-- The text of a value at a level. -/
def write? (level : Nat) : Value → Option String
  | .null => some "null"
  | .bool true => some "true"
  | .bool false => some "false"
  | .int n => some (toString n)
  | .float x => some (floatStyle.text x)
  | .text s => some (quoted s)
  | .list _ items => (writeItems? (level + 1) items).map (bracketed "[" "]" level)
  | .map _ entries => (writeEntries? (level + 1) entries).map (bracketed "\x7b" "\x7d" level)
  | _ => none

/-- The texts of the items of a list. -/
def writeItems? (level : Nat) : List Value → Option (List String)
  | [] => some []
  | v :: rest =>
    match write? level v, writeItems? level rest with
    | some s, some more => some (s :: more)
    | _, _ => none

/-- The texts of the entries of a mapping. -/
def writeEntries? (level : Nat) : List (Value × Value) → Option (List String)
  | [] => some []
  | (k, v) :: rest =>
    match keyText? k, write? level v, writeEntries? level rest with
    | some key, some s, some more => some ((quoted key ++ ": " ++ s) :: more)
    | _, _, _ => none

end

/-- Why a scalar cannot be written. -/
def scalarObstacle? : Value → Option ForeignKind
  | .int n => if digitLimit < (Nat.toDigits 10 n.natAbs).length then some .value else none
  | .null | .bool _ | .float _ | .text _ => none
  | _ => some .type

mutual

/-- Why a value cannot be written: the first obstacle in the order of writing. A collection that
stands on the way to the value, by its place, must not be met in it again. -/
def obstacle? (way : List Nat) : Value → Option ForeignKind
  | .list place items =>
    if place.any way.contains then some .value else itemsObstacle? (place.toList ++ way) items
  | .map place entries =>
    if place.any way.contains then some .value else entriesObstacle? (place.toList ++ way) entries
  | v => scalarObstacle? v

/-- Why the items of a list cannot be written. -/
def itemsObstacle? (way : List Nat) : List Value → Option ForeignKind
  | [] => none
  | v :: rest => (obstacle? way v).or (itemsObstacle? way rest)

/-- Why the entries of a mapping cannot be written. -/
def entriesObstacle? (way : List Nat) : List (Value × Value) → Option ForeignKind
  | [] => none
  | (k, v) :: rest =>
    (scalarObstacle? k).or ((obstacle? way v).or (entriesObstacle? way rest))

end

/-- The text of a document, if the value has one. -/
def document? (v : Value) : Option String := if (obstacle? [] v).isNone then write? 0 v else none

end Wiring.Json
