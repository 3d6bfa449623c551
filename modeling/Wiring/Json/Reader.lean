import Wiring.Decimal.Reading
import Wiring.Fault

/-!
# `Wiring.Json.Reader`: documents from text

A document is one value between blanks. A repeated key of a mapping keeps its first place and its
last value, the names of the special floats are accepted, and control characters inside a text are
not. Whole numbers have any size up to 4300 digits; a longer one is a fault of its own.

Each step of the reader takes at least one character, so the length of the text bounds it.
-/

set_option autoImplicit false

namespace Wiring.Json

open Wiring.Decimal

/-- A reader of characters. -/
abbrev Read (α : Type) := StateT (List Char) (Except ForeignKind) α

/-- Refuses the text. -/
def refuse {α : Type} : Read α := fun _ => .error .document

/-- Whether the character is a blank of the format. -/
def isBlank (c : Char) : Bool := c = ' ' || c = '\t' || c = '\n' || c = '\r'

/-- Passes over blanks. -/
def blanks : Read Unit := fun cs => .ok ((), cs.dropWhile isBlank)

/-- The value of a hexadecimal digit. -/
def hexValue? (c : Char) : Option Nat :=
  if '0' ≤ c && c ≤ '9' then some (c.toNat - 48)
  else if 'a' ≤ c && c ≤ 'f' then some (c.toNat - 87)
  else if 'A' ≤ c && c ≤ 'F' then some (c.toNat - 55)
  else none

/-- The number of four hexadecimal digits in front of a text, and the rest. -/
def unit? : List Char → Option (Nat × List Char)
  | a :: b :: c :: d :: rest =>
    match hexValue? a, hexValue? b, hexValue? c, hexValue? d with
    | some a, some b, some c, some d => some (((a * 16 + b) * 16 + c) * 16 + d, rest)
    | _, _, _, _ => none
  | _ => none

/-- The character of a unit, which may be the first of a pair. A unit without its partner stands for
no character and is read as the replacement character. -/
def unitChar (u : Nat) (rest : List Char) : Char × List Char :=
  if 0xd800 ≤ u && u < 0xdc00 then
    match rest with
    | '\\' :: 'u' :: more =>
      match unit? more with
      | some (v, more) =>
        if 0xdc00 ≤ v && v < 0xe000 then
          (Char.ofNat (0x10000 + (u - 0xd800) * 0x400 + (v - 0xdc00)), more)
        else (Char.ofNat 0xfffd, rest)
      | none => (Char.ofNat 0xfffd, rest)
    | _ => (Char.ofNat 0xfffd, rest)
  else if 0xdc00 ≤ u && u < 0xe000 then (Char.ofNat 0xfffd, rest)
  else (Char.ofNat u, rest)

/-- The character that a letter behind a backslash stands for. -/
def escaped? : Char → Option Char
  | '"' => some '"'
  | '\\' => some '\\'
  | '/' => some '/'
  | 'b' => some (Char.ofNat 0x8)
  | 'f' => some (Char.ofNat 0xc)
  | 'n' => some '\n'
  | 'r' => some '\r'
  | 't' => some '\t'
  | _ => none

/-- The rest of a text behind its opening quote. -/
def textRest : Nat → List Char → Option (List Char × List Char)
  | 0, _ => none
  | _, [] => none
  | _ + 1, '"' :: rest => some ([], rest)
  | fuel + 1, '\\' :: 'u' :: rest =>
    match unit? rest with
    | none => none
    | some (u, rest) =>
      let (c, rest) := unitChar u rest
      (textRest fuel rest).map fun r => (c :: r.1, r.2)
  | fuel + 1, '\\' :: c :: rest =>
    match escaped? c with
    | none => none
    | some c => (textRest fuel rest).map fun r => (c :: r.1, r.2)
  | fuel + 1, c :: rest =>
    if c.toNat < 0x20 || c = '\\' then none
    else (textRest fuel rest).map fun r => (c :: r.1, r.2)

/-- A text behind its opening quote. -/
def text : Read String := fun cs =>
  match textRest (cs.length + 1) cs with
  | some (body, rest) => .ok (String.ofList body, rest)
  | none => .error .document

/-- The digits of a whole number: a zero stands alone. -/
def wholeDigits : List Char → Option (List Char × List Char)
  | '0' :: rest => some (['0'], rest)
  | cs =>
    let ds := cs.takeWhile Char.isDigit
    if ds.isEmpty then none else some (ds, cs.dropWhile Char.isDigit)

/-- The digits behind a point, if a point with a digit behind it comes next. -/
def fractionDigits : List Char → Option (List Char × List Char)
  | '.' :: rest =>
    let ds := rest.takeWhile Char.isDigit
    if ds.isEmpty then none else some (ds, rest.dropWhile Char.isDigit)
  | _ => none

/-- The exponent, if one comes next. -/
def exponentPart : List Char → Option (Int × List Char)
  | c :: rest =>
    if c = 'e' || c = 'E' then
      let (negative, cs) := splitSign rest
      let ds := cs.takeWhile Char.isDigit
      if ds.isEmpty then none
      else
        let n : Int := digitsValue ds
        some (if negative then -n else n, cs.dropWhile Char.isDigit)
    else none
  | [] => none

/-- The greatest number of digits of a whole number. -/
def digitLimit : Nat := 4300

/-- A number. It is a float when it has a point or an exponent. -/
def number (negative : Bool) : Read Value := fun cs =>
  match wholeDigits cs with
  | none => .error .document
  | some (whole, rest) =>
    let (fraction, rest) := (fractionDigits rest).getD ([], rest)
    match exponentPart rest with
    | some (e, rest) => .ok (.float (Numeral.value ⟨negative, whole, fraction, e⟩), rest)
    | none =>
      if !fraction.isEmpty then .ok (.float (Numeral.value ⟨negative, whole, fraction, 0⟩), rest)
      else if digitLimit < whole.length then .error .value
      else
        let n : Int := digitsValue whole
        .ok (.int (if negative then -n else n), rest)

/-- A value that is named by a word. -/
def named : Read Value := fun cs =>
  let words : List (String × Value) :=
    [("null", .null), ("true", .bool true), ("false", .bool false), ("NaN", .float .nan),
      ("Infinity", .float (.infinity false)), ("-Infinity", .float (.infinity true))]
  match words.find? fun w => w.1.toList.isPrefixOf cs with
  | some (w, v) => .ok (v, cs.drop w.length)
  | none =>
    match cs with
    | '-' :: rest => number true rest
    | _ => number false cs

mutual

/-- A value. -/
def value : Nat → Read Value
  | 0 => refuse
  | fuel + 1 => do
    match ← get with
    | '"' :: rest =>
      set rest
      pure (.text (← text))
    | '[' :: rest =>
      set (rest.dropWhile isBlank)
      match ← get with
      | ']' :: rest =>
        set rest
        pure (.list none [])
      | _ => pure (.list none (← items fuel))
    | '\x7b' :: rest =>
      set (rest.dropWhile isBlank)
      match ← get with
      | '\x7d' :: rest =>
        set rest
        pure (.map none [])
      | _ => pure (.map none (← entries fuel []))
    | _ => named

/-- The items of a list up to its end, of which there is at least one. -/
def items : Nat → Read (List Value)
  | 0 => refuse
  | fuel + 1 => do
    let v ← value fuel
    blanks
    match ← get with
    | ']' :: rest =>
      set rest
      pure [v]
    | ',' :: rest =>
      set (rest.dropWhile isBlank)
      pure (v :: (← items fuel))
    | _ => refuse

/-- The entries of a mapping up to its end, behind those already read. -/
def entries : Nat → List (Value × Value) → Read (List (Value × Value))
  | 0, _ => refuse
  | fuel + 1, seen => do
    match ← get with
    | '"' :: rest =>
      set rest
      let key ← text
      blanks
      match ← get with
      | ':' :: rest =>
        set (rest.dropWhile isBlank)
        let v ← value fuel
        blanks
        let seen := Value.put (.text key) v seen
        match ← get with
        | '\x7d' :: rest =>
          set rest
          pure seen
        | ',' :: rest =>
          set (rest.dropWhile isBlank)
          entries fuel seen
        | _ => refuse
      | _ => refuse
    | _ => refuse

end

/-- Reads a document. -/
def read (s : String) : Except ForeignKind Value :=
  let cs := s.toList
  match (value (2 * cs.length + 2)) (cs.dropWhile isBlank) with
  | .error e => .error e
  | .ok (v, rest) => if (rest.dropWhile isBlank).isEmpty then .ok v else .error .document

end Wiring.Json
