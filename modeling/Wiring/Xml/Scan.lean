import Wiring.Xml.Characters

/-!
# `Wiring.Xml.Scan`: the pieces of the grammar

A piece of the grammar is a reader that takes characters from the front of a text, or refuses. The
pieces here are those that several parts of a document share: names, quoted texts, references,
comments and processing instructions.
-/

set_option autoImplicit false

namespace Wiring.Xml

/-- A reader of characters that may refuse. -/
abbrev Scan (α : Type) := StateT (List Char) Option α

/-- Refuses. -/
def refuse {α : Type} : Scan α := fun _ => none

/-- Refuses unless a condition holds. -/
def require (b : Bool) : Scan Unit := if b then pure () else refuse

/-- Passes over the given characters. -/
def literally (word : List Char) : Scan Unit := fun cs =>
  if word.isPrefixOf cs then some ((), cs.drop word.length) else none

/-- Whether the given characters come next. -/
def ahead (word : List Char) : Scan Bool := fun cs => some (word.isPrefixOf cs, cs)

/-- Takes the characters of a class. -/
def takeClass (p : Char → Bool) : Scan (List Char) := fun cs =>
  some (cs.takeWhile p, cs.dropWhile p)

/-- Passes over blanks and tells whether there were any. -/
def blanks : Scan Bool := do
  let taken ← takeClass isSpace
  pure !taken.isEmpty

/-- Passes over blanks, of which there must be at least one. -/
def someBlanks : Scan Unit := do require (← blanks)

/-- A name without colon. -/
def simpleName : Scan String := fun cs =>
  match cs with
  | c :: rest =>
    if isNameStart c then
      some (String.ofList (c :: rest.takeWhile isNameChar), rest.dropWhile isNameChar)
    else none
  | [] => none

/-- A name with an optional prefix. -/
structure QName where
  space : Option String
  base : String
  deriving DecidableEq

/-- The name as it stands in the document. -/
def QName.text (q : QName) : String :=
  match q.space with
  | none => q.base
  | some p => p ++ ":" ++ q.base

/-- A name that may have a prefix. -/
def qualifiedName : Scan QName := do
  let first ← simpleName
  if ← ahead [':'] then
    literally [':']
    let second ← simpleName
    require !(← ahead [':'])
    pure ⟨some first, second⟩
  else pure ⟨none, first⟩

/-- Splits a text before the first place where a word stands, and drops the word. -/
def splitAtWord (word : List Char) : List Char → Option (List Char × List Char)
  | [] => none
  | c :: rest =>
    if word.isPrefixOf (c :: rest) then some ([], (c :: rest).drop word.length)
    else (splitAtWord word rest).map fun r => (c :: r.1, r.2)

/-- Takes all up to a word and passes over the word. -/
def upTo (word : List Char) : Scan (List Char) := fun cs => splitAtWord word cs

/-- A quoted text. -/
def quotedText : Scan (List Char) := fun cs =>
  match cs with
  | '"' :: rest => splitAtWord ['"'] rest
  | '\'' :: rest => splitAtWord ['\''] rest
  | _ => none

/-- The rest of a comment behind its opening. No two hyphens stand inside it. -/
def commentRest : Scan Unit := do
  let _ ← upTo ['-', '-']
  literally ['>']

/-- The rest of a processing instruction behind its opening. Its target is not the word xml. -/
def instructionRest : Scan Unit := do
  let target ← simpleName
  require (target.toLower ≠ "xml")
  if ← ahead ['?', '>'] then literally ['?', '>']
  else
    someBlanks
    let _ ← upTo ['?', '>']

/-- The value of a digit of base sixteen. -/
def hexValue? (c : Char) : Option Nat :=
  if '0' ≤ c && c ≤ '9' then some (c.toNat - 48)
  else if 'a' ≤ c && c ≤ 'f' then some (c.toNat - 87)
  else if 'A' ≤ c && c ≤ 'F' then some (c.toNat - 55)
  else none

/-- The number that digits stand for. -/
def numberOf? (base : Nat) (digits : List Char) : Option Nat :=
  if digits.isEmpty then none
  else
    digits.foldl (fun n c =>
      match n, hexValue? c with
      | some n, some d => if d < base && n < 0x110000 then some (n * base + d) else none
      | _, _ => none) (some 0)

/-- The rest of a character reference behind its opening. -/
def characterReference : Scan Char := do
  let body ← upTo [';']
  let number :=
    match body with
    | 'x' :: digits => numberOf? 16 digits
    | digits => numberOf? 10 digits
  match number with
  | some n => if isLegal n then pure (Char.ofNat n) else refuse
  | none => refuse

/-- The characters that every document may name. -/
def predefined? : String → Option Char
  | "lt" => some '<'
  | "gt" => some '>'
  | "amp" => some '&'
  | "quot" => some '"'
  | "apos" => some '\''
  | _ => none

end Wiring.Xml
