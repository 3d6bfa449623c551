import Wiring.Host.Builtin
import Wiring.Fault
import Wiring.Text.Split
import Wiring.Text.UpperCase

/-!
# `Wiring.Host.TextMethods`: what a text answers to the calls of its methods

A text never changes, so a method is a function of the text and of its arguments, which are given by
the names of the parameters. An argument of the wrong kind is a type fault. Where several parts of a
text come out, they are a list.
-/

set_option autoImplicit false

namespace Wiring.Host

open Wiring.Text

/-- The answer of a method, or the kind of fault that it raises. -/
abbrev Reply := Except ForeignKind Value

/-! ### Arguments -/

/-- Whether an argument was left out. -/
def isLeftOut : Value → Bool
  | .other _ => true
  | _ => false

/-- An argument that must be a text. -/
def textOf : Value → Except ForeignKind String
  | .text s => .ok s
  | _ => .error .type

/-- An argument that must be a whole number, or a default. -/
def intOr (default : Int) (v : Value) : Except ForeignKind Int :=
  match v.whole? with
  | some n => .ok n
  | none => if isLeftOut v then .ok default else .error .type

/-- An argument that must be a whole number and stands for a yes or a no, or no. -/
def flagOf (v : Value) : Except ForeignKind Bool := (intOr 0 v).map fun n => n ≠ 0

/-- An argument that must be a text if it is given. -/
def givenText (v : Value) : Except ForeignKind (Option String) :=
  if isLeftOut v then .ok none else (textOf v).map some

/-- Checks the arguments that tell an encoding and what happens to what has no form in it. The one
encoding that is known is that of all characters. -/
def checkEncoding (arg : String → Value) : Except ForeignKind Unit := do
  let name ← givenText (arg "encoding")
  let _ ← givenText (arg "errors")
  let key := ((name.getD "utf8").toList.filter fun c => c ≠ '-' && c ≠ '_').map Char.toLower
  if ["utf8", "u8", "utf"].contains (String.ofList key) then .ok () else .error .codec

/-- An argument that may be a text, where null counts as left out. -/
def textOr (default : Option String) (v : Value) : Except ForeignKind (Option String) :=
  match v with
  | .text s => .ok (some s)
  | .null => .ok default
  | v => if isLeftOut v then .ok default else .error .type

/-- An argument that must be one character, or a blank. -/
def fillOf (v : Value) : Except ForeignKind Char :=
  match v with
  | .text s =>
    match s.toList with
    | [c] => .ok c
    | _ => .error .type
  | v => if isLeftOut v then .ok ' ' else .error .type

/-! ### Searching -/

/-- The characters in front of and behind the first place of a part. -/
def cutAt (part : List Char) : List Char → Option (List Char × List Char)
  | [] => if part.isEmpty then some ([], []) else none
  | c :: rest =>
    if part.isPrefixOf (c :: rest) then some ([], (c :: rest).drop part.length)
    else (cutAt part rest).map fun p => (c :: p.1, p.2)

/-- The pieces between the first places of a part, at most a number of cuts. -/
def cuts (part : List Char) : Nat → List Char → List (List Char)
  | 0, cs => [cs]
  | fuel + 1, cs =>
    match cutAt part cs with
    | some (before, behind) => before :: cuts part fuel behind
    | none => [cs]

/-- A bound of the number of cuts. A negative one is no bound. -/
def cutBound (limit : Int) (cs : List Char) : Nat :=
  if limit < 0 then cs.length + 1 else limit.toNat

/-- The words of a text, at most a number of cuts. The last word keeps the blanks inside it. -/
def wordCuts : Nat → List Char → List (List Char)
  | 0, cs =>
    let left := trimEnd (cs.dropWhile isBlank)
    if left.isEmpty then [] else [cs.dropWhile isBlank]
  | fuel + 1, cs =>
    match cs.dropWhile isBlank with
    | [] => []
    | c :: rest =>
      let word := (c :: rest).takeWhile fun x => !isBlank x
      word :: wordCuts fuel ((c :: rest).drop word.length)

/-- The pieces of a text around a separator, where null stands for blanks. -/
def splitText (s : List Char) (separator : Option String) (limit : Int) :
    Except ForeignKind (List (List Char)) :=
  match separator with
  | none => .ok (wordCuts (cutBound limit s) s)
  | some part => if part = "" then .error .value else .ok (cuts part.toList (cutBound limit s) s)

/-- Whether a character ends a line. -/
def endsLine (c : Char) : Bool :=
  ['\n', '\r', '\x0b', '\x0c', '\x1c', '\x1d', '\x1e'].contains c || c.toNat = 0x85 ||
    c.toNat = 0x2028 || c.toNat = 0x2029

/-- The lines of a text, with what ends them if that is wanted, given the line so far in reverse. -/
def lineCuts (keep : Bool) (line : List Char) : List Char → List (List Char)
  | [] => if line.isEmpty then [] else [line.reverse]
  | '\r' :: '\n' :: rest =>
    (if keep then ('\n' :: '\r' :: line).reverse else line.reverse) :: lineCuts keep [] rest
  | c :: rest =>
    if endsLine c then
      (if keep then (c :: line).reverse else line.reverse) :: lineCuts keep [] rest
    else lineCuts keep (c :: line) rest

/-! ### Building -/

/-- A text of characters. -/
def ofChars (cs : List Char) : Value := .text (String.ofList cs)

/-- A list of texts. -/
def ofPieces (pieces : List (List Char)) : Value := .list none (pieces.map ofChars)

/-- Characters behind the places of tabs, given the column. -/
def expandTabs (size : Nat) (column : Nat) : List Char → List Char
  | [] => []
  | '\t' :: rest =>
    let n := if size = 0 then 0 else size - column % size
    List.replicate n ' ' ++ expandTabs size (column + n) rest
  | c :: rest =>
    c :: expandTabs size (if c = '\n' || c = '\r' then 0 else column + 1) rest

/-- A part in place of another one, at most a number of times. -/
def replaced (s old new : List Char) (limit : Int) : List Char :=
  if old.isEmpty then
    let n := cutBound limit s
    let spread := (s.take n).flatMap fun c => new ++ [c]
    spread ++ s.drop n ++ (if s.length < n then new else [])
  else new.intercalate (cuts old (cutBound limit s) s)

/-- A text with fields filled by named values. Doubled braces stand for themselves. -/
def formatted (named : List (String × Value)) : Nat → List Char → Except ForeignKind (List Char)
  | 0, _ => .error .value
  | _, [] => .ok []
  | fuel + 1, c :: rest =>
    if c = '\x7b' then
      match rest with
      | '\x7b' :: more => do .ok (c :: (← formatted named fuel more))
      | _ =>
        let name := String.ofList (rest.takeWhile (· ≠ '\x7d'))
        match rest.drop name.length with
        | [] => .error .value
        | _ :: more =>
          match named.lookup name with
          | some v => do .ok (v.display.toList ++ (← formatted named fuel more))
          | none => .error (if name.toList.all Char.isDigit then .index else .key)
    else if c = '\x7d' then
      match rest with
      | '\x7d' :: more => do .ok (c :: (← formatted named fuel more))
      | _ => .error .value
    else do .ok (c :: (← formatted named fuel rest))

/-! ### Questions -/

/-- Whether a character is a letter, as far as letters have a case or belong to a large script. -/
def isLetter (c : Char) : Bool :=
  c.isAlpha || (0x80 ≤ c.toNat && (isCased c || lowerChar c ≠ [c])) ||
    (0x5d0 ≤ c.toNat && c.toNat ≤ 0x5ea) || (0x620 ≤ c.toNat && c.toNat ≤ 0x64a) ||
    (0x3041 ≤ c.toNat && c.toNat ≤ 0x30ff) || (0x4e00 ≤ c.toNat && c.toNat ≤ 0x9fff) ||
    (0xac00 ≤ c.toNat && c.toNat ≤ 0xd7a3)

/-- Whether there are characters and all of them pass. -/
def allPass (f : Char → Bool) (cs : List Char) : Bool := !cs.isEmpty && cs.all f

/-- Whether every word starts with a capital and goes on in lower case, given whether the character
before has a case. -/
def titlesFrom (inside : Bool) : List Char → Bool
  | [] => true
  | c :: rest =>
    if isCased c then (if inside then isLower c else !isLower c) && titlesFrom true rest
    else titlesFrom false rest

/-- What a text answers when it is asked about all of its characters. -/
def question? (cs : List Char) : String → Option Bool
  | "isalnum" => some (allPass (fun c => isLetter c || c.isDigit) cs)
  | "isalpha" => some (allPass isLetter cs)
  | "isascii" => some (cs.all fun c => c.toNat < 0x80)
  | "isdecimal" | "isdigit" | "isnumeric" => some (allPass Char.isDigit cs)
  | "isidentifier" =>
    some (match cs with
      | [] => false
      | c :: rest =>
        (isLetter c || c = '_') && rest.all fun x => isLetter x || x.isDigit || x = '_')
  | "islower" => some (cs.any isCased && cs.all fun c => !isCased c || isLower c)
  | "isupper" => some (cs.any isCased && cs.all fun c => !isCased c || !isLower c)
  | "isprintable" => some (cs.all isPrintable)
  | "isspace" => some (allPass isBlank cs)
  | "istitle" => some (cs.any isCased && titlesFrom false cs)
  | _ => none

/-! ### Methods -/

/-- The text with its characters changed. -/
def changed? (s : String) : String → Option String
  | "lower" => some (lowercase s)
  | "upper" => some (uppercase s)
  | "title" => some (titled s)
  | "capitalize" => some (capitalized s)
  | "swapcase" => some (swapped s)
  | "casefold" => some (String.ofList (s.toList.flatMap fun c => (upperChar c).flatMap lowerChar))
  | "__str__" => some s
  | "__repr__" => some (quoted s)
  | _ => none

/-- The text between blanks around it. The blanks at the end are given in front. -/
def padded (s : List Char) (width : Int) (fill : Char) (place : String) : List Char :=
  let missing := width.toNat - s.length
  let left :=
    if place = "ljust" then 0
    else if place = "rjust" then missing
    else missing / 2 + (if missing % 2 = 1 && width.toNat % 2 = 1 then 1 else 0)
  List.replicate left fill ++ s ++ List.replicate (missing - left) fill

/-- The item at a place, which counts from the end when it is negative. -/
def itemAt {α : Type} (items : List α) (i : Int) : Option α :=
  if 0 ≤ i then items[i.toNat]?
  else if i.natAbs ≤ items.length then items[items.length - i.natAbs]?
  else none

/-- The answer of a comparison of texts. -/
def compared (s t : String) : String → Option Bool
  | "__eq__" => some (s = t)
  | "__ne__" => some (s ≠ t)
  | "__lt__" => some (s < t)
  | "__le__" => some (s ≤ t)
  | "__gt__" => some (t < s)
  | "__ge__" => some (t ≤ s)
  | _ => none

/-- The answer of a comparison that cannot be made. -/
def notComparable : Value := .other "NotImplementedType"

/-- The answer of a text to the call of a method. -/
def textMethod (s : String) (method : String) (arg : String → Value)
    (named : List (String × Value)) : Reply :=
  let cs := s.toList
  match changed? s method, question? cs method with
  | some t, _ => .ok (.text t)
  | _, some b => .ok (.bool b)
  | none, none =>
    match method with
    | "strip" | "lstrip" | "rstrip" => do
      let marks ← textOr none (arg "chars")
      let drops := fun c =>
        match marks with
        | some m => m.toList.contains c
        | none => isBlank c
      let left := if method = "rstrip" then cs else cs.dropWhile drops
      .ok (ofChars (if method = "lstrip" then left else (left.reverse.dropWhile drops).reverse))
    | "split" => do
      .ok (ofPieces (← splitText cs (← textOr none (arg "sep")) (← intOr (-1) (arg "maxsplit"))))
    | "rsplit" => do
      let separator ← textOr none (arg "sep")
      let mirrored := separator.map fun x => String.ofList x.toList.reverse
      let found ← splitText cs.reverse mirrored (← intOr (-1) (arg "maxsplit"))
      .ok (ofPieces (found.reverse.map List.reverse))
    | "splitlines" => do .ok (ofPieces (lineCuts (← flagOf (arg "keepends")) [] cs))
    | "join" =>
      match (arg "iterable").parts? with
      | some items => do .ok (.text (s.intercalate (← items.mapM textOf)))
      | none => .error .type
    | "replace" => do
      let old ← textOf (arg "old")
      let new ← textOf (arg "new")
      .ok (ofChars (replaced cs old.toList new.toList (← intOr (-1) (arg "count"))))
    | "partition" => do
      let sep ← textOf (arg "sep")
      if sep = "" then .error .value
      else
        match cutAt sep.toList cs with
        | some (a, b) => .ok (ofPieces [a, sep.toList, b])
        | none => .ok (ofPieces [cs, [], []])
    | "rpartition" => do
      let sep ← textOf (arg "sep")
      if sep = "" then .error .value
      else
        match cutAt sep.toList.reverse cs.reverse with
        | some (b, a) => .ok (ofPieces [a.reverse, sep.toList, b.reverse])
        | none => .ok (ofPieces [[], [], cs])
    | "removeprefix" => do
      let p ← textOf (arg "prefix")
      .ok (ofChars (if p.toList.isPrefixOf cs then cs.drop p.length else cs))
    | "removesuffix" => do
      let p ← textOf (arg "suffix")
      .ok (ofChars (if p.toList.isSuffixOf cs then cs.take (cs.length - p.length) else cs))
    | "center" | "ljust" | "rjust" => do
      let width ← intOr 0 (arg "width")
      .ok (ofChars (padded cs width (← fillOf (arg "fillchar")) method))
    | "zfill" => do
      let width ← intOr 0 (arg "width")
      let missing := List.replicate (width.toNat - cs.length) '0'
      match cs with
      | c :: rest =>
        .ok (ofChars (if c = '+' || c = '-' then c :: missing ++ rest else missing ++ cs))
      | [] => .ok (ofChars missing)
    | "expandtabs" => do
      .ok (ofChars (expandTabs (← intOr 8 (arg "tabsize")).toNat 0 cs))
    | "encode" => do
      checkEncoding arg
      .ok (.bytes s.toUTF8.toList)
    | "format" => do .ok (ofChars (← formatted named (cs.length + 1) cs))
    | "__format__" => do
      let _ ← textOf (arg "format_spec")
      .ok (.text s)
    | "__len__" => .ok (.int cs.length)
    | "__iter__" =>
      .ok (.other (if cs.all fun c => c.toNat < 0x80 then "str_ascii_iterator" else "str_iterator"))
    | "__getnewargs__" => .ok (.list none [.text s])
    | "__add__" => do .ok (.text (s ++ (← textOf (arg "value"))))
    | "__mul__" | "__rmul__" => do
      let n ← intOr 0 (arg "value")
      .ok (ofChars (List.replicate n.toNat cs).flatten)
    | "__contains__" => do .ok (.bool (cutAt (← textOf (arg "key")).toList cs).isSome)
    | "__getitem__" => do
      match itemAt cs (← intOr 0 (arg "key")) with
      | some c => .ok (ofChars [c])
      | none => .error .index
    | "__eq__" | "__ne__" | "__lt__" | "__le__" | "__gt__" | "__ge__" =>
      match arg "value" with
      | .text t => .ok (((compared s t method).map Value.bool).getD notComparable)
      | _ => .ok notComparable
    | "translate" =>
      if cs.isEmpty || (arg "table").length?.isSome then .ok (.text s) else .error .type
    | "__mod__" | "__rmod__" => .ok notComparable
    | "find" | "rfind" | "index" | "rindex" | "count" | "startswith" | "endswith" | "maketrans"
    | "format_map" | "__new__" => .error .type
    | _ => .ok .null

end Wiring.Host
