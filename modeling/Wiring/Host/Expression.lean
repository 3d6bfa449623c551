/-!
# `Wiring.Host.Expression`: expressions of the host language

A textual annotation is an expression of the host language. It is cut into tokens first: blanks and
comments fall away, and lines count only outside brackets, where nothing but empty lines may stand
beside the expression. Operators of two operands are read by their strength, the weaker ones further
out, and `not`, conditions and functions without name stand outside of all of them.
-/

set_option autoImplicit false

namespace Wiring.Host

/-! ### Tokens -/

/-- A piece of an expression. -/
inductive Token where
  | name (s : String)
  | text (s : String)
  | bytes
  | number (isZero : Bool)
  | mark (s : String)
  | lineEnd
  deriving DecidableEq, Inhabited

/-- Whether a name may start with the character. -/
def isNameStart (c : Char) : Bool := c.isAlpha || c = '_' || 128 ≤ c.toNat

/-- Whether a name may go on with the character. -/
def isNamePart (c : Char) : Bool := isNameStart c || c.isDigit

/-- The marks of more than one character, the longer ones first. -/
def longMarks : List String := ["...", "**", "//", "<<", ">>", "<=", ">=", "==", "!=", ":="]

/-- Takes a quoted text up to its closing quotes. -/
def takeQuoted (closing : List Char) (raw : Bool) :
    List Char → Option (List Char × List Char)
  | [] => none
  | '\\' :: c :: rest =>
    if raw then (takeQuoted closing raw rest).map fun r => ('\\' :: c :: r.1, r.2)
    else
      let plain := [('n', '\n'), ('t', '\t'), ('r', '\r'), ('\\', '\\'), ('\'', '\''), ('"', '"')]
      match plain.lookup c with
      | some d => (takeQuoted closing raw rest).map fun r => (d :: r.1, r.2)
      | none =>
        if c = '\n' then takeQuoted closing raw rest
        else (takeQuoted closing raw rest).map fun r => ('\\' :: c :: r.1, r.2)
  | c :: rest =>
    if closing.isPrefixOf (c :: rest) then some ([], (c :: rest).drop closing.length)
    else if c = '\n' && closing.length = 1 then none
    else (takeQuoted closing raw rest).map fun r => (c :: r.1, r.2)

/-- Takes a quoted text with its quotes. -/
def quotation? (raw : Bool) (cs : List Char) : Option (List Char × List Char) :=
  match cs with
  | q :: rest =>
    if q = '"' || q = '\'' then
      if [q, q].isPrefixOf rest then takeQuoted [q, q, q] raw (rest.drop 2)
      else takeQuoted [q] raw rest
    else none
  | [] => none

/-- The letters that may stand in front of a quoted text. -/
def quotePrefixes : List String := ["r", "u", "b", "br", "rb"]

/-- Takes the token at the front. -/
def nextToken (cs : List Char) : Option (Token × List Char) :=
  match cs with
  | [] => none
  | c :: rest =>
    if isNameStart c then
      let word := String.ofList (c :: rest.takeWhile isNamePart)
      let after := rest.dropWhile isNamePart
      let lowered := word.toLower
      if quotePrefixes.contains lowered && (after.head? = some '"' || after.head? = some '\'') then
        (quotation? (lowered.toList.contains 'r') after).map fun r =>
          (if lowered.toList.contains 'b' then .bytes else .text (String.ofList r.1), r.2)
      else some (.name word, after)
    else if c.isDigit || (c = '.' && (rest.head?.map Char.isDigit).getD false) then
      let part := fun d : Char => d.isAlphanum || d = '.' || d = '_'
      let digits := c :: rest.takeWhile part
      some (.number (digits.all fun d => d = '0' || d = '.' || d = '_'), rest.dropWhile part)
    else
      match quotation? false cs with
      | some (s, after) => some (.text (String.ofList s), after)
      | none =>
        if c = '"' || c = '\'' then none
        else
          match longMarks.find? fun m => m.toList.isPrefixOf cs with
          | some m => some (.mark m, cs.drop m.length)
          | none =>
            if "()[]\x7b\x7d,:.=+-*/%@&|^~<>".toList.contains c then
              some (.mark (String.singleton c), rest)
            else none

/-- Cuts a text into tokens. The bound is the number of characters left, and the depth the number of
open brackets. -/
def tokensFrom : Nat → Nat → List Char → Option (List Token)
  | _, _, [] => some []
  | 0, _, _ :: _ => none
  | fuel + 1, depth, c :: rest =>
    if c = ' ' || c = '\t' || c.toNat = 12 then tokensFrom fuel depth rest
    else if c = '#' then tokensFrom fuel depth (rest.dropWhile (· ≠ '\n'))
    else if c = '\n' || c = '\r' then
      if depth = 0 then (tokensFrom fuel depth rest).map (.lineEnd :: ·)
      else tokensFrom fuel depth rest
    else if c = '\\' && rest.head? = some '\n' then tokensFrom fuel depth (rest.drop 1)
    else
      match nextToken (c :: rest) with
      | none => none
      | some (t, after) =>
        let deeper := match t with
          | .mark "(" | .mark "[" | .mark "\x7b" => depth + 1
          | .mark ")" | .mark "]" | .mark "\x7d" => depth - 1
          | _ => depth
        (tokensFrom fuel deeper after).map (t :: ·)

/-- Drops empty lines and comments in front. -/
def dropEmptyLines : Nat → List Char → List Char
  | 0, cs => cs
  | fuel + 1, cs =>
    let content := cs.dropWhile fun c => c = ' ' || c = '\t' || c.toNat = 12
    match content with
    | '\n' :: rest => dropEmptyLines fuel rest
    | '#' :: rest =>
      match rest.dropWhile (· ≠ '\n') with
      | _ :: more => dropEmptyLines fuel more
      | [] => []
    | _ => cs

/-- The tokens of an expression. Nothing may stand in front of its first line. -/
def tokens? (s : String) : Option (List Token) :=
  let cs := dropEmptyLines s.length s.toList
  match cs.dropWhile fun c => c.toNat = 12 with
  | ' ' :: _ | '\t' :: _ => none
  | rest => tokensFrom (rest.length + 1) 0 rest

/-! ### Expressions -/

/-- An expression. -/
inductive Expression where
  | name (s : String)
  | text (s : String)
  | bytes
  | number (isZero : Bool)
  | ellipsis
  | function
  /-- A list, a set or a mapping. -/
  | collection (isEmpty : Bool) (items : List Expression)
  | tuple (items : List Expression)
  | attribute (e : Expression) (name : String)
  | item (e index : Expression)
  | call (f : Expression) (arguments : List Expression)
  | negated (e : Expression)
  | signed (e : Expression)
  | both (a b : Expression)
  | either (a b : Expression)
  | condition (test yes no : Expression)
  | comparison (operator : String) (a b : Expression)
  | operation (operator : String) (a b : Expression)
  deriving Inhabited

/-- A reader of tokens that may refuse. -/
abbrev Reading (α : Type) := StateT (List Token) Option α

namespace Reading

/-- Refuses. -/
def refuse {α : Type} : Reading α := fun _ => none

/-- The next token. -/
def peek : Reading (Option Token) := do pure (← get).head?

/-- Passes over the next token. -/
def skip : Reading Unit := modify fun ts => ts.drop 1

/-- Passes over a mark. -/
def mark (s : String) : Reading Unit := fun ts =>
  match ts with
  | .mark m :: rest => if m = s then some ((), rest) else none
  | _ => none

/-- Passes over a word. -/
def word (s : String) : Reading Unit := fun ts =>
  match ts with
  | .name n :: rest => if n = s then some ((), rest) else none
  | _ => none

end Reading

/-- The words that are no names. -/
def keywords : List String :=
  ["False", "None", "True", "and", "as", "assert", "async", "await", "break", "class", "continue",
    "def", "del", "elif", "else", "except", "finally", "for", "from", "global", "if", "import",
    "in", "is", "lambda", "nonlocal", "not", "or", "pass", "raise", "return", "try", "while",
    "with", "yield"]

/-- The strength of an operator between two operands. -/
def strength? : Token → Option Nat
  | .mark "|" => some 5
  | .mark "^" => some 6
  | .mark "&" => some 7
  | .mark "<<" | .mark ">>" => some 8
  | .mark "+" | .mark "-" => some 9
  | .mark "*" | .mark "/" | .mark "//" | .mark "%" | .mark "@" => some 10
  | .mark "**" => some 12
  | _ => none

/-- The comparison at the front, and the number of its tokens. -/
def comparison? : List Token → Option (String × Nat)
  | .mark m :: _ =>
    if ["<", ">", "<=", ">=", "==", "!="].contains m then some (m, 1) else none
  | .name "is" :: .name "not" :: _ => some ("is not", 2)
  | .name "is" :: _ => some ("is", 1)
  | .name "in" :: _ => some ("in", 1)
  | .name "not" :: .name "in" :: _ => some ("not in", 2)
  | _ => none

open Reading in
mutual

/-- An expression with the weakest operators outside. The bound limits the nesting. -/
def anything : Nat → Reading Expression
  | 0 => refuse
  | fuel + 1 => do
    if (← peek) = some (.name "lambda") then
      skip
      parameters fuel
      mark ":"
      let _ ← anything fuel
      pure .function
    else
      let e ← alternatives fuel
      if (← peek) = some (.name "if") then
        skip
        let test ← alternatives fuel
        word "else"
        pure (.condition test e (← anything fuel))
      else pure e

/-- The names in front of the colon of a function without name. -/
def parameters : Nat → Reading Unit
  | 0 => refuse
  | fuel + 1 => do
    match ← peek with
    | some (.name _) | some (.mark ",") | some (.mark "*") | some (.mark "**")
    | some (.mark "/") =>
      skip
      parameters fuel
    | some (.mark "=") =>
      skip
      let _ ← anything fuel
      parameters fuel
    | _ => pure ()

/-- Alternatives of which the first true one counts. -/
def alternatives : Nat → Reading Expression
  | 0 => refuse
  | fuel + 1 => do
    let e ← conditions fuel
    if (← peek) = some (.name "or") then
      skip
      pure (.either e (← alternatives fuel))
    else pure e

/-- Conditions of which the first false one counts. -/
def conditions : Nat → Reading Expression
  | 0 => refuse
  | fuel + 1 => do
    let e ← denial fuel
    if (← peek) = some (.name "and") then
      skip
      pure (.both e (← conditions fuel))
    else pure e

/-- An expression that may be negated. -/
def denial : Nat → Reading Expression
  | 0 => refuse
  | fuel + 1 => do
    if (← peek) = some (.name "not") then
      skip
      pure (.negated (← denial fuel))
    else
      let e ← climb fuel 5
      comparisons fuel e

/-- Comparisons behind an operand. -/
def comparisons : Nat → Expression → Reading Expression
  | 0, _ => refuse
  | fuel + 1, e => do
    match comparison? (← get) with
    | some (operator, n) =>
      modify fun ts => ts.drop n
      let b ← climb fuel 5
      comparisons fuel (.comparison operator e b)
    | none => pure e

/-- An expression of operators of at least a strength. -/
def climb : Nat → Nat → Reading Expression
  | 0, _ => refuse
  | fuel + 1, least => do
    let e ← operand fuel
    operations fuel least e

/-- Operators of at least a strength behind an operand. -/
def operations : Nat → Nat → Expression → Reading Expression
  | 0, _, _ => refuse
  | fuel + 1, least, e => do
    match ← peek with
    | some (.mark m) =>
      match strength? (.mark m) with
      | some n =>
        if least ≤ n then
          skip
          let b ← climb fuel (if m = "**" then n else n + 1)
          operations fuel least (.operation m e b)
        else pure e
      | none => pure e
    | _ => pure e

/-- An operand with the signs in front of it. -/
def operand : Nat → Reading Expression
  | 0 => refuse
  | fuel + 1 => do
    match ← peek with
    | some (.mark "-") | some (.mark "+") | some (.mark "~") =>
      skip
      pure (.signed (← operand fuel))
    | _ =>
      let e ← atom fuel
      trailers fuel e

/-- What follows an operand: attributes, items and calls. -/
def trailers : Nat → Expression → Reading Expression
  | 0, _ => refuse
  | fuel + 1, e => do
    match ← get with
    | .mark "." :: .name n :: rest =>
      if keywords.contains n then refuse
      set rest
      trailers fuel (.attribute e n)
    | .mark "[" :: rest =>
      set rest
      let (items, isTuple) ← separated fuel "]"
      match items, isTuple with
      | [i], false => trailers fuel (.item e i)
      | _, _ => if items.isEmpty then refuse else trailers fuel (.item e (.tuple items))
    | .mark "(" :: rest =>
      set rest
      let (items, _) ← separated fuel ")"
      trailers fuel (.call e items)
    | _ => pure e

/-- Expressions between commas up to a closing mark, and whether a comma makes them a tuple. -/
def separated : Nat → String → Reading (List Expression × Bool)
  | 0, _ => refuse
  | fuel + 1, closing => do
    if (← peek) = some (.mark closing) then
      skip
      pure ([], false)
    else
      let e ← anything fuel
      if (← peek) = some (.mark ":") && closing = "\x7d" then
        skip
        let _ ← anything fuel
      if (← peek) = some (.mark ",") then
        skip
        let (more, _) ← separated fuel closing
        pure (e :: more, true)
      else
        mark closing
        pure ([e], false)

/-- An operand without signs. -/
def atom : Nat → Reading Expression
  | 0 => refuse
  | fuel + 1 => do
    match ← get with
    | .text s :: rest =>
      set rest
      match rest with
      | .text _ :: _ =>
        match ← atom fuel with
        | .text t => pure (.text (s ++ t))
        | _ => refuse
      | _ => pure (.text s)
    | .bytes :: rest => do set rest *> pure .bytes
    | .number z :: rest => do set rest *> pure (.number z)
    | .mark "..." :: rest => do set rest *> pure .ellipsis
    | .name n :: rest =>
      set rest
      if ["True", "False", "None"].contains n || !keywords.contains n then pure (.name n)
      else refuse
    | .mark "(" :: rest =>
      set rest
      let (items, isTuple) ← separated fuel ")"
      match items, isTuple with
      | [e], false => pure e
      | _, _ => pure (.tuple items)
    | .mark "[" :: rest =>
      set rest
      let (items, _) ← separated fuel "]"
      pure (.collection items.isEmpty items)
    | .mark "\x7b" :: rest =>
      set rest
      let (items, _) ← separated fuel "\x7d"
      pure (.collection items.isEmpty items)
    | _ => refuse

end

/-- The expression of a text, with nothing behind it but the ends of lines. Several expressions with
commas between them are not one. -/
def expression? (s : String) : Option Expression := do
  let ts ← tokens? s
  let (e, rest) ← (anything (16 * (ts.length + 1))).run ts
  if rest.all (· = .lineEnd) then some e else none

end Wiring.Host
