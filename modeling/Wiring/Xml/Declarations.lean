import Wiring.Xml.Scan

/-!
# `Wiring.Xml.Declarations`: entities and rules for attributes

What the type of a document declares and what follows from it for the value of an attribute: named
entities are replaced by their texts, blanks become spaces, and the values of attributes that are
not plain text lose the spaces that separate nothing. An entity may not name itself on the way, so
the number of entities bounds the expansion.
-/

set_option autoImplicit false

namespace Wiring.Xml

/-- An entity. -/
inductive Entity where
  | internal (text : List Char)
  | external

/-- A declared attribute of an element. -/
structure AttributeRule where
  element : String
  name : String
  /-- Whether blanks in the value are kept. -/
  plain : Bool
  fallback : Option String

/-- The declarations in force. -/
structure Declarations where
  entities : List (String × Entity)
  rules : List AttributeRule
  /-- Whether parts of the document type may be unknown, so that an entity may be declared there. -/
  partial_ : Bool
  standalone : Bool

/-- No declarations. -/
def Declarations.none : Declarations := ⟨[], [], false, false⟩

/-- Collapses runs of blanks and drops them at both ends. -/
def collapse (cs : List Char) : List Char :=
  let words := cs.splitOnP (· = ' ')
  (words.filter fun w => !w.isEmpty).intersperse [' '] |>.flatten

/-- The value of an attribute from its text, with entities expanded up to a depth. -/
def attributeValue (d : Declarations) (depth : Nat) : Nat → List Char → Option (List Char)
  | 0, _ => Option.none
  | _, [] => some []
  | fuel + 1, '&' :: '#' :: rest =>
    match characterReference rest with
    | some (c, rest) => (attributeValue d depth fuel rest).map (c :: ·)
    | Option.none => Option.none
  | fuel + 1, '&' :: rest =>
    match (do let n ← simpleName; literally [';']; pure n : Scan String) rest with
    | Option.none => Option.none
    | some (name, rest) =>
      match predefined? name, d.entities.lookup name with
      | some c, _ => (attributeValue d depth fuel rest).map (c :: ·)
      | Option.none, some (.internal text) =>
        match depth with
        | 0 => Option.none
        | depth' + 1 =>
          match attributeValue d depth' (text.length + 1) text with
          | some value => (attributeValue d (depth' + 1) fuel rest).map (value ++ ·)
          | Option.none => Option.none
      | Option.none, some .external => Option.none
      | Option.none, Option.none =>
        if d.partial_ && !d.standalone then attributeValue d depth fuel rest else Option.none
  | fuel + 1, c :: rest =>
    if c = '<' then Option.none
    else (attributeValue d depth fuel rest).map ((if isSpace c then ' ' else c) :: ·)
termination_by fuel => (depth, fuel)

/-- The value of an attribute, by the rule for it if there is one. -/
def normalValue (d : Declarations) (rule : Option AttributeRule) (text : List Char) :
    Option String :=
  (attributeValue d (d.entities.length + 1) (text.length + 1) text).map fun value =>
    String.ofList (match rule with
      | some r => if r.plain then value else collapse value
      | Option.none => value)

/-- The rule for an attribute of an element. -/
def Declarations.rule? (d : Declarations) (element name : String) : Option AttributeRule :=
  d.rules.find? fun r => r.element = element && r.name = name

end Wiring.Xml
