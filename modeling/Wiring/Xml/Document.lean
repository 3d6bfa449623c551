import Wiring.Text.Split
import Wiring.Xml.Content
import Wiring.Xml.DocumentType

/-!
# `Wiring.Xml.Document`: the tree of a document

A document is well formed when it matches the grammar of XML 1.0 with namespaces: a heading and a
document type, both optional, and one element, with comments and instructions between them.
`readDocument?` gives the tree of the elements, or nothing when the document is not well formed.
-/

set_option autoImplicit false

namespace Wiring.Xml

/-- What the first line of a document declares. -/
structure Heading where
  encoding : Option String
  standalone : Bool

/-- A word of the first line: its name and its value. -/
def headingWord (name : String) : Scan (List Char) := do
  literally name.toList
  let _ ← blanks
  literally ['=']
  let _ ← blanks
  let value ← quotedText
  require (value.all fun c => (c.isAlphanum || c = '.' || c = '-' || c = '_') && c.toNat < 0x80)
  pure value

/-- The heading behind its opening: the version, the encoding and whether the document stands
alone. -/
def headingRest : Scan Heading := do
  someBlanks
  let _ ← headingWord "version"
  let separated ← blanks
  let encoding ←
    if ← ahead "encoding".toList then do
      require separated
      let value ← headingWord "encoding"
      require ((value.head?.map Char.isAlpha).getD false)
      pure (some (String.ofList value))
    else pure none
  let separated ← if encoding.isSome then blanks else pure separated
  let standalone ←
    if ← ahead "standalone".toList then do
      require separated
      let value ← headingWord "standalone"
      require (value = "yes".toList || value = "no".toList)
      pure (decide (value = "yes".toList))
    else pure false
  let _ ← blanks
  literally ['?', '>']
  pure ⟨encoding, standalone⟩

/-- Whether a document begins with a heading. -/
def hasHeading (cs : List Char) : Bool :=
  "<?xml".toList.isPrefixOf cs &&
    (match cs.drop 5 with
    | [] => true
    | c :: _ => isSpace c || c = '?')

/-- The heading, if there is one. -/
def heading : Scan Heading := fun cs =>
  if hasHeading cs then headingRest (cs.drop 5) else some (⟨none, false⟩, cs)

/-- Passes over comments, instructions and blanks between the parts of a document. -/
def miscellany : Nat → Scan Unit
  | 0 => refuse
  | fuel + 1 => do
    let _ ← blanks
    if ← ahead "<!--".toList then
      literally "<!--".toList
      commentRest
      miscellany fuel
    else if ← ahead ['<', '?'] then
      literally ['<', '?']
      instructionRest
      miscellany fuel
    else pure ()

/-- The tree of a document whose heading has been read. -/
def body (standalone : Bool) : Scan Element := fun cs =>
  let fuel := cs.length + 1
  (do
    miscellany fuel
    let d := { Declarations.none with standalone }
    let d ←
      if ← ahead "<!DOCTYPE".toList then do
        literally "<!DOCTYPE".toList
        let d ← documentType d
        miscellany fuel
        pure d
      else pure d
    require ((← ahead ['<']) && !(← ahead ['<', '!']))
    let bottom : Frame := ⟨"", "", [], [], []⟩
    let frames ← fun cs =>
      content d (entityContent d (d.entities.length + 1)) true fuel [bottom] cs
    let root ←
      match frames with
      | [f] =>
        match f.children with
        | [e] => pure e
        | _ => refuse
      | _ => refuse
    miscellany fuel
    require (← get).isEmpty
    pure root : Scan Element) cs

/-- The tree of a document in characters, or nothing when it is not well formed. The flag tells
whether the ordinal letters are letters. -/
def readCharacters? (ordinals : Bool) (cs : List Char) : Option Element := do
  if !cs.all fun c => isLegal c.toNat then none
  let cs := if ordinals then cs.map (exchange ordinalLetters ordinalMarks) else cs
  let (h, rest) ← heading (Text.unifyLineEnds cs)
  let (e, _) ← body h.standalone rest
  pure (if ordinals then e.exchanged (exchange ordinalMarks ordinalLetters) else e)

/-- The tree of a document, or nothing when it is not well formed. A byte order mark in front is
passed over. -/
def readDocument? (cs : List Char) : Option Element :=
  readCharacters? false
    (match cs with
    | c :: rest => if c.toNat = 0xfeff then rest else cs
    | [] => cs)

end Wiring.Xml
