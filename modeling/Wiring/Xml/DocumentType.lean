import Wiring.Xml.Declarations

/-!
# `Wiring.Xml.DocumentType`: the declarations inside a document

The type of a document may declare entities and default attributes between brackets. Elements and
notations are checked against the grammar and carry no meaning here, and no external part is read.
Behind a reference to a parameter entity, which may stand for anything, further declarations are not
heeded unless the document stands alone.
-/

set_option autoImplicit false

namespace Wiring.Xml

/-- A public identifier. -/
def publicText : Scan Unit := do
  let cs ← quotedText
  require (cs.all fun c => c.isAlphanum || " \n\r-'()+,./:=?;!*#@$_%".toList.contains c)

/-- The place of an external part, if one is given. -/
def externalPlace : Scan Bool := do
  if ← ahead "SYSTEM".toList then
    literally "SYSTEM".toList
    someBlanks
    let _ ← quotedText
    pure true
  else if ← ahead "PUBLIC".toList then
    literally "PUBLIC".toList
    someBlanks
    publicText
    someBlanks
    let _ ← quotedText
    pure true
  else pure false

/-- The text of an entity from its declaration: character references are replaced at once, and
references to other entities stay. -/
def entityText : Nat → List Char → Option (List Char)
  | 0, _ => none
  | _, [] => some []
  | fuel + 1, '&' :: '#' :: rest =>
    match characterReference rest with
    | some (c, rest) => (entityText fuel rest).map (c :: ·)
    | none => none
  | fuel + 1, '&' :: rest =>
    match (do let n ← simpleName; literally [';']; pure n : Scan String) rest with
    | some (name, rest) =>
      (entityText fuel rest).map fun more => '&' :: name.toList ++ ';' :: more
    | none => none
  | fuel + 1, c :: rest => if c = '%' then none else (entityText fuel rest).map (c :: ·)

/-- The rest of an entity declaration. The first declaration of a name counts. -/
def entityDeclaration (d : Declarations) (heeded : Bool) : Scan Declarations := do
  someBlanks
  let isParameter ← ahead ['%']
  if isParameter then
    literally ['%']
    someBlanks
  let name ← simpleName
  someBlanks
  let place ← externalPlace
  let entity ←
    if place then do
      let separated ← blanks
      if !isParameter && (← ahead "NDATA".toList) then
        require separated
        literally "NDATA".toList
        someBlanks
        let _ ← simpleName
      pure Entity.external
    else do
      let raw ← quotedText
      if !heeded then pure Entity.external
      else
        match entityText (raw.length + 1) raw with
        | some text => pure (Entity.internal text)
        | none => refuse
  let _ ← blanks
  literally ['>']
  if isParameter || !heeded || (d.entities.lookup name).isSome then pure d
  else pure { d with entities := d.entities ++ [(name, entity)] }

/-- A list of names between parentheses, with a bar between each two. -/
def choices (nameOf : Scan Unit) : Nat → Scan Unit
  | 0 => refuse
  | fuel + 1 => do
    let _ ← blanks
    nameOf
    let _ ← blanks
    if ← ahead ['|'] then
      literally ['|']
      choices nameOf fuel
    else literally [')']

/-- A name or a number, as it stands in a list of choices. -/
def token : Scan Unit := do
  let cs ← takeClass fun c => isNameChar c || c = ':'
  require !cs.isEmpty

/-- The type of an attribute. The answer tells whether blanks in its values are kept. -/
def attributeType : Scan Bool := fun cs =>
  let words := ["CDATA", "IDREFS", "IDREF", "ID", "ENTITIES", "ENTITY", "NMTOKENS", "NMTOKEN"]
  match words.find? fun w => w.toList.isPrefixOf cs with
  | some w => some (w = "CDATA", cs.drop w.length)
  | none =>
    (do
      if ← ahead "NOTATION".toList then
        literally "NOTATION".toList
        someBlanks
        literally ['(']
        choices (do let _ ← simpleName) cs.length
      else
        literally ['(']
        choices token cs.length
      pure false : Scan Bool) cs

/-- The attributes in an attribute list declaration, up to its end. -/
def attributeRules (element : String) : Nat → Declarations → Bool → Scan Declarations
  | 0, _, _ => refuse
  | fuel + 1, d, heeded => do
    let separated ← blanks
    if ← ahead ['>'] then
      literally ['>']
      pure d
    else
      require separated
      let name ← qualifiedName
      someBlanks
      let plain ← attributeType
      someBlanks
      let rule : AttributeRule := ⟨element, name.text, plain, none⟩
      let fallback ←
        if ← ahead "#REQUIRED".toList then do
          literally "#REQUIRED".toList
          pure none
        else if ← ahead "#IMPLIED".toList then do
          literally "#IMPLIED".toList
          pure none
        else do
          if ← ahead "#FIXED".toList then
            literally "#FIXED".toList
            someBlanks
          let raw ← quotedText
          if !heeded then pure none
          else
            match normalValue d (some rule) raw with
            | some v => pure (some v)
            | none => refuse
      let known := (d.rule? element name.text).isSome
      let d :=
        if known || !heeded then d else { d with rules := d.rules ++ [{ rule with fallback }] }
      attributeRules element fuel d heeded

/-- The mark behind a part of a content model that tells how often it stands, if there is one. -/
def repetition : Scan Unit := do
  let _ ← fun cs =>
    match cs with
    | c :: rest => some ((), if c = '?' || c = '*' || c = '+' then rest else c :: rest)
    | [] => some ((), [])
  pure ()

mutual

/-- A part of a content model: a name or a group. -/
def contentPart : Nat → Scan Unit
  | 0 => refuse
  | fuel + 1 => do
    if ← ahead ['('] then
      literally ['(']
      contentGroup fuel none
    else
      let _ ← qualifiedName
    repetition

/-- The rest of a group behind its opening. One mark separates all of its parts. -/
def contentGroup : Nat → Option Char → Scan Unit
  | 0, _ => refuse
  | fuel + 1, mark => do
    let _ ← blanks
    contentPart fuel
    let _ ← blanks
    if ← ahead [')'] then literally [')']
    else
      let next := if ← ahead ['|'] then '|' else ','
      require (mark.isNone || mark = some next)
      literally [next]
      contentGroup fuel (some next)

end

/-- The rest of a group that allows text, behind the mark for it. -/
def mixedGroup : Nat → Bool → Scan Unit
  | 0, _ => refuse
  | fuel + 1, named => do
    let _ ← blanks
    if ← ahead ['|'] then
      literally ['|']
      let _ ← blanks
      let _ ← qualifiedName
      mixedGroup fuel true
    else
      literally [')']
      if named then literally ['*']
      else if ← ahead ['*'] then literally ['*']

/-- The rest of an element declaration. -/
def elementDeclaration : Scan Unit := do
  someBlanks
  let _ ← qualifiedName
  someBlanks
  let fuel := 2 * (← get).length + 2
  if ← ahead "EMPTY".toList then literally "EMPTY".toList
  else if ← ahead "ANY".toList then literally "ANY".toList
  else
    literally ['(']
    let _ ← blanks
    if ← ahead "#PCDATA".toList then
      literally "#PCDATA".toList
      mixedGroup fuel false
    else
      contentGroup fuel none
      repetition
  let _ ← blanks
  literally ['>']

/-- The rest of a notation declaration. -/
def notationDeclaration : Scan Unit := do
  someBlanks
  let _ ← simpleName
  someBlanks
  if ← ahead "PUBLIC".toList then
    literally "PUBLIC".toList
    someBlanks
    publicText
    if ← blanks then
      if !(← ahead ['>']) then
        let _ ← quotedText
  else
    literally "SYSTEM".toList
    someBlanks
    let _ ← quotedText
  let _ ← blanks
  literally ['>']

/-- The declarations between the brackets of a document type, up to the closing one. -/
def internalSubset : Nat → Declarations → Bool → Scan Declarations
  | 0, _, _ => refuse
  | fuel + 1, d, heeded => do
    let _ ← blanks
    if ← ahead [']'] then
      literally [']']
      pure d
    else if ← ahead "<!--".toList then
      literally "<!--".toList
      commentRest
      internalSubset fuel d heeded
    else if ← ahead ['<', '?'] then
      literally ['<', '?']
      instructionRest
      internalSubset fuel d heeded
    else if ← ahead ['%'] then
      literally ['%']
      let _ ← simpleName
      literally [';']
      internalSubset fuel { d with partial_ := true } (heeded && d.standalone)
    else if ← ahead "<!ENTITY".toList then
      literally "<!ENTITY".toList
      let d ← entityDeclaration d heeded
      internalSubset fuel d heeded
    else if ← ahead "<!ATTLIST".toList then
      literally "<!ATTLIST".toList
      someBlanks
      let element ← qualifiedName
      let d ← attributeRules element.text fuel d heeded
      internalSubset fuel d heeded
    else if ← ahead "<!ELEMENT".toList then
      literally "<!ELEMENT".toList
      elementDeclaration
      internalSubset fuel d heeded
    else
      literally "<!NOTATION".toList
      notationDeclaration
      internalSubset fuel d heeded

/-- The rest of a document type behind its opening. -/
def documentType (d : Declarations) : Scan Declarations := fun cs =>
  (do
    someBlanks
    let _ ← qualifiedName
    let separated ← blanks
    let place ← externalPlace
    require (separated || !place)
    let _ ← blanks
    let d := if place then { d with partial_ := true } else d
    let d ←
      if ← ahead ['['] then do
        literally ['[']
        internalSubset (cs.length + 1) d true
      else pure d
    let _ ← blanks
    literally ['>']
    pure d : Scan Declarations) cs

end Wiring.Xml
