import Wiring.Xml.Declarations
import Wiring.Xml.Element

/-!
# `Wiring.Xml.Content`: elements and what stands between them

Content is read with the stack of the open elements. A start tag opens a frame, an end tag closes
the innermost one, and the text of an entity is read as content of its own that closes all it opens.
Names are expanded by the namespaces that are bound where they stand.
-/

set_option autoImplicit false

namespace Wiring.Xml

/-! ### Namespaces -/

/-- The namespace of the prefix xml. -/
def xmlSpace : String := "http://www.w3.org/XML/1998/namespace"

/-- The namespace of the prefix xmlns. -/
def xmlnsSpace : String := "http://www.w3.org/2000/xmlns/"

/-- Prefixes with their namespaces, the innermost binding first. The empty prefix is the default. -/
abbrev Bindings := List (String × String)

/-- Whether a prefix may be bound to a namespace. -/
def mayBind (space uri : String) : Bool :=
  if space = "xmlns" then false
  else if space = "xml" then uri = xmlSpace
  else if uri = "" then space = ""
  else uri ≠ xmlSpace && uri ≠ xmlnsSpace && !uri.toList.contains '\x7d'

/-- The prefix that an attribute binds, if it binds one. -/
def boundPrefix? (q : QName) : Option String :=
  match q.space with
  | none => if q.base = "xmlns" then some "" else none
  | some p => if p = "xmlns" then some q.base else none

/-- The name of an element or attribute with its namespace in front. -/
def expand (b : Bindings) (useDefault : Bool) (q : QName) : Option String :=
  match q.space with
  | none =>
    match (if useDefault then b.lookup "" else none) with
    | some uri => some (if uri = "" then q.base else "\x7b" ++ uri ++ "\x7d" ++ q.base)
    | none => some q.base
  | some p =>
    match (if p = "xml" then some xmlSpace else b.lookup p) with
    | some uri => some ("\x7b" ++ uri ++ "\x7d" ++ q.base)
    | none => none

/-! ### Tags -/

/-- The attributes of a tag, as they stand there, and whether the tag closes itself. -/
def attributesRest : Nat → Scan (List (QName × List Char) × Bool)
  | 0 => refuse
  | fuel + 1 => do
    let separated ← blanks
    if ← ahead ['>'] then
      literally ['>']
      pure ([], false)
    else if ← ahead ['/', '>'] then
      literally ['/', '>']
      pure ([], true)
    else
      require separated
      let q ← qualifiedName
      let _ ← blanks
      literally ['=']
      let _ ← blanks
      let text ← quotedText
      let (others, closed) ← attributesRest fuel
      pure ((q, text) :: others, closed)

/-- Reads a name that may have a prefix from a text of its own. -/
def nameOf? (s : String) : Option QName :=
  match qualifiedName s.toList with
  | some (q, []) => some q
  | _ => none

/-- An element that is still open. -/
structure Frame where
  name : String
  tag : String
  attributes : List (String × String)
  bindings : Bindings
  /-- The children so far in reverse. -/
  children : List Element

/-- The element of a frame. -/
def Frame.close (f : Frame) : Element := .mk f.tag f.attributes f.children.reverse

/-- Adds a child. -/
def Frame.add (f : Frame) (e : Element) : Frame := { f with children := e :: f.children }

/-- The attributes that a document type adds to an element. -/
def addedAttributes (d : Declarations) (element : String) (given : List String) :
    Option (List (QName × String)) :=
  (d.rules.filter fun r => r.element = element && !given.contains r.name).filterMapM fun r =>
    match r.fallback with
    | none => some none
    | some v => (nameOf? r.name).map fun q => some (q, v)

/-- Opens an element: values and names of its attributes, with the bindings that it makes. -/
def openFrame (d : Declarations) (b : Bindings) (q : QName) (given : List (QName × List Char)) :
    Option Frame := do
  let values ← given.mapM fun a => do
    let v ← normalValue d (d.rule? q.text a.1.text) a.2
    pure (a.1, v)
  let names := given.map fun a => a.1.text
  if !decide names.Nodup then none
  let all := values ++ (← addedAttributes d q.text names)
  let bound := all.filterMap fun a => (boundPrefix? a.1).map fun p => (p, a.2)
  if !bound.all fun x => mayBind x.1 x.2 then none
  let inner := bound.reverse ++ b
  let attributes ← (all.filter fun a => (boundPrefix? a.1).isNone).mapM fun a => do
    pure ((← expand inner false a.1), a.2)
  if !decide (attributes.map Prod.fst).Nodup then none
  pure ⟨q.text, ← expand inner true q, attributes, inner, []⟩

/-! ### Content -/

/-- Adds an element to the innermost open one. -/
def attach (e : Element) : List Frame → Option (List Frame)
  | [] => none
  | f :: rest => some (f.add e :: rest)

/-- Reads content. The frame at the bottom was there before, and no end tag closes it: content that
stands by itself ends with the text, and a document ends where the bottom is reached again. -/
def content (d : Declarations) (expandEntity : String → Frame → Option Frame) (document : Bool) :
    Nat → List Frame → List Char → Option (List Frame × List Char)
  | 0, _, _ => none
  | _, [], _ => none
  | _, frames, [] => some (frames, [])
  | fuel + 1, frames, '<' :: '!' :: '-' :: '-' :: rest =>
    match commentRest rest with
    | some (_, rest) => content d expandEntity document fuel frames rest
    | none => none
  | fuel + 1, frames, '<' :: '!' :: rest =>
    match (do literally "[CDATA[".toList; upTo [']', ']', '>'] : Scan (List Char)) rest with
    | some (_, rest) => content d expandEntity document fuel frames rest
    | none => none
  | fuel + 1, frames, '<' :: '?' :: rest =>
    match instructionRest rest with
    | some (_, rest) => content d expandEntity document fuel frames rest
    | none => none
  | fuel + 1, frame :: below, '<' :: '/' :: rest =>
    match (do let q ← qualifiedName; let _ ← blanks; literally ['>']; pure q : Scan QName) rest with
    | none => none
    | some (q, rest) =>
      if below.isEmpty || q.text ≠ frame.name then none
      else
        match attach frame.close below with
        | none => none
        | some frames =>
          if document && frames.length = 1 then some (frames, rest)
          else content d expandEntity document fuel frames rest
  | fuel + 1, frame :: below, '<' :: rest =>
    match (do
      let q ← qualifiedName
      let (given, closed) ← attributesRest (rest.length + 1)
      pure (q, given, closed) : Scan (QName × List (QName × List Char) × Bool)) rest with
    | none => none
    | some ((q, given, closed), rest) =>
      match openFrame d frame.bindings q given with
      | none => none
      | some opened =>
        if closed then
          let frames := frame.add opened.close :: below
          if document && below.isEmpty then some (frames, rest)
          else content d expandEntity document fuel frames rest
        else content d expandEntity document fuel (opened :: frame :: below) rest
  | fuel + 1, frames, '&' :: '#' :: rest =>
    match characterReference rest with
    | some (_, rest) => content d expandEntity document fuel frames rest
    | none => none
  | fuel + 1, frame :: below, '&' :: rest =>
    match (do let n ← simpleName; literally [';']; pure n : Scan String) rest with
    | none => none
    | some (name, rest) =>
      match predefined? name with
      | some _ => content d expandEntity document fuel (frame :: below) rest
      | none =>
        match expandEntity name frame with
        | some frame => content d expandEntity document fuel (frame :: below) rest
        | none => none
  | fuel + 1, frames, c :: rest =>
    if [']', ']', '>'].isPrefixOf (c :: rest) then none
    else content d expandEntity document fuel frames rest

/-- Reads the text of an entity as content of an open element, up to a depth. All that it opens it
closes. -/
def entityContent (d : Declarations) : Nat → String → Frame → Option Frame
  | 0, _, _ => none
  | depth + 1, name, frame =>
    match d.entities.lookup name with
    | some (.internal text) =>
      match content d (entityContent d depth) false (text.length + 1) [frame] text with
      | some ([frame], []) => some frame
      | _ => none
    | _ => none

end Wiring.Xml
