import Wiring.Config

/-!
# `Wiring.Config.Ini`: configurations from ini files

An ini file is a list of sections with options. A line that is indented deeper than its option
continues the value, a line that starts with `#` or `;` is a comment, and an empty line inside a
value belongs to it. Within one file a section or an option may not be repeated; over several files
the later value wins at the place of the first. The options of the `DEFAULT` section come first in
every section, and the section's own values override them in place.

A line that is no option is remembered, and the file is refused at its end.
-/

set_option autoImplicit false

namespace Wiring.Ini

/-- The name of the section whose options hold for all others. -/
def defaultSection : String := "DEFAULT"

/-- The sections read so far, the defaults apart. -/
structure Document where
  defaults : OrderedMap String String
  sections : OrderedMap String (OrderedMap String String)
  deriving Inhabited

/-- The document without sections. -/
def Document.empty : Document := ⟨.empty, .empty⟩

/-- What a line refers to: the open section and the option whose value is being read. -/
structure Cursor where
  document : Document
  /-- The open section. -/
  current : Option String
  /-- The option that a deeper line continues, with the lines of its value in reverse. -/
  pending : Option (String × List String)
  indent : Nat
  seenSections : List String
  seenOptions : List (String × String)
  /-- Whether a line could not be read. -/
  broken : Bool

/-- The options of a section. -/
def Document.options (d : Document) (name : String) : OrderedMap String String :=
  if name = defaultSection then d.defaults
  else (d.sections.get? name).getD .empty

/-- Writes an option of a section. -/
def Document.setOption (d : Document) (section_ key value : String) : Document :=
  if section_ = defaultSection then
    { d with defaults := d.defaults.insert key value }
  else { d with sections := d.sections.insert section_ ((d.options section_).insert key value) }

/-- The value of an option from the lines of it in reverse. -/
def joinLines (linesReversed : List String) : String :=
  String.ofList (Text.trimEnd ("\n".intercalate linesReversed.reverse).toList)

/-- Stores the value that was being read. -/
def Cursor.flush (c : Cursor) : Cursor :=
  match c.current, c.pending with
  | some s, some (key, lines) =>
    { c with document := c.document.setOption s key (joinLines lines), pending := none }
  | _, _ => { c with pending := none }

/-- The name in a section header: all between the first bracket and the last closing one. -/
def header? : List Char → Option String
  | '[' :: rest =>
    match rest.reverse.dropWhile (· ≠ ']') with
    | [] => none
    | _ :: inner => if inner.isEmpty then none else some (String.ofList inner.reverse)
  | _ => none

/-- The two sides of the first delimiter of an option line. -/
def option? (cs : List Char) : Option (String × String) :=
  let isDelimiter := fun c : Char => c = '=' || c = ':'
  match cs.dropWhile (fun c => !isDelimiter c) with
  | [] => none
  | _ :: value =>
    let key := cs.takeWhile fun c => !isDelimiter c
    some (String.ofList (Text.trimEnd key), String.ofList (Text.trim value))

/-- Opens a section. -/
def Cursor.openSection (c : Cursor) (name : String) : Except Fault Cursor :=
  let c := c.flush
  if c.document.sections.contains name then
    if name ∈ c.seenSections then .error (.foreign .sectionRepeated)
    else .ok { c with current := some name, seenSections := name :: c.seenSections }
  else if name = defaultSection then .ok { c with current := some name }
  else
    let document := { c.document with sections := c.document.sections.insert name .empty }
    .ok { c with document, current := some name, seenSections := name :: c.seenSections }

/-- Starts an option of the open section. -/
def Cursor.openOption (c : Cursor) (name key value : String) : Except Fault Cursor :=
  let c := c.flush
  if (name, key) ∈ c.seenOptions then .error (.foreign .optionRepeated)
  else
    let document := c.document.setOption name key ""
    .ok { c with
      document, pending := some (key, [value]), seenOptions := (name, key) :: c.seenOptions
      broken := c.broken || key = "" }

/-- Reads a line that continues nothing. -/
def Cursor.startLine (c : Cursor) (content : List Char) : Except Fault Cursor :=
  match header? content with
  | some name => c.openSection name
  | none =>
    match c.current with
    | none => .error (.foreign .sectionHeader)
    | some name =>
      match option? content with
      | some (key, value) => c.openOption name key value
      | none => .ok { c with broken := true }

/-- Reads a line. -/
def Cursor.line (c : Cursor) (cs : List Char) : Except Fault Cursor :=
  let content := Text.trim cs
  match content with
  | [] =>
    match c.pending with
    | some (key, lines) =>
      .ok (if key = "" then c else { c with pending := some (key, "" :: lines) })
    | none => .ok c
  | first :: _ =>
    if first = '#' || first = ';' then .ok c
    else
      let indent := (cs.takeWhile Text.isBlank).length
      match c.pending with
      | some (key, lines) =>
        if key ≠ "" && c.indent < indent then
          .ok { c with pending := some (key, String.ofList content :: lines) }
        else { c with indent }.startLine content
      | none => { c with indent }.startLine content

/-- The lines of a text. A line end at the end of the text starts no line. -/
def linesOf (s : String) : List (List Char) :=
  let all := Text.split '\n' (Text.unifyLineEnds s.toList)
  if all.getLast? = some [] then all.dropLast else all

/-- Reads lines in turn. -/
def Cursor.lines (c : Cursor) : List (List Char) → Except Fault Cursor
  | [] => .ok c
  | l :: rest =>
    match c.line l with
    | .error e => .error e
    | .ok c => c.lines rest

/-- Reads a file into a document. -/
def Document.read (d : Document) (s : String) : Except Fault Document :=
  match Cursor.lines ⟨d, none, none, 0, [], [], false⟩ (linesOf s) with
  | .error e => .error e
  | .ok c => if c.broken then .error (.foreign .optionUnparsed) else .ok c.flush.document

/-- Reads files in turn. -/
def Document.readAll (d : Document) : List String → Except Fault Document
  | [] => .ok d
  | s :: rest =>
    match d.read s with
    | .error e => .error e
    | .ok d => d.readAll rest

/-- The options of a section behind the defaults. -/
def Document.items (d : Document) (options : OrderedMap String String) : List (String × String) :=
  (d.defaults.merge options).entries

/-- The configuration of a document: an option is set under the section's name and its own. -/
def Document.toConfig (d : Document) : Config :=
  d.sections.entries.foldl (fun c s =>
    (d.items s.2).foldl (fun c o => c.setLeaf (s.1 ++ "." ++ o.1) (.text o.2)) c) .empty

end Wiring.Ini
