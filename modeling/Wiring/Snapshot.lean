import Wiring.Catalogue
import Wiring.Json.Reader
import Wiring.Json.Writer

/-!
# `Wiring.Snapshot`: containers as documents

A snapshot lists every entry of a container in order, each with the whole of its definition.
Decoding builds every definition anew, through the same checks as any other declaration, so it gives
a container only for what could have been declared. A wrong declaration and a part that is missing
or of the wrong type are reported as snapshot faults. Any other fault stays as it is.
-/

set_option autoImplicit false

namespace Wiring.Snapshot

/-- The mark of a snapshot. -/
def format : String := "wirebox.container"

/-- The version of the form below. -/
def version : Int := 1

/-- A mapping with texts for keys. -/
def record (fields : List (String × Value)) : Value :=
  .map none (fields.map fun f => (.text f.1, f.2))

/-! ### Encoding -/

/-- An argument as a document. -/
def encodeArgument (a : Argument) : Value :=
  record [("name", .text a.name), ("type", .text a.kind), ("properties", .map none a.properties)]

/-- A call as a document. -/
def encodeCall (c : Call) : Value :=
  record [("method", .text c.method), ("id", Value.optional c.identifier),
    ("arguments", .list none (c.arguments.map encodeArgument))]

/-- An entry as a document. -/
def encodeEntry (interface : String) (d : Definition) : Value :=
  record [("interface", .text interface), ("class", .text d.className),
    ("id", Value.optional d.identifier), ("interfaces", .list none (d.interfaces.map .text)),
    ("constructor", (d.constructor.map encodeCall).getD .null),
    ("calls", .list none (d.callList.map encodeCall))]

/-- A container as a document. -/
def encode (c : Container Definition) : Value :=
  record [("format", .text format), ("version", .int version),
    ("dependencies", .list none (c.toList.map fun e => encodeEntry e.1 e.2))]

/-- A container as text, unless some property has no form in the format. -/
def dumps? (c : Container Definition) : Option String := Json.document? (encode c)

/-- The kind of the fault of a container that has no text. -/
def refusal (c : Container Definition) : ForeignKind := (Json.obstacle? [] (encode c)).getD .type

/-! ### Decoding -/

/-- A part of a document by its key. -/
def part (v : Value) (key : String) : Except Fault Value :=
  match v with
  | .map _ entries =>
    match Value.lookup (.text key) entries with
    | some x => .ok x
    | none => .error (.snapshotKey key)
  | _ => .error (.foreign .type)

/-- The items of a part. -/
def itemsOf (v : Value) : Except Fault (List Value) :=
  match v.parts? with
  | some items => .ok items
  | none => .error (.foreign .type)

/-- An entry of a mapping from a pair. -/
def pairOf (v : Value) : Except Fault (Value × Value) := do
  match ← itemsOf v with
  | [k, x] => if k.isKey then .ok (k, x) else .error (.foreign .type)
  | _ => .error (.foreign .value)

/-- The entries of a list of pairs. -/
def pairsOf (seen : List (Value × Value)) : List Value → Except Fault (List (Value × Value))
  | [] => .ok seen
  | v :: rest => do
    let (k, x) ← pairOf v
    pairsOf (Value.put k x seen) rest

/-- Properties from a mapping or from pairs. Whatever counts as false stands for none. -/
def propertiesOf (v : Value) : Except Fault (List (Value × Value)) :=
  if !v.truthy then .ok []
  else
    match v with
    | .map _ entries => .ok entries
    | _ => do pairsOf [] (← itemsOf v)

/-- Decodes an argument. -/
def decodeArgument (v : Value) : Except Fault Argument := do
  let name ← part v "name"
  let kind ← part v "type"
  let properties ← part v "properties"
  let a ← (Argument.declare name kind []).mapError .definition
  .ok { a with properties := ← propertiesOf properties }

/-- Decodes a call. -/
def decodeCall (v : Value) : Except Fault Call := do
  let arguments ← (← itemsOf (← part v "arguments")).mapM decodeArgument
  let identifier ← part v "id"
  let method ← part v "method"
  (CallOf.declare method identifier arguments).mapError .definition

/-- Adds the calls of a list in turn. -/
def decodeCalls (d : Definition) : List Value → Except Fault Definition
  | [] => .ok d
  | v :: rest => do decodeCalls (d.addCall (← decodeCall v)) rest

/-- Decodes a definition. -/
def decodeDefinition (v : Value) : Except Fault Definition := do
  let className ← part v "class"
  let identifier ← part v "id"
  let interfaces ← part v "interfaces"
  let d ← DefinitionOf.declare className identifier interfaces
  let d ← match ← part v "constructor" with
    | .null => pure d
    | c => do pure (d.addCall (← decodeCall c))
  decodeCalls d (← itemsOf (← part v "calls"))

/-- The interfaces that an entry is added under: those of the definition when none is named. -/
def entryInterfaces (v : Value) (d : Definition) : Except Fault (List String) :=
  match v with
  | .null => .ok d.allInterfaces
  | v => ((Container.checkInterface v).mapError .definition).map fun i => [i]

/-- Adds the entries of a list in turn. -/
def decodeEntries (c : Catalogue) : List Value → Except Fault Catalogue
  | [] => .ok c
  | v :: rest => do
    let interface ← part v "interface"
    let d ← decodeDefinition v
    let names ← entryInterfaces interface d
    decodeEntries (c.add names d) rest

/-- Whether a kind is that of a wrong value, or a special case of it. -/
def isValueKind : ForeignKind → Bool
  | .value | .document | .encoding | .text => true
  | _ => false

/-- Whether a kind tells of a wrong document: of a missing key, or of a wrong type or value. -/
def isDocumentKind : ForeignKind → Bool
  | .key | .type | .attribute => true
  | kind => isValueKind kind

/-- A fault inside a document as the fault that it is reported as. -/
def reported : Fault → Fault
  | .definition why => .snapshotDefinition why
  | .foreign kind => if isDocumentKind kind then .snapshotShape kind else .foreign kind
  | f => f

/-- Decodes a document. -/
def decode (v : Value) : Except Fault Catalogue :=
  match v with
  | .map _ entries =>
    let field := fun key => (Value.lookup (.text key) entries).getD .null
    if !Value.equal (field "format") (.text format) then .error .notASnapshot
    else if !Value.equal (field "version") (.int version) then
      .error (.snapshotVersion (field "version").display)
    else
      (do decodeEntries .empty (← itemsOf (← part v "dependencies"))).mapError reported
  | _ => .error .notASnapshot

/-- Reads a container from text. -/
def loads (s : String) : Except Fault Catalogue :=
  match Json.read s with
  | .error kind => .error (if isValueKind kind then .snapshotText kind else .foreign kind)
  | .ok v => decode v

end Wiring.Snapshot
