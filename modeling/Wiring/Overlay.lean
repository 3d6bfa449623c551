import Wiring.Catalogue
import Wiring.Declaration
import Wiring.Files.Browser
import Wiring.Xml.Encoding

/-!
# `Wiring.Overlay`: containers from layers of definition files

The files are applied from the least to the most specific one, first those of the application and
its modules, then those of the environment in the same order. A declaration that extends another one
starts from a copy of it in the container as it then is. What it declares itself is added to that
copy, and the result is added under every interface that it names.
-/

set_option autoImplicit false

namespace Wiring

open Wiring.Files

namespace Declaration

/-- The class of a declaration that extends a definition: its own one, or else that of its base. -/
def classOver (d : Declaration) (base : Definition) : Except Fault String :=
  match d.className with
  | none => .ok base.className
  | some n => (DefinitionOf.checkClassName (.text n)).mapError .definition

/-- A copy of the base of a declaration under the declaration's own identifier, and under its class
if it names one. -/
def extended (d : Declaration) (c : Container Definition) (k : DefinitionKey) :
    Except Fault Definition :=
  match c.find? k with
  | none => .error (.notFoundIn d.source (.base k.interface k.identifier))
  | some base => do
    let identifier ← (DefinitionOf.checkIdentifier base.className
      (Value.optional d.identifier)).mapError .definition
    let className ← d.classOver base
    .ok { base with identifier := identifier, className := className }

/-- The definition that a declaration starts from, and the interface that it is meant for. -/
def start (d : Declaration) (c : Container Definition) :
    Except Fault (Definition × Option String) :=
  match d.base with
  | some reference =>
    let (interface, identifier) := d.baseKey reference
    (d.extended c ⟨interface, identifier⟩).map fun x =>
      (x, d.interface.orElse fun _ => if interface = "" then none else some interface)
  | none =>
    (DefinitionOf.declare (Value.optional d.className) (Value.optional d.identifier)
      (.list none [])).map fun x => (x, d.interface)

/-- The interfaces of a declaration: the ones that it names, the one that it is meant for, or else
its class. -/
def targets (d : Declaration) (interface : Option String) (className : String) : List String :=
  let names := d.interfaces ++ interface.toList
  if names.isEmpty then [className] else names

/-- The definition of a declaration against a container. -/
def define (d : Declaration) (c : Container Definition) : Except Fault Definition := do
  let (started, interface) ← d.start c
  let called := d.calls.foldl DefinitionOf.addCall started
  let interfaces ← DefinitionOf.checkInterfaces called.className
    (.list none ((d.targets interface called.className).map .text))
  .ok { called with interfaces := interfaces }

/-- Applies a declaration to a catalogue. -/
def apply (d : Declaration) (c : Catalogue) : Except Fault Catalogue := do
  let x ← d.define c.definitions
  let names ← (x.allInterfaces.mapM fun n => Container.checkInterface (.text n)).mapError .definition
  .ok (c.add names x)

/-- Applies declarations in turn. -/
def applyAll (c : Catalogue) : List Declaration → Except Fault Catalogue
  | [] => .ok c
  | d :: rest =>
    match d.apply c with
    | .error e => .error e
    | .ok c => applyAll c rest

/-- The declarations in the content of a definitions file, which faults call by the name of the
source. -/
def ofContent (source : String) : Except Trouble ByteArray → Except Fault (List Declaration)
  | .error .unspeakable => .error (.foreign .value)
  | .error _ => .error (.unreadable source .system)
  | .ok content =>
    match Xml.readBytes content.data.toList with
    | .ok root => ofElement source root
    | .error .markup => .error (.unreadable source .markup)
    | .error kind => .error (.foreign kind)

/-- The declarations in the file of a path. -/
def ofFile (t : Tree) (p : Path) : Except Fault (List Declaration) := ofContent p.text (t.read p)

/-- The declarations in the file of a spelled path. -/
def ofSpelled (t : Tree) (source : String) : Except Fault (List Declaration) :=
  ofContent source (t.readSpelled source)

/-- The declarations in a text. -/
def ofText (source text : String) : Except Fault (List Declaration) :=
  match Xml.readDocument? text.toList with
  | some root => ofElement source root
  | none => .error (.unreadable source .markup)

end Declaration

/-- Where the definition files of an application are. -/
structure Overlay where
  environment : Option String
  fileName : String
  directory : String
  deriving Inhabited

namespace Overlay

/-- The name of a definitions file, unless another one is given. -/
def defaultFileName : String := "dependencies.xml"

/-- The directory of definitions files inside an include directory, unless another one is given. -/
def defaultDirectory : String := "config"

/-- The names that are looked up, in the order in which they are applied. -/
def names (o : Overlay) : List String :=
  (o.directory ++ "/" ++ o.fileName) ::
    (match o.environment with
    | none => []
    | some e => if e = "" then [] else [o.directory ++ "/" ++ e ++ "/" ++ o.fileName])

/-- The files of some names, of each name the least specific one first. -/
def filesOf (b : Browser) (t : Tree) : List String → Except Trouble (List Path)
  | [] => .ok []
  | n :: rest => do
    let found ← b.hits t n
    let more ← filesOf b t rest
    .ok (found.reverse ++ more)

/-- The files in the order in which they are applied. -/
def files (o : Overlay) (b : Browser) (t : Tree) : Except Trouble (List Path) := filesOf b t o.names

/-- Applies files in turn. The answer holds the files up to the first that fails. -/
def load (t : Tree) (c : Catalogue) : List Path → List Path × Except Fault Catalogue
  | [] => ([], .ok c)
  | p :: rest =>
    match (Declaration.ofFile t p).bind (Declaration.applyAll c) with
    | .error e => ([p], .error e)
    | .ok c =>
      let (read, r) := load t c rest
      (p :: read, r)

/-- The catalogue of an application. -/
def catalogue (o : Overlay) (b : Browser) (t : Tree) : Except Fault Catalogue :=
  match o.files b t with
  | .error e => .error (.foreign e.kind)
  | .ok paths => (load t .empty paths).2

end Overlay

end Wiring
