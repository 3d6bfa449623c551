import Wiring.Store.Containers

/-!
# `Wiring.Store.Sources`: reading containers from files

A browser reports the modules directories that it misses whenever it looks at the tree. A source of
definition files reads them into a new container, and reports every file before it reads it.

A cached source asks its snapshot file first. On a miss it asks a second time, since another run may
have written the file in the meantime, then asks the source behind it, and writes what that gives. A
snapshot file that can be neither read nor written never makes it fail.
-/

set_option autoImplicit false

namespace Wiring

open Wiring.Files

namespace Store

/-! ### Files -/

/-- What can be told of the files. -/
def onFiles {α : Type} (f : Tree → Except Trouble α) : Action α := do
  Work.lift ((f (← get).files).mapError fun e => .foreign e.kind)

/-- Changes the files. -/
def changeFiles (f : Tree → Except Trouble Tree) : Action Unit := do
  let t ← onFiles f
  modify fun s => { s with files := t }

/-- Makes a directory with all that are missing on the way. -/
def makeDirectory (p : Path) : Action Unit := do
  let s ← get
  let (t, trouble) := s.files.ensureDirectory p
  set { s with files := t }
  match trouble with
  | some e => Work.foreign e.kind
  | none => pure ()

/-- Writes a file, and makes the directories that are missing on the way. -/
def writeFile (p : Path) (content : ByteArray) : Action Unit := do
  makeDirectory p.parent
  changeFiles fun t => t.write p content

/-- Removes a file, or a directory with all that is in it. -/
def removeFile (p : Path) : Action Unit := changeFiles fun t => t.remove p

/-- The text of a file, with line ends of one kind. -/
def fileText (p : Path) : Action String := do
  match String.fromUTF8? (← onFiles fun t => t.read p) with
  | some s => pure (String.ofList (Text.unifyLineEnds s.toList))
  | none => Work.foreign .encoding

/-- The names in a directory. -/
def listFiles (p : Path) : Action (List String) := onFiles fun t => t.list p

/-! ### Browsers -/

/-- Makes a browser of an application directory and modules directories, as far as they count as
true. -/
def makeBrowser (application modules : Value) : Action (Ref Browser) := do
  let application ←
    if application.truthy then
      some <$> Work.lift (Settings.directory application)
    else pure none
  let modules ← if modules.truthy then Work.lift (Settings.directories modules) else pure []
  make (Browser.of application modules)

/-- Adds a modules directory to a browser. -/
def addModules (r : Ref Browser) (directory : Value) : Action Unit := do
  let p ← Work.lift (Settings.directory directory)
  change r fun b => b.add p

/-- Removes a modules directory from a browser. -/
def removeModules (r : Ref Browser) (directory : Value) : Action Unit := do
  let p ← Work.lift (Settings.directory directory)
  change r fun b => b.remove p

/-- The include directories of a browser. -/
def includes (r : Ref Browser) (refresh : Bool) : Action (List Path) := do
  let s ← get
  let b := s.browsers.get r
  if b.looks refresh then report ((b.missing s.files).map .skippingModules)
  let found ← onFiles fun t => b.includes t refresh
  change r fun b => b.looked s.files refresh
  pure found

/-- The name of a file to look up. Only below an include directory does it matter whether it is a
path. -/
def soughtName (r : Ref Browser) (name : Value) : Action (Option String) := do
  if !name.truthy || name.display = "" then throw .fileName
  let directories ← includes r false
  match name.path? with
  | some _ => pure (some name.display)
  | none => if directories.isEmpty then pure none else Work.foreign .type

/-- The paths of a file name below the include directories, the most specific one first. -/
def filesNamed (r : Ref Browser) (name : Value) : Action (List Path) := do
  match ← soughtName r name with
  | some n =>
    let b ← read r
    onFiles fun t => b.hits t n
  | none => pure []

/-- The most specific path of a file name below the include directories. -/
def fileNamed (r : Ref Browser) (name : Value) : Action (Option Path) := do
  match ← soughtName r name with
  | some n =>
    let b ← read r
    onFiles fun t => b.firstHit t n
  | none => pure none

/-! ### Sources -/

/-- The definition files in the order in which they are applied. -/
def overlayFiles (r : Ref Browser) (o : Overlay) : Action (List Path) := do
  let found ← o.names.mapM fun n => filesNamed r (.text n)
  pure (found.flatMap List.reverse)

/-- Reads the definition files into a new container. -/
def load (r : Ref Browser) (o : Overlay) : Action (Ref ContainerCell) := do
  let paths ← overlayFiles r o
  let (seen, result) := Overlay.load (← get).files .empty paths
  report (seen.map .readingDefinitions)
  install (← Work.lift result)

/-- Reads a snapshot file. -/
def readCache (p : Path) : Action (Option (Ref ContainerCell)) := do
  let (found, events) ← Work.lift (Cache.read (← get).files p)
  report events
  found.mapM install

/-- Writes a snapshot file. The answer tells whether that worked. -/
def writeCache (p : Path) (r : Ref ContainerCell) : Action Bool := do
  let s ← get
  let (t, written, events) := Cache.write s.files p (s.container r)
  set { s with files := t }
  report events
  pure written

/-- Removes a snapshot file. The answer tells whether there was one. -/
def clearCache (p : Path) : Action Bool := do
  let s ← get
  let (t, cleared, events) ← Work.lift (Cache.clear s.files p)
  set { s with files := t }
  report events
  pure cleared

/-- A container from a source. -/
def produce : Source → Action (Ref ContainerCell)
  | .files r o => load r o
  | .counting r => do
    change r fun c => { c with count := c.count + 1 }
    pure (← read r).container
  | .cached inner p => do
    match ← readCache p with
    | some c => pure c
    | none =>
      match ← readCache p with
      | some c => pure c
      | none =>
        let c ← produce inner
        let _ ← writeCache p c
        pure c

/-- A container from the source of a cell. -/
def containerFrom (r : Ref Source) : Action (Ref ContainerCell) := do produce (← read r)

/-- Containers from a source, asked for a number of times. What fails is left out. -/
def containersFrom (r : Ref Source) : Nat → Action (List (Ref ContainerCell))
  | 0 => pure []
  | n + 1 => do
    let first ← (do pure (some (← containerFrom r))) <|> pure none
    let rest ← containersFrom r n
    pure (first.toList ++ rest)

/-- Whether all of some containers are the same. -/
def allSame (s : Store) : List (Ref ContainerCell) → Bool
  | [] => true
  | r :: rest => rest.all fun q => (s.container q).same (s.container r)

end Store

/-- The snapshot file of a source. -/
def Source.path? : Source → Option Path
  | .cached _ p => some p
  | _ => none

/-- The counter behind a source. -/
def Source.counter? : Source → Option (Ref Counter)
  | .counting r => some r
  | .cached inner _ => inner.counter?
  | .files _ _ => none

end Wiring
