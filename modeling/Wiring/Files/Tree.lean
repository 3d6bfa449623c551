import Wiring.Files.Path
import Wiring.OrderedMap

/-!
# `Wiring.Files.Tree`: the files that the engine reads and writes

A tree lists its files and directories by their location, the list of names on the way from the
working directory. That directory is always there, and so are those above it, whose locations are
double dots only. Each operation says what it needs of the tree and fails with the trouble that it
met, leaving the tree as it was.

A name may be no longer than 255 bytes, a path no longer than 4095, and no path holds the character
zero. Asking whether something is there counts such a character as a plain no, and fails on a name
that is too long.
-/

set_option autoImplicit false

namespace Wiring.Files

/-- The names on the way to a file. -/
abbrev Location := List String

/-- What stands at a location. -/
inductive Node where
  | file (content : ByteArray)
  | directory

/-- Why an operation on files failed. -/
inductive Trouble where
  | missing
  | notADirectory
  | isADirectory
  | alreadyThere
  | tooLong
  /-- The path holds the character zero. -/
  | unspeakable
  deriving DecidableEq

/-- The most bytes that a name may have. -/
def longestName : Nat := 255

/-- The most bytes that a path may have. -/
def longestPath : Nat := 4095

/-- The files below the working directory. -/
structure Tree where
  nodes : OrderedMap Location Node
  deriving Inhabited

namespace Tree

/-- The tree without files. -/
def empty : Tree := ⟨.empty⟩

/-- Whether a location is the working directory or one above it. -/
def isAbove (l : Location) : Bool := l.all (· = "..")

/-- What stands at a location. -/
def node? (t : Tree) (l : Location) : Option Node :=
  if isAbove l then some .directory else t.nodes.get? l

/-- The location that one name leads to. -/
def enter (here : Location) (part : String) : Location :=
  if part = ".." && !isAbove here then here.dropLast else here ++ [part]

/-- Goes on from a directory along the parts of a path. All parts but the last must be
directories. -/
def walk (t : Tree) (here : Location) : List String → Except Trouble Location
  | [] => .ok here
  | part :: rest =>
    let next := enter here part
    if longestName < part.utf8ByteSize then .error .tooLong
    else if rest.isEmpty then .ok next
    else
      match t.node? next with
      | some .directory => t.walk next rest
      | some (.file _) => .error .notADirectory
      | none => .error .missing

/-- The location that a path names. -/
def locate (t : Tree) (p : Path) : Except Trouble Location :=
  if p.text.toList.contains '\x00' then .error .unspeakable
  else if longestPath < p.text.utf8ByteSize then .error .tooLong
  else if p.root = "" then t.walk [] p.parts
  else .error .missing

/-- What a path names. -/
def find (t : Tree) (p : Path) : Except Trouble Node := do
  match t.node? (← t.locate p) with
  | some n => .ok n
  | none => .error .missing

/-- Whether what a path names has some property, where nothing that can be said to be missing has
it. -/
def asks (t : Tree) (p : Path) (f : Node → Bool) : Except Trouble Bool :=
  match t.find p with
  | .ok n => .ok (f n)
  | .error .tooLong => .error .tooLong
  | .error _ => .ok false

/-- Whether a path names anything. -/
def exists? (t : Tree) (p : Path) : Except Trouble Bool := t.asks p fun _ => true

/-- Whether a path names a directory. -/
def isDirectory? (t : Tree) (p : Path) : Except Trouble Bool :=
  t.asks p fun
    | .directory => true
    | .file _ => false

/-- Whether a path names a directory, as far as it can be told. -/
def isDirectory (t : Tree) (p : Path) : Bool :=
  match t.isDirectory? p with
  | .ok b => b
  | .error _ => false

/-- The content of a file. -/
def read (t : Tree) (p : Path) : Except Trouble ByteArray := do
  match ← t.find p with
  | .file content => .ok content
  | .directory => .error .isADirectory

/-- The content of a file by a spelling of its path. No spelling that means a directory names a
file. -/
def readSpelled (t : Tree) (s : String) : Except Trouble ByteArray := do
  if s = "" then .error .missing
  let p := Path.ofText s
  match ← t.find p with
  | .file content => if Path.meansDirectory s then .error .notADirectory else .ok content
  | .directory => .error .isADirectory

/-- The names in a directory. -/
def namesIn (t : Tree) (l : Location) : List String :=
  t.nodes.keys.filterMap fun k =>
    if k.dropLast = l then k.getLast? else none

/-- The names in the directory that a path names, in rising order. -/
def list (t : Tree) (p : Path) : Except Trouble (List String) := do
  match ← t.find p with
  | .directory => .ok ((t.namesIn (← t.locate p)).mergeSort fun a b => decide (a ≤ b))
  | .file _ => .error .notADirectory

/-- Writes a file into a directory that is there. -/
def write (t : Tree) (p : Path) (content : ByteArray) : Except Trouble Tree := do
  let l ← t.locate p
  match t.node? l with
  | some .directory => .error .isADirectory
  | _ => .ok ⟨t.nodes.insert l (.file content)⟩

/-- Makes a directory in a directory that is there. -/
def makeDirectory (t : Tree) (p : Path) : Except Trouble Tree := do
  let l ← t.locate p
  match t.node? l with
  | some _ => .error .alreadyThere
  | none => .ok ⟨t.nodes.insert l .directory⟩

/-- Makes a directory and all that are missing on the way, given the parts of its path in reverse.
A directory that is already there is fine, a file is not. What was made before the trouble stays. -/
def makeDirectories (t : Tree) (root : String) : List String → Tree × Option Trouble
  | [] => (t, none)
  | last :: before =>
    let p : Path := ⟨root, (last :: before).reverse⟩
    let settle := fun (t : Tree) (e : Trouble) => (t, if t.isDirectory p then none else some e)
    match t.makeDirectory p with
    | .ok t => (t, none)
    | .error .missing =>
      match t.makeDirectories root before with
      | (t, some e) => (t, some e)
      | (t, none) =>
        match t.makeDirectory p with
        | .ok t => (t, none)
        | .error e => settle t e
    | .error e => settle t e

/-- Makes the directory of a path with all that are missing on the way. -/
def ensureDirectory (t : Tree) (p : Path) : Tree × Option Trouble :=
  t.makeDirectories p.root p.parts.reverse

/-- Removes a file. -/
def removeFile (t : Tree) (p : Path) : Except Trouble Tree := do
  let l ← t.locate p
  match t.node? l with
  | some (.file _) => .ok ⟨t.nodes.erase l⟩
  | some .directory => .error .isADirectory
  | none => .error .missing

/-- Removes a file, or a directory with all that is in it. -/
def remove (t : Tree) (p : Path) : Except Trouble Tree := do
  let l ← t.locate p
  match t.node? l with
  | some _ =>
    let kept := t.nodes.entries.filter fun e => !l.isPrefixOf e.1
    .ok ⟨⟨kept, t.nodes.nodup.sublist (List.Sublist.map _ List.filter_sublist)⟩⟩
  | none => .error .missing

/-- Moves a file to another path, where it replaces a file but no directory. -/
def moveFile (t : Tree) (source target : Path) : Except Trouble Tree := do
  let content ← t.read source
  let written ← t.write target content
  if (← t.locate source) = (← t.locate target) then .ok written else written.removeFile source

/-- The digits of a number, at least eight of them. -/
def eightDigits (n : Nat) : String :=
  let digits := toString n
  String.ofList (List.replicate (8 - digits.length) '0') ++ digits

/-- The first of the names with a number that the directory does not hold, up to a bound. -/
def freshName (t : Tree) (directory : Path) (stem : String) : Nat → Nat → String
  | 0, n => stem ++ "." ++ eightDigits n ++ ".tmp"
  | fuel + 1, n =>
    let name := stem ++ "." ++ eightDigits n ++ ".tmp"
    match t.find (directory.join name) with
    | .ok _ => freshName t directory stem fuel (n + 1)
    | .error _ => name

/-- The path of a temporary file beside a path, where nothing stands yet. -/
def temporaryBeside (t : Tree) (p : Path) : Path :=
  p.parent.join (t.freshName p.parent p.name t.nodes.size 0)

end Tree

end Wiring.Files
