import Wiring.Text.Split

/-!
# `Wiring.Files.Path`: names of files

A path is a root and a list of parts. Reading a path drops empty parts and single dots and keeps
double dots, so two spellings of one path are the same value. Two leading slashes are a root of
their own, more than two are one.
-/

set_option autoImplicit false

namespace Wiring.Files

/-- A normalised path. The root is empty for a relative path. -/
structure Path where
  root : String
  parts : List String
  deriving DecidableEq, Inhabited

namespace Path

/-- The root that a text begins with. -/
def rootOf : List Char → String
  | '/' :: '/' :: '/' :: _ => "/"
  | '/' :: '/' :: _ => "//"
  | '/' :: _ => "/"
  | _ => ""

/-- Reads a path. -/
def ofText (s : String) : Path where
  root := rootOf s.toList
  parts := (Text.pieces '/' s).filter fun p => p ≠ "" && p ≠ "."

/-- Writes a path. The path without root and parts is a single dot. -/
def text (p : Path) : String :=
  if p.root = "" && p.parts.isEmpty then "." else p.root ++ "/".intercalate p.parts

/-- Reads a path below another one. A path with a root stands for itself. -/
def join (p : Path) (s : String) : Path :=
  let q := ofText s
  if q.root = "" then ⟨p.root, p.parts ++ q.parts⟩ else q

/-- The last part. -/
def name (p : Path) : String := p.parts.getLast?.getD ""

/-- Whether a spelling of a path can only mean a directory. -/
def meansDirectory (s : String) : Bool :=
  match (Text.pieces '/' s).getLast? with
  | some last => last = "" || last = "."
  | none => false

/-- The path without its last part. -/
def parent (p : Path) : Path := ⟨p.root, p.parts.dropLast⟩

end Path

end Wiring.Files
