import Wiring.Files.Browser
import Wiring.Log
import Wiring.Snapshot

/-!
# `Wiring.Cache`: the snapshot file of a container

The file is read without ever failing: what cannot be read or decoded counts as missing and is
reported. It is written to a temporary file first, which then replaces it, so that the file holds a
whole snapshot or what it held before. `write` tells which of the two it is.
-/

set_option autoImplicit false

namespace Wiring.Cache

open Wiring.Files

/-- What an operation on the snapshot file reports. -/
abbrev Report := List LogEvent

/-- Reads the snapshot. Only a path that cannot be said at all is a fault. -/
def read (t : Tree) (p : Path) : Except Fault (Option Catalogue × Report) :=
  match t.read p with
  | .error .missing => .ok (none, [])
  | .error .unspeakable => .error (.foreign .value)
  | .error _ => .ok (none, [.cacheUnreadable p .system])
  | .ok content =>
    match String.fromUTF8? content with
    | none => .ok (none, [.cacheUnreadable p .encoding])
    | some s =>
      match Snapshot.loads s with
      | .error e => .ok (none, [.cacheIgnored p e])
      | .ok c => .ok (some c, [.restored c.size p])

/-- Puts a text into the file of a path by way of a temporary file. The tree is returned as it is
then, and the trouble if there was any. -/
def replace (t : Tree) (p : Path) (s : String) : Tree × Option Trouble :=
  match t.ensureDirectory p.parent with
  | (t, some e) => (t, some e)
  | (t, none) =>
    let temporary := t.temporaryBeside p
    match t.write temporary s.toUTF8 with
    | .error e => (t, some e)
    | .ok t =>
      match t.moveFile temporary p with
      | .ok t => (t, none)
      | .error e =>
        match t.removeFile temporary with
        | .ok t => (t, some e)
        | .error _ => (t, some e)

/-- Writes the snapshot of a container. -/
def write (t : Tree) (p : Path) (c : Container Definition) : Tree × Bool × Report :=
  match Snapshot.dumps? c with
  | none => (t, false, [.cacheUnwritten p (Snapshot.refusal c)])
  | some s =>
    match replace t p s with
    | (t, none) => (t, true, [.cacheWritten p])
    | (t, some e) => (t, false, [.cacheUnwritten p e.kind])

/-- Removes the snapshot file. The answer tells whether there was one. -/
def clear (t : Tree) (p : Path) : Except Fault (Tree × Bool × Report) :=
  match t.removeFile p with
  | .ok t => .ok (t, true, [.cacheCleared p])
  | .error .missing => .ok (t, false, [])
  | .error e => .error (.foreign e.kind)

end Wiring.Cache
