import Wiring.Config.Ini
import Wiring.Store.Declarations

/-!
# `Wiring.Store.Configs`: configurations as cells

Whoever is given a list from a configuration holds the configuration's own list, so a change of it
is seen by the next one who asks. A section is given as a copy.
-/

set_option autoImplicit false

namespace Wiring

open Wiring.Files

namespace Store

/-- The entries of a mapping. Whatever else counts as false stands for none. -/
def mapping (v : Value) : Action (List (Value × Value)) := do
  match (← get).content v with
  | .map _ entries => pure entries
  | v => if v.truthy then Work.foreign .attribute else pure []

/-- A value with its mappings, down to a depth: whatever counts as a mapping stands for its
entries, and whatever counts as a text is one as a key. -/
def sectioned (s : Store) : Nat → Value → Value
  | 0, v => v
  | depth + 1, v =>
    match s.content v with
    | .map place entries =>
      .map place (entries.map fun e => (s.content e.1, s.sectioned depth e.2))
    | _ => v

/-- A value as a configuration takes it. -/
def setting (s : Store) (v : Value) : Value := s.sectioned (s.nesting + s.objects.length) v

/-- Makes a configuration of the entries of a mapping. -/
def makeConfig (values : Value) : Action (Ref Config) := do
  let entries ← mapping values
  let s ← get
  make (← Work.lift (Config.ofEntries (entries.map fun e => (s.content e.1, s.setting e.2))))

/-- The value under a key of a configuration, or the default. -/
def configValue (r : Ref Config) (key default : Value) : Action Value := do
  let k ← Work.lift (Config.checkKey ((← get).content key))
  match (← read r).node? k with
  | some (.leaf v) => look v
  | some n => duplicate n.toValue
  | none => pure default

/-- All values of a configuration, as a copy. -/
def configValues (r : Ref Config) : Action Value := do duplicate (← read r).all

/-- Sets a value of a configuration. -/
def setConfig (r : Ref Config) (key value : Value) : Action Unit := do
  let k ← Work.lift (Config.checkKey ((← get).content key))
  let v := (← get).setting value
  change r fun c => c.set k v

/-- Removes a value of a configuration. -/
def unsetConfig (r : Ref Config) (key : Value) : Action Unit := do
  let k ← Work.lift (Config.checkKey ((← get).content key))
  change r fun c => c.unset k

/-- Changes a list or a mapping that is given: a mapping gets an entry, and a list one more item. -/
def extendValue (v : Value) (key : String) (added : Value) : Action Unit := do
  match (← get).content v with
  | .map (some place) _ => putEntry place (.text key) added
  | .list (some place) _ => changeItems place (· ++ [added])
  | _ => pure ()

/-- Writes an item of a list or an entry of a mapping. A place of a list counts from the end when it
is negative, and must be there. -/
def putItem (v key added : Value) : Action Unit := do
  match (← get).content v with
  | .map (some place) _ => if key.isKey then putEntry place key added else Work.foreign .type
  | .list (some place) items =>
    match key.whole? with
    | some i =>
      let n := if i < 0 then (items.length : Int) + i else i
      if 0 ≤ n ∧ n < items.length then changeItems place fun xs => xs.set n.toNat added
      else Work.foreign .index
    | none => Work.foreign .type
  | _ => Work.foreign .type

/-! ### Files of settings -/

/-- Reads those of some ini files that are there. The answer names them. -/
def readIni (t : Tree) (d : Ini.Document) :
    List String → Except Fault (Ini.Document × List String)
  | [] => .ok (d, [])
  | name :: rest =>
    match t.readSpelled name with
    | .error .unspeakable => .error (.foreign .value)
    | .error _ => readIni t d rest
    | .ok content =>
      match String.fromUTF8? content with
      | none => .error (.foreign .encoding)
      | some s => do
        let d ← d.read s
        let (d, names) ← readIni t d rest
        .ok (d, name :: names)

/-- Makes a configuration of ini files. -/
def makeConfigOfIni (names : List String) : Action (Ref Config) := do
  let (d, seen) ← Work.lift (readIni (← get).files .empty names)
  report [.configurationRead seen]
  make d.toConfig

end Store

end Wiring
