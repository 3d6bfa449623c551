import Wiring.Fault
import Wiring.OrderedMap
import Wiring.Text.Split

/-!
# `Wiring.Config`: nested settings under dotted keys

A configuration is a tree of sections. A key is split at its dots into a path into that tree.
Setting a mapping sets every leaf of it under the longer key, so mappings never become leaves: a
leaf is any other value. A scalar that stands in the way of a longer key makes room for a section.
-/

set_option autoImplicit false

namespace Wiring

/-- A node of a configuration. -/
inductive ConfigNode where
  | leaf (value : Value)
  | section (entries : List (String × ConfigNode))
  deriving Inhabited

/-- The entries of a section. -/
abbrev ConfigEntries := List (String × ConfigNode)

mutual

/-- A node as a value: a section becomes a mapping. -/
def ConfigNode.toValue : ConfigNode → Value
  | .leaf v => v
  | .section entries => .map none (ConfigNode.entryValues entries)

/-- The entries of a section as the entries of a mapping. -/
def ConfigNode.entryValues : List (String × ConfigNode) → List (Value × Value)
  | [] => []
  | (k, n) :: rest => (.text k, n.toValue) :: ConfigNode.entryValues rest

end

namespace ConfigEntries

/-- The entries that a node holds. A leaf holds none. -/
def ofNode? : Option ConfigNode → Option ConfigEntries
  | some (.section entries) => some entries
  | _ => none

/-- The node at the end of a path, whose first token is given apart. -/
def get? (es : ConfigEntries) (token : String) : List String → Option ConfigNode
  | [] => OrderedMap.lookup token es
  | next :: rest => (ofNode? (OrderedMap.lookup token es)).bind fun inner => get? inner next rest

/-- Writes a node at the end of a path. What is not a section on the way is replaced by one. -/
def set (es : ConfigEntries) (token : String) (node : ConfigNode) : List String → ConfigEntries
  | [] => OrderedMap.put token node es
  | next :: rest =>
    let inner := (ofNode? (OrderedMap.lookup token es)).getD []
    OrderedMap.put token (.section (set inner next node rest)) es

/-- Removes the node at the end of a path, if it is there. -/
def unset (es : ConfigEntries) (token : String) : List String → ConfigEntries
  | [] => es.filter fun e => decide (e.1 ≠ token)
  | next :: rest =>
    match ofNode? (OrderedMap.lookup token es) with
    | some inner => OrderedMap.put token (.section (unset inner next rest)) es
    | none => es

end ConfigEntries

mutual

/-- Changes every value of a node. -/
def ConfigNode.mapValues (f : Value → Value) : ConfigNode → ConfigNode
  | .leaf v => .leaf (f v)
  | .section entries => .section (ConfigNode.mapEntries f entries)

/-- Changes every value of a section. -/
def ConfigNode.mapEntries (f : Value → Value) :
    List (String × ConfigNode) → List (String × ConfigNode)
  | [] => []
  | (k, n) :: rest => (k, n.mapValues f) :: ConfigNode.mapEntries f rest

end

/-- A configuration. -/
structure Config where
  entries : ConfigEntries
  deriving Inhabited

namespace Config

/-- The configuration without entries. -/
def empty : Config := ⟨[]⟩

/-- Checks a key: a text that is not empty. -/
def checkKey (v : Value) : Except Fault String :=
  match v.name? with
  | some k => .ok k
  | none => .error .configurationKey

/-- The tokens of a key. -/
def tokens (key : String) : List String := Text.pieces '.' key

/-- The node under a key. -/
def node? (c : Config) (key : String) : Option ConfigNode :=
  match tokens key with
  | [] => none
  | token :: rest => c.entries.get? token rest

/-- The value under a key, or the default. A section is given as a mapping. -/
def get (c : Config) (key : String) (default : Value) : Value :=
  match c.node? key with
  | some n => n.toValue
  | none => default

/-- Sets a leaf. -/
def setLeaf (c : Config) (key : String) (value : Value) : Config :=
  match tokens key with
  | [] => c
  | token :: rest => ⟨c.entries.set token (.leaf value) rest⟩

mutual

/-- Sets a value. Of a mapping, every leaf is set under the longer key. -/
def set (c : Config) (key : String) : Value → Config
  | .map _ entries => setEntries c key entries
  | v => c.setLeaf key v

/-- Sets the entries of a mapping in turn. -/
def setEntries (c : Config) (key : String) : List (Value × Value) → Config
  | [] => c
  | (k, v) :: rest => setEntries (set c (key ++ "." ++ k.display) v) key rest

end

/-- Removes what is under a key. -/
def unset (c : Config) (key : String) : Config :=
  match tokens key with
  | [] => c
  | token :: rest => ⟨c.entries.unset token rest⟩

/-- All values as one mapping. -/
def all (c : Config) : Value := .map none (ConfigNode.entryValues c.entries)

/-- Changes every value. -/
def mapValues (f : Value → Value) (c : Config) : Config := ⟨ConfigNode.mapEntries f c.entries⟩

/-- Sets the entries of a mapping, whose keys must be texts that are not empty. -/
def setAll (c : Config) : List (Value × Value) → Except Fault Config
  | [] => .ok c
  | (k, v) :: rest =>
    match checkKey k with
    | .error e => .error e
    | .ok key => (c.set key v).setAll rest

/-- The configuration of a mapping. -/
def ofEntries (entries : List (Value × Value)) : Except Fault Config := empty.setAll entries

end Config

end Wiring
