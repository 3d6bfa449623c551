import Wiring.Definition

/-!
# `Wiring.Container`: definitions by interface and identifier

A container keeps, for every interface, its definitions by identifier, both in the order in which
they were first added. Adding under a known pair replaces the definition where it stands, so the
last one added wins without moving. The entries are stated over a type `δ`: a declared definition,
or a reference to one.
-/

set_option autoImplicit false

namespace Wiring

/-- A two level index of definitions. -/
structure Container (δ : Type) where
  index : OrderedMap String (OrderedMap (Option String) δ)
  deriving Inhabited

namespace Container

variable {δ ε : Type}

/-- The container without definitions. -/
def empty : Container δ := ⟨.empty⟩

/-- Checks the name of an interface. -/
def checkInterface (v : Value) : Except DefinitionFault String :=
  match v.name? with
  | some n => .ok n
  | none => .error .interfaceName

/-- The definitions of an interface. -/
def definitions (c : Container δ) (interface : String) : OrderedMap (Option String) δ :=
  (c.index.get? interface).getD .empty

/-- Adds a definition under one interface. -/
def addOne (c : Container δ) (interface : String) (identifier : Option String) (d : δ) :
    Container δ :=
  ⟨c.index.insert interface ((c.definitions interface).insert identifier d)⟩

/-- Adds a definition under several interfaces. -/
def add (c : Container δ) (interfaces : List String) (identifier : Option String) (d : δ) :
    Container δ :=
  interfaces.foldl (fun c i => c.addOne i identifier d) c

/-- The definition of a key. -/
def find? (c : Container δ) (k : DefinitionKey) : Option δ :=
  (c.definitions k.interface).get? k.identifier

/-- The interfaces in the order in which they were first added. -/
def interfaces (c : Container δ) : List String := c.index.keys

/-- All entries, interface by interface. -/
def entries (c : Container δ) : List (DefinitionKey × δ) :=
  c.index.entries.flatMap fun e => e.2.entries.map fun d => (⟨e.1, d.1⟩, d.2)

/-- The definitions with their interfaces, in the same order. -/
def toList (c : Container δ) : List (String × δ) := c.entries.map fun e => (e.1.interface, e.2)

/-- The number of entries. -/
def size (c : Container δ) : Nat := c.entries.length

/-- Whether an interface has definitions. -/
def contains (c : Container δ) (interface : String) : Bool :=
  !(c.definitions interface).entries.isEmpty

/-- Changes every entry. -/
def map (f : δ → ε) (c : Container δ) : Container ε := ⟨c.index.map (OrderedMap.map f)⟩

/-- Why a key has no definition. -/
def absence (c : Container δ) (k : DefinitionKey) : Absence :=
  if c.contains k.interface then
    .identifier k.interface k.identifier (c.definitions k.interface).keys
  else .interface k.interface c.interfaces

/-- The definition of a key, or why there is none. -/
def get (c : Container δ) (k : DefinitionKey) : Except Absence δ :=
  match c.find? k with
  | some d => .ok d
  | none => .error (c.absence k)

/-- Equality of two lists of definitions with their interfaces. -/
def sameList : List (String × Definition) → List (String × Definition) → Bool
  | [], [] => true
  | a :: as, b :: bs => a.1 = b.1 && a.2.same b.2 && sameList as bs
  | _, _ => false

/-- Equality of containers: the same definitions under the same interfaces in the same order. -/
def same (a b : Container Definition) : Bool := sameList a.toList b.toList

end Container

end Wiring
