import Wiring.Container

/-!
# `Wiring.Catalogue`: containers that tell their definitions apart

A definition may stand under several interfaces. A catalogue gives each definition a number when it
is added, so that one definition under two interfaces is known to be one, and two equal ones are
known to be two. Without the numbers it is a container of definitions.
-/

set_option autoImplicit false

namespace Wiring

/-- A definition with a number of its own. -/
structure Entry where
  ident : Nat
  definition : Definition
  deriving Inhabited

/-- A container whose definitions are numbered in the order in which they were added. -/
structure Catalogue where
  next : Nat
  container : Container Entry
  deriving Inhabited

namespace Catalogue

/-- The catalogue without definitions. -/
def empty : Catalogue := ⟨0, .empty⟩

/-- The definitions without their numbers. -/
def definitions (c : Catalogue) : Container Definition := c.container.map Entry.definition

/-- Adds a definition under some interfaces. -/
def add (c : Catalogue) (interfaces : List String) (d : Definition) : Catalogue :=
  ⟨c.next + 1, c.container.add interfaces d.identifier ⟨c.next, d⟩⟩

/-- The number of entries. -/
def size (c : Catalogue) : Nat := c.container.size

end Catalogue

end Wiring
