import Wiring.Cache
import Wiring.Config
import Wiring.Host.Annotation
import Wiring.Host.Object
import Wiring.Overlay
import Wiring.Registry
import Wiring.Settings
import Wiring.Store.Cells

/-!
# `Wiring.Store`: all that has an identity, in one place

A store holds a cell for everything that can be referred to and changed: arguments, calls and
definitions, containers of definitions, configurations, registries, browsers, sources, injectors,
settings and cores. Next to the cells it holds the lists and mappings that have a place, the objects
of the host program, what is kept in slots, the files, the log and the journal.

A cell refers to other cells, and a view reads through the references: `definition` is the
declaration that a definition cell stands for at that moment. A piece of work goes on with the store
and may fail, and what it did before the failure stays.
-/

set_option autoImplicit false

namespace Wiring

open Wiring.Files

/-! ### What cells hold -/

/-- A call whose arguments are cells. -/
abbrev CallCell := CallOf (Ref Argument)

/-- A definition whose calls are cells. -/
abbrev DefinitionCell := DefinitionOf (Ref CallCell)

/-- A container whose definitions are cells. -/
abbrev ContainerCell := Container (Ref DefinitionCell)

/-- A container that is handed out on request, and how often that was done. -/
structure Counter where
  container : Ref ContainerCell
  count : Nat
  deriving Inhabited

/-- Where containers come from. -/
inductive Source where
  /-- The definition files below the directories of a browser. -/
  | files (browser : Ref Browser) (overlay : Overlay)
  | counting (counter : Ref Counter)
  /-- A snapshot file in front of another source. -/
  | cached (inner : Source) (path : Path)
  deriving Inhabited

/-- What answers requests. -/
structure Injector where
  container : Ref ContainerCell
  registry : Ref Registry
  config : Option (Ref Config)
  parsers : OrderedMap String (Parser (Ref Config))
  /-- The objects that were set by hand. -/
  instances : OrderedMap DefinitionKey Value
  deriving Inhabited

/-- An application with all its parts. -/
structure Core where
  settings : Ref Settings
  config : Ref Config
  registry : Ref Registry
  browser : Ref Browser
  source : Ref Source
  injector : Ref Injector
  isClosed : Bool
  deriving Inhabited

/-- The switch of a core's snapshot file. -/
structure CacheControl where
  core : Ref Core
  deriving Inhabited

/-! ### The store -/

/-- A list or a mapping that has a place. -/
inductive Collection where
  | list (items : List Value)
  | map (entries : List (Value × Value))
  deriving Inhabited

/-- All cells, collections, objects and files, and the log in the order in which it was written. -/
structure Store where
  program : Program
  slots : List (String × Value)
  collections : List Collection
  objects : List Object
  /-- How many numbers that equal no number were made. -/
  marks : Nat
  files : Tree
  log : List LogEvent
  journal : List JournalEntry
  arguments : Cells Argument
  calls : Cells CallCell
  definitions : Cells DefinitionCell
  containers : Cells ContainerCell
  configs : Cells Config
  registries : Cells Registry
  browsers : Cells Browser
  counters : Cells Counter
  sources : Cells Source
  contexts : Cells Exclusions
  injectors : Cells Injector
  settings : Cells Settings
  cores : Cells Core
  controls : Cells CacheControl
  deriving Inhabited

/-- Work with the store that may fail with an `ε`. -/
abbrev Work (ε α : Type) := ExceptT ε (StateM Store) α

/-- An action on the store. -/
abbrev Action (α : Type) := Work Fault α

namespace Store

/-- The store of a program before anything is made. -/
def empty (p : Program) : Store where
  program := p
  slots := []
  collections := []
  objects := []
  marks := 0
  files := .empty
  log := []
  journal := []
  arguments := .empty
  calls := .empty
  definitions := .empty
  containers := .empty
  configs := .empty
  registries := .empty
  browsers := .empty
  counters := .empty
  sources := .empty
  contexts := .empty
  injectors := .empty
  settings := .empty
  cores := .empty
  controls := .empty

end Store

/-- The kind of cells that hold an `α`. -/
class Stored (α : Type) extends Inhabited α where
  cells : Store → Cells α
  setCells : Store → Cells α → Store

instance : Stored Argument where
  cells := Store.arguments
  setCells s c := { s with arguments := c }

instance : Stored CallCell where
  cells := Store.calls
  setCells s c := { s with calls := c }

instance : Stored DefinitionCell where
  cells := Store.definitions
  setCells s c := { s with definitions := c }

instance : Stored ContainerCell where
  cells := Store.containers
  setCells s c := { s with containers := c }

instance : Stored Config where
  cells := Store.configs
  setCells s c := { s with configs := c }

instance : Stored Registry where
  cells := Store.registries
  setCells s c := { s with registries := c }

instance : Stored Browser where
  cells := Store.browsers
  setCells s c := { s with browsers := c }

instance : Stored Counter where
  cells := Store.counters
  setCells s c := { s with counters := c }

instance : Stored Source where
  cells := Store.sources
  setCells s c := { s with sources := c }

instance : Stored Exclusions where
  cells := Store.contexts
  setCells s c := { s with contexts := c }

instance : Stored Injector where
  cells := Store.injectors
  setCells s c := { s with injectors := c }

instance : Stored Settings where
  cells := Store.settings
  setCells s c := { s with settings := c }

instance : Stored Core where
  cells := Store.cores
  setCells s c := { s with cores := c }

instance : Stored CacheControl where
  cells := Store.controls
  setCells s c := { s with controls := c }

namespace Store

variable {α : Type}

/-- What a cell holds. -/
def read {ε : Type} [Stored α] (r : Ref α) : Work ε α := do pure ((Stored.cells (← get)).get r)

/-- Makes a cell. -/
def make {ε : Type} [Stored α] (a : α) : Work ε (Ref α) :=
  modifyGet fun s =>
    ((Stored.cells s).next, Stored.setCells s ((Stored.cells s).add a))

/-- Changes what a cell holds. -/
def change {ε : Type} [Stored α] (r : Ref α) (f : α → α) : Work ε Unit :=
  modify fun s => Stored.setCells s ((Stored.cells s).modify r f)

/-- Writes into the log. -/
def report {ε : Type} (events : List LogEvent) : Work ε Unit :=
  modify fun s => { s with log := s.log ++ events }

/-- Writes into the journal. -/
def note {ε : Type} (e : JournalEntry) : Work ε Unit :=
  modify fun s => { s with journal := e :: s.journal }

end Store

namespace Work

variable {ε ε' α : Type}

/-- Changes the faults of a piece of work. -/
def mapFault (f : ε → ε') (w : Work ε α) : Work ε' α := ExceptT.adapt f w

/-- What can be told without the store. -/
def lift (x : Except ε α) : Work ε α := ExceptT.mk (pure x)

/-- A fault of the language. -/
def foreign (k : ForeignKind) : Work Fault α := throw (.foreign k)

/-- The outcome of a piece of work, with what it did to the store. A fault is part of the outcome and
ends nothing. -/
def outcome (w : Work ε α) : Work ε' (Except ε α) := fun s =>
  let (result, s) := w.run s
  (.ok result, s)

end Work

/-- Runs something that can be called, and writes into the journal when it begins and how it ends. -/
def Store.running {α : Type} (c : Callable) (w : Action α) : Action α := do
  note (.ran c)
  let result ← w.outcome
  note (.left c !result.isOk)
  Work.lift result

end Wiring
