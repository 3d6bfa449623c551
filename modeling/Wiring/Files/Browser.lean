import Wiring.Fault
import Wiring.Files.Tree

/-!
# `Wiring.Files.Browser`: looking files up in layers of directories

The include directories are the application directory and, behind it, the modules: the directories
inside each modules directory, in rising order. A name is looked up below each include directory, so
the first hit is the most specific one. The include directories are remembered until the browser is
changed or told to forget them; `computed` is the fresh answer that a remembered one stands for.
-/

set_option autoImplicit false

namespace Wiring.Files

/-- The kind of fault that a trouble with files is. -/
def Trouble.kind : Trouble → ForeignKind
  | .unspeakable => .value
  | _ => .system

/-- A browser of the include directories. -/
structure Browser where
  application : Option Path
  modules : List Path
  /-- The include directories, while they are remembered. -/
  remembered : Option (List Path)
  deriving Inhabited

namespace Browser

/-- Forgets the include directories. -/
def reset (b : Browser) : Browser := { b with remembered := none }

/-- Adds a modules directory behind the others, unless it is known. -/
def add (b : Browser) (p : Path) : Browser :=
  { b with modules := if p ∈ b.modules then b.modules else b.modules ++ [p], remembered := none }

/-- Removes a modules directory. -/
def remove (b : Browser) (p : Path) : Browser :=
  { b with modules := b.modules.erase p, remembered := none }

/-- A browser over an application directory and modules directories. -/
def of (application : Option Path) (modules : List Path) : Browser :=
  modules.foldl add ⟨application, [], none⟩

/-- The paths for which a question has the answer yes. -/
def passing (f : Path → Except Trouble Bool) : List Path → Except Trouble (List Path)
  | [] => .ok []
  | p :: rest => do
    let yes ← f p
    let more ← passing f rest
    .ok (if yes then p :: more else more)

/-- The modules inside a modules directory. -/
def modulesIn (t : Tree) (p : Path) : Except Trouble (List Path) := do
  if ← t.isDirectory? p then passing t.isDirectory? ((← t.list p).map p.join) else .ok []

/-- The modules inside some modules directories. -/
def modulesInAll (t : Tree) : List Path → Except Trouble (List Path)
  | [] => .ok []
  | p :: rest => do
    let found ← modulesIn t p
    let more ← modulesInAll t rest
    .ok (found ++ more)

/-- The include directories by the tree as it is. -/
def computed (b : Browser) (t : Tree) : Except Trouble (List Path) :=
  (modulesInAll t b.modules).map (b.application.toList ++ ·)

/-- The modules directories that are not there, up to the first that cannot be asked for. -/
def missing (b : Browser) (t : Tree) : List Path :=
  let asked := b.modules.takeWhile fun p =>
    match t.isDirectory? p with
    | .ok _ => true
    | .error _ => false
  asked.filter fun p => !t.isDirectory p

/-- The include directories: the remembered ones unless a fresh answer is asked for. -/
def includes (b : Browser) (t : Tree) (refresh : Bool) : Except Trouble (List Path) :=
  match b.remembered with
  | some dirs => if refresh then b.computed t else .ok dirs
  | none => b.computed t

/-- Whether asking for the include directories looks at the tree. -/
def looks (b : Browser) (refresh : Bool) : Bool := refresh || b.remembered.isNone

/-- The browser after it was asked for the include directories. -/
def looked (b : Browser) (t : Tree) (refresh : Bool) : Browser :=
  match b.includes t refresh with
  | .ok dirs => { b with remembered := some dirs }
  | .error _ => b

/-- The first path for which a question has the answer yes. -/
def firstPassing (f : Path → Except Trouble Bool) : List Path → Except Trouble (Option Path)
  | [] => .ok none
  | p :: rest => do if ← f p then .ok (some p) else firstPassing f rest

/-- The paths of a name below the include directories, as far as they are there. -/
def hits (b : Browser) (t : Tree) (name : String) : Except Trouble (List Path) := do
  passing t.exists? ((← b.includes t false).map fun d => d.join name)

/-- The first path of a name below the include directories that is there. -/
def firstHit (b : Browser) (t : Tree) (name : String) : Except Trouble (Option Path) := do
  firstPassing t.exists? ((← b.includes t false).map fun d => d.join name)

end Browser

end Wiring.Files
