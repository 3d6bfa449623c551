import Wiring.Fault
import Wiring.Text.LetterCase

/-!
# `Wiring.Settings`: where an application is and how it is loaded

A setting that is not given is taken from a variable of the surroundings, and has a default when
that is missing too. What is given for a directory becomes a path when the settings are made. A
setting that is changed later holds whatever it is changed to, and shows only when it is used
whether that was of use.

The snapshot file of an application lies in its cache directory and is named for its environment.
-/

set_option autoImplicit false

namespace Wiring

open Wiring.Files

/-- The settings of an application. -/
structure Settings where
  application : Value
  modules : Value
  environment : Value
  /-- Whether the container is kept in a snapshot file. -/
  caching : Value
  cacheDirectory : Value
  deriving Inhabited

/-- The settings that are given. -/
structure GivenSettings where
  application : Option Value
  modules : Option Value
  environment : Option Value
  caching : Option Value
  cacheDirectory : Option Value
  deriving Inhabited

/-- The names of the settings. -/
def Settings.names : List String :=
  ["application_directory", "modules_directories", "environment", "cache_dependencies",
    "cache_directory"]

/-- The settings that are given by their names. -/
def GivenSettings.named (f : String → Option Value) : GivenSettings where
  application := f "application_directory"
  modules := f "modules_directories"
  environment := f "environment"
  caching := f "cache_dependencies"
  cacheDirectory := f "cache_directory"

/-- Variables with their texts. Of a repeated one the last text counts. -/
abbrev Variables := List (String × String)

namespace Variables

/-- The variable with the application directory. -/
def application : String := "WIREBOX_APPLICATION_DIRECTORY"

/-- The variable with the modules directories. -/
def modules : String := "WIREBOX_MODULES_DIRECTORIES"

/-- The variable with the environment. -/
def environment : String := "WIREBOX_ENVIRONMENT"

/-- The variable that switches the snapshot file on. -/
def caching : String := "WIREBOX_CACHE_DEPENDENCIES"

/-- The variable with the directory of the snapshot file. -/
def cacheDirectory : String := "WIREBOX_CACHE_DIRECTORY"

/-- The text of a variable. -/
def text? (vs : Variables) (name : String) : Option String := vs.reverse.lookup name

/-- The text of a variable that is not empty, or null. -/
def filled (vs : Variables) (name : String) : Value :=
  match vs.text? name with
  | some s => if s = "" then .null else .text s
  | none => .null

/-- Whether the text of a switch stands for on, in any case and with blanks around it. -/
def isOn (s : String) : Bool :=
  ["1", "true", "yes", "on"].contains (Text.lowercase (String.ofList (Text.trim s.toList)))

/-- The paths in a text, between colons. -/
def paths (s : String) : List Value := ((Text.pieces ':' s).filter (· ≠ "")).map .text

end Variables

/-- The path that a value stands for. -/
def Value.path? : Value → Option Path
  | .text s => some (Path.ofText s)
  | .path p => some p
  | _ => none

namespace Settings

/-- The application directory, unless it is named. -/
def defaultApplication : String := "application"

/-- The path of a directory. -/
def directory (v : Value) : Except Fault Path :=
  match v.path? with
  | some p => .ok p
  | none => .error (.foreign .type)

/-- The paths of several directories. -/
def directories (v : Value) : Except Fault (List Path) :=
  match v.parts? with
  | some items => items.mapM directory
  | none => .error (.foreign .type)

/-- The settings that are given, completed by variables. -/
def of (g : GivenSettings) (vs : Variables) : Except Fault Settings := do
  let application ← directory
    (g.application.getD (.text ((vs.text? Variables.application).getD defaultApplication)))
  let modules ← directories
    (g.modules.getD (.list none (Variables.paths ((vs.text? Variables.modules).getD ""))))
  let cacheDirectory ←
    match g.cacheDirectory.getD (vs.filled Variables.cacheDirectory) with
    | .null => .ok (application.join "data/cache")
    | v => directory v
  .ok {
    application := .path application
    modules := .list none (modules.map .path)
    environment := g.environment.getD (vs.filled Variables.environment)
    caching :=
      g.caching.getD (.bool (((vs.text? Variables.caching).map Variables.isOn).getD false))
    cacheDirectory := .path cacheDirectory }

/-- Settings of which some are changed. -/
def override (s : Settings) (g : GivenSettings) : Settings where
  application := g.application.getD s.application
  modules := g.modules.getD s.modules
  environment := g.environment.getD s.environment
  caching := g.caching.getD s.caching
  cacheDirectory := g.cacheDirectory.getD s.cacheDirectory

/-- The environment, unless it counts as none. -/
def environment? (s : Settings) : Option String :=
  if s.environment.truthy then some s.environment.display else none

/-- The snapshot file. Only below a path can it be. -/
def cacheFile (s : Settings) : Except Fault Path :=
  match s.cacheDirectory with
  | .path p => .ok (p.join ("dependencies-" ++ s.environment?.getD "default" ++ ".json"))
  | _ => .error (.foreign .type)

/-- The settings by their names. -/
def parts (s : Settings) : List (String × Value) :=
  [("application_directory", s.application), ("modules_directories", s.modules),
    ("environment", s.environment), ("cache_dependencies", s.caching),
    ("cache_directory", s.cacheDirectory)]

end Settings

end Wiring
