import Wiring.Fault
import Wiring.Files.Path

/-!
# `Wiring.Log`: what the engine reports while it works

An event is something that happened, and its level and its text are read off it.
-/

set_option autoImplicit false

namespace Wiring

open Wiring.Files

/-- Something that happened. -/
inductive LogEvent where
  | readingDefinitions (file : Path)
  | skippingModules (directory : Path)
  | configurationRead (files : List String)
  | creating (key : DefinitionKey) (className : String)
  | cacheUnreadable (file : Path) (reason : ForeignKind)
  | cacheIgnored (file : Path) (reason : Fault)
  | restored (count : Nat) (file : Path)
  | cacheUnwritten (file : Path) (reason : ForeignKind)
  | cacheWritten (file : Path)
  | cacheCleared (file : Path)
  deriving DecidableEq, Inhabited

/-- How much an event matters. -/
inductive LogLevel where
  | debug | info | warning
  deriving DecidableEq, Inhabited

/-- The name of a level. -/
def LogLevel.name : LogLevel → String
  | .debug => "DEBUG"
  | .info => "INFO"
  | .warning => "WARNING"

namespace LogEvent

/-- The level of an event. -/
def level : LogEvent → LogLevel
  | .cacheUnreadable _ _ | .cacheIgnored _ _ | .cacheUnwritten _ _ => .warning
  | .cacheWritten _ | .cacheCleared _ => .info
  | _ => .debug

/-- The wording of an event. -/
def text : LogEvent → String
  | .readingDefinitions p => "Reading definitions from " ++ p.text
  | .skippingModules p => "Skipping missing modules directory " ++ p.text
  | .configurationRead files =>
    "Read configuration from " ++ Value.literal (.list none (files.map .text))
  | .creating k c => "Creating " ++ Exclusions.keyText k ++ " as " ++ c
  | .cacheUnreadable p reason =>
    "Could not read dependency cache " ++ p.text ++ ": <" ++ reason.name ++ ">"
  | .cacheIgnored p reason =>
    "Ignoring unreadable dependency cache " ++ p.text ++ ": " ++ reason.text
  | .restored n p => "Restored " ++ toString n ++ " definitions from " ++ p.text
  | .cacheUnwritten p reason =>
    "Could not write dependency cache " ++ p.text ++ ": <" ++ reason.name ++ ">"
  | .cacheWritten p => "Wrote dependency cache " ++ p.text
  | .cacheCleared p => "Cleared dependency cache " ++ p.text

end LogEvent

end Wiring
