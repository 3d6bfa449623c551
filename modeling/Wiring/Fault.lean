import Wiring.Resolution.Exclusion

/-!
# `Wiring.Fault`: what can go wrong

A fault is a cause, and its kind, its text and the fault behind it are read off the cause. Three
families stay apart: faults of declarations and requests, faults of the libraries and the system
below, of which only the kind is known, and faults that code of the host program raised.

A request that selected a definition and failed to build it reports a `resolution` fault at its
site, with the reason behind it. The chain of reasons therefore walks down the nested builds.
-/

set_option autoImplicit false

namespace Wiring

/-- The kinds of faults of the libraries and the system below. Their texts are not ours. -/
inductive ForeignKind where
  | type | attribute | key | value | index | overflow | recursion
  | system | markup | document | encoding | text | codec
  | sectionHeader | sectionRepeated | optionRepeated | optionUnparsed
  deriving DecidableEq, Inhabited

/-- The name of a kind. -/
def ForeignKind.name : ForeignKind → String
  | .type => "TypeError"
  | .attribute => "AttributeError"
  | .key => "KeyError"
  | .value => "ValueError"
  | .system => "OSError"
  | .markup => "ParseError"
  | .document => "JSONDecodeError"
  | .encoding => "UnicodeDecodeError"
  | .text => "UnicodeError"
  | .codec => "LookupError"
  | .recursion => "RecursionError"
  | .index => "IndexError"
  | .overflow => "OverflowError"
  | .sectionHeader => "MissingSectionHeaderError"
  | .sectionRepeated => "DuplicateSectionError"
  | .optionRepeated => "DuplicateOptionError"
  | .optionUnparsed => "ParsingError"

/-- What is wrong with a declaration, or with a request for one. -/
inductive DefinitionFault where
  | argumentName
  | argumentType (argument : String)
  | methodName
  | callIdentifier (method : String)
  | className
  | identifier (owner : String)
  | interfaceOf (className : String)
  | interfaceName
  | requestedInterface
  | parserKind
  | neitherClassNorExtends (source : String)
  | neitherClassNorInterface (extends_ source : String)
  | interfaceWithoutName (className : Option String) (source : String)
  | callWithoutMethod (owner : Option String) (source : String)
  | propertyWithoutName (method source : String)
  | identifierWithoutConfig (identifier : String)
  | keyMissing (argument : String)
  | keyWithoutConfig (argument key : String)
  | interfaceMissing (argument : String)
  | methodMissing (argument : String)
  | methodUnknown (argument owner method : String)
  | targetMissing (argument : String)
  | notAClass (value : String)
  | notCallable (value : String)
  | classUnknown (name : String)
  | functionUnknown (name : String)
  | parameterUnfilled (parameter callable : String)
  | argumentsUnknown (names : List String) (callable : String)
  | unexpectedType (interface actual expected : String)
  | noSuchMethod (className method : String)
  | parserMissing (kind : String)
  deriving DecidableEq, Inhabited

/-- The wording of a declaration fault. -/
def DefinitionFault.message : DefinitionFault → String
  | .argumentName => "Provided argument name is empty or invalid"
  | .argumentType a => "Provided type of argument $" ++ a ++ " is empty or invalid"
  | .methodName => "Provided method name is empty or invalid"
  | .callIdentifier m => "Provided id of call " ++ m ++ " is empty or invalid"
  | .className => "Provided class name is empty or invalid"
  | .identifier owner => "Provided id for " ++ owner ++ " is empty or invalid"
  | .interfaceOf c => "Provided interface for " ++ c ++ " is empty or invalid"
  | .interfaceName => "Provided interface name is empty or invalid"
  | .requestedInterface => "Provided interface is empty or invalid"
  | .parserKind => "Provided argument type is empty or not a string"
  | .neitherClassNorExtends s => "No class attribute set for a dependency in " ++ s
  | .neitherClassNorInterface e s =>
    "No interface or class attribute set for dependency extending " ++ e ++ " in " ++ s
  | .interfaceWithoutName c s =>
    "No name attribute set for an interface of " ++ Value.displayName c ++ " in " ++ s
  | .callWithoutMethod o s =>
    "No method attribute set for a call of " ++ Value.displayName o ++ " in " ++ s
  | .propertyWithoutName m s =>
    "No name attribute set for a property of call " ++ m ++ " in " ++ s
  | .identifierWithoutConfig i =>
    "Dependency id " ++ i ++ " refers to a configuration key but no configuration is set"
  | .keyMissing a => "No key property set for argument $" ++ a
  | .keyWithoutConfig a k =>
    "Argument $" ++ a ++ " reads configuration key " ++ k ++ " but no configuration is set"
  | .interfaceMissing a => "No interface property set for argument $" ++ a
  | .methodMissing a =>
    "Invalid properties for argument $" ++ a ++
      ", please define a method for your class or dependency"
  | .methodUnknown a o m =>
    "Invalid properties for argument $" ++ a ++ ", " ++ o ++ " has no method " ++ m
  | .targetMissing a =>
    "Invalid properties for argument $" ++ a ++
      ", please define the interface, class or function property"
  | .notAClass v => "Provided value " ++ v ++ " is not a class"
  | .notCallable v => "Provided value " ++ v ++ " is not callable"
  | .classUnknown n =>
    "Class " ++ n ++ " is not registered.\nHint: object_factory.register(" ++
      Text.lastPiece '.' n ++
      ", '" ++ n ++ "')"
  | .functionUnknown n => "Function " ++ n ++ " is not registered"
  | .parameterUnfilled p c =>
    "Argument $" ++ p ++ " of " ++ c ++ " is not defined and can't be injected"
  | .argumentsUnknown ns c =>
    ", ".intercalate (ns.map ("$" ++ ·)) ++ (if ns.length = 1 then " is" else " are") ++
      " not defined in the signature of " ++ c
  | .unexpectedType i a e => "Instance for " ++ i ++ " is a " ++ a ++ ", expected " ++ e
  | .noSuchMethod c m => c ++ " has no method " ++ m
  | .parserMissing k => "No argument parser set for type " ++ k

/-- Why no definition could be found. -/
inductive Absence where
  | base (interface : String) (identifier : Option String)
  | interface (interface : String) (registered : List String)
  | identifier (interface : String) (identifier : Option String) (defined : List (Option String))
  | allExcluded (interface : String) (defined : List (Option String))
  deriving DecidableEq, Inhabited

/-- Identifiers as they are listed in messages. -/
def listIdentifiers (ids : List (Option String)) : String :=
  ", ".intercalate (ids.map Value.displayName)

/-- The wording of an absence. -/
def Absence.message : Absence → String
  | .base i id =>
    "No base definition set to extend interface " ++ i ++ " with id " ++ Value.displayName id
  | .interface i registered =>
    let names := ", ".intercalate registered
    "No definitions set for " ++ i ++ ".\nRegistered interfaces: " ++
      (if names = "" then "None" else names)
  | .identifier i id defined =>
    "No definition set for " ++ i ++ " with id " ++ Value.displayName id ++ ".\nDefined ids: " ++
      listIdentifiers defined
  | .allExcluded i defined =>
    "No definition available for " ++ i ++ ", all definitions are excluded: " ++
      listIdentifiers defined

/-- Where a build failed. Call 0 is the constructor. -/
structure Site where
  interface : String
  identifier : Option String
  className : String
  callIndex : Nat
  method : String
  argument : Option String
  deriving DecidableEq, Inhabited

/-- The wording of a site. -/
def Site.text (s : Site) : String :=
  "Could not create the instance of interface " ++ s.interface ++ " with id " ++
    Value.displayName s.identifier ++ " (" ++ s.className ++ "): call #" ++ toString s.callIndex ++
    " " ++ s.method ++ "()" ++
    (match s.argument with
    | some a => ", argument $" ++ a
    | none => "")

/-- A fault. -/
inductive Fault where
  /-- A wrong declaration or request. -/
  | definition (why : DefinitionFault)
  /-- A definitions file that could not be read. -/
  | unreadable (source : String) (reason : ForeignKind)
  /-- A wrong argument in a definitions file. -/
  | argument (method source : String) (why : DefinitionFault)
  /-- Nothing to select. -/
  | notFound (why : Absence)
  /-- Nothing to extend, in a definitions file. -/
  | notFoundIn (source : String) (why : Absence)
  /-- Several definitions to select from and no reason to take one. -/
  | ambiguous (interface : String) (identifiers : List (Option String))
  /-- A definition that was asked for while it was being built. -/
  | circular (key : DefinitionKey) (building : Exclusions)
  /-- A closed core. -/
  | closed
  /-- A document that is no snapshot at all. -/
  | notASnapshot
  /-- A snapshot of another version. -/
  | snapshotVersion (version : String)
  /-- A text that is no document. -/
  | snapshotText (reason : ForeignKind)
  /-- A snapshot without one of its keys. -/
  | snapshotKey (key : String)
  /-- A snapshot with a part of the wrong shape. -/
  | snapshotShape (reason : ForeignKind)
  /-- A snapshot of a wrong declaration. -/
  | snapshotDefinition (why : DefinitionFault)
  /-- A definition that could not be built. -/
  | resolution (site : Site) (reason : Fault)
  /-- A configuration key that is no text or empty. -/
  | configurationKey
  /-- A file name that is empty. -/
  | fileName
  /-- A slot that holds nothing yet. -/
  | emptySlot (name : String)
  /-- A fault that code of the host program raised. -/
  | raised (kind text : String)
  /-- A fault of the libraries and the system below. -/
  | foreign (kind : ForeignKind)
  deriving DecidableEq, Inhabited

namespace Fault

/-- The kinds of faults that the system has further names for. -/
def systemKinds : List String :=
  ["BlockingIOError", "BrokenPipeError", "ChildProcessError", "ConnectionAbortedError",
    "ConnectionError", "ConnectionRefusedError", "ConnectionResetError", "EnvironmentError",
    "FileExistsError", "FileNotFoundError", "IOError", "InterruptedError", "IsADirectoryError",
    "NotADirectoryError", "PermissionError", "ProcessLookupError", "TimeoutError"]

/-- The name of the kind of a fault. -/
def kind : Fault → String
  | .definition _ | .unreadable _ _ | .argument _ _ _ => "DefinitionError"
  | .notFound _ | .notFoundIn _ _ => "DefinitionNotFoundError"
  | .ambiguous _ _ => "AmbiguousDefinitionError"
  | .circular _ _ => "CircularDependencyError"
  | .closed => "ContainerClosedError"
  | .notASnapshot | .snapshotVersion _ | .snapshotText _ | .snapshotKey _ | .snapshotShape _
  | .snapshotDefinition _ => "SnapshotError"
  | .resolution _ _ => "ResolutionError"
  | .configurationKey | .fileName => "ValueError"
  | .emptySlot _ => "NoSlot"
  | .raised kind _ => if systemKinds.contains kind then ForeignKind.system.name else kind
  | .foreign kind => kind.name

/-- The wording of a fault. A foreign fault shows its kind only, and the text of a missing key is
the quoted key. -/
def text : Fault → String
  | .definition why => why.message
  | .unreadable source reason =>
    "Could not read definitions from " ++ source ++ ": <" ++ reason.name ++ ">"
  | .argument method source why =>
    "Invalid argument for call " ++ method ++ " in " ++ source ++ ": " ++ why.message
  | .notFound why => why.message
  | .notFoundIn source why => why.message ++ " (declared in " ++ source ++ ")"
  | .ambiguous interface ids =>
    "Multiple definitions set for " ++ interface ++ " and none is the default.\nDefined ids: " ++
      listIdentifiers ids ++ "\nHint: injector.get('" ++ interface ++ "', '" ++
      Value.displayName (ids.head?.getD none) ++ "')"
  | .circular key building =>
    "Circular dependency detected: " ++ Exclusions.keyText key ++ " is already being built (" ++
      building.text ++ ")"
  | .closed => "This core is already closed"
  | .notASnapshot => "Provided document is not a container snapshot"
  | .snapshotVersion version => "Unsupported snapshot version " ++ version
  | .snapshotText reason => "Invalid container snapshot: <" ++ reason.name ++ ">"
  | .snapshotKey key => "Invalid container snapshot: KeyError(" ++ Text.quoted key ++ ")"
  | .snapshotShape reason => "Invalid container snapshot: <" ++ reason.name ++ ">"
  | .snapshotDefinition why =>
    "Invalid container snapshot: DefinitionError(" ++ Text.quoted why.message ++ ")"
  | .resolution site reason => site.text ++ ": " ++ reason.text
  | .configurationKey => "Provided configuration key is empty or invalid"
  | .fileName => "Provided file name is empty"
  | .emptySlot name => "no slot " ++ name
  | .raised kind text => if kind = "KeyError" then Text.quoted text else text
  | .foreign kind => "<" ++ kind.name ++ ">"

/-- The wording, unless the fault is a foreign one. -/
def message? : Fault → Option String
  | .foreign _ => none
  | f => some f.text

/-- The fault behind a fault. -/
def reason? : Fault → Option Fault
  | .unreadable _ reason => some (.foreign reason)
  | .argument _ _ why => some (.definition why)
  | .notFoundIn _ why => some (.notFound why)
  | .snapshotText reason => some (.foreign reason)
  | .snapshotKey _ => some (.foreign .key)
  | .snapshotShape reason => some (.foreign reason)
  | .snapshotDefinition why => some (.definition why)
  | .resolution _ reason => some reason
  | _ => none

end Fault

end Wiring
