import Wiring.Container.Overview
import Wiring.Resolution.Filling
import Wiring.Resolution.Request

/-!
# `Wiring.Resolution.Members`: running the methods of components

A component takes the arguments of its methods by the names of their parameters. What the methods do
is what the engine does itself; here they are only named. An injector and a core answer requests in
the given way, so that objects which call them while they are built go on with the same resolution.
-/

set_option autoImplicit false

namespace Wiring

open Wiring.Files

namespace Store

/-- Arguments by the names of parameters. -/
abbrev NamedArguments := String → Value

/-- A list of values. -/
def newList (items : List Value) : Action Value := settle (.list none items)

/-- A mapping of values. -/
def newMap (entries : List (Value × Value)) : Action Value := settle (.map none entries)

/-- An action that gives nothing back. -/
def nothing (a : Action Unit) : Action Value := do
  a
  pure .null

/-- The cells of some components as a list. -/
def newRefs {α : Type} (kind : ComponentKind) (refs : List (Ref α)) : Action Value :=
  newList (components kind refs)

/-- The text of a value that is looked for in other texts. -/
def queryOf (r : Ref ContainerCell) (v : Value) : Action (Option String) := do
  match v with
  | .text s => pure (some s)
  | v =>
    if v.truthy then
      let c ← read r
      if c.interfaces.isEmpty then pure (some v.display) else Work.foreign .attribute
    else pure none

/-- The literal form of a component. -/
def literalOf (kind : ComponentKind) (id : Nat) : Action Value := do
  let v ← look (Component.mk kind id).value
  pure (.text v.literal)

/-- Whether a component equals a value. -/
def equalTo (kind : ComponentKind) (id : Nat) (other : Value) : Action Value := do
  let s ← get
  match s.component other with
  | some c =>
    if c.kind = kind then
      pure (.bool ((s.current (Component.mk kind id).value).equal (s.current c.value)))
    else pure (.other "NotImplementedType")
  | none => pure (.other "NotImplementedType")

/-! ### Declarations -/

/-- Runs a method of an argument. -/
def runArgument (r : Ref Argument) (method : String) (arg : NamedArguments) : Action Value := do
  match method with
  | "get_property" =>
    let name := arg "name"
    if !name.isKey then Work.foreign .type
    look ((Value.lookup name (← read r).properties).getD (arg "default"))
  | "__str__" => do pure (.text ((← get).argument r).text)
  | "__repr__" => literalOf .argument r.index
  | "__eq__" => equalTo .argument r.index (arg "other")
  | _ => Work.foreign .attribute

/-- Runs a method of a call. -/
def runCall (r : Ref CallCell) (method : String) (arg : NamedArguments) : Action Value := do
  match method with
  | "add_argument" => nothing (do addArgument r (← refIn .argument (arg "argument")))
  | "__str__" => do pure (.text ((← get).call r).text)
  | "__repr__" => literalOf .call r.index
  | "__eq__" => equalTo .call r.index (arg "other")
  | _ => Work.foreign .attribute

/-- Runs a method of a definition. -/
def runDefinition (r : Ref DefinitionCell) (method : String) (arg : NamedArguments) :
    Action Value := do
  let d ← read r
  match method with
  | "set_class_name" => nothing (setClassName r (arg "class_name"))
  | "set_identifier" => nothing (setIdentifier r (arg "identifier"))
  | "set_interfaces" => nothing (setInterfaces r (arg "interfaces"))
  | "get_interfaces" => newList (d.allInterfaces.map .text)
  | "add_call" => nothing (do Store.addCall r (← refIn .call (arg "call")))
  | "get_calls" => newRefs .call d.callList
  | "get_constructor_arguments" =>
    match d.constructor with
    | some c => do newRefs .argument (← read c).arguments
    | none => newList []
  | "copy" => do pure (Component.mk .definition (← copy r).index).value
  | "__repr__" => literalOf .definition r.index
  | "__eq__" => equalTo .definition r.index (arg "other")
  | _ => Work.foreign .attribute

/-- Runs a method of a container. -/
def runContainer (r : Ref ContainerCell) (method : String) (arg : NamedArguments) :
    Action Value := do
  let c ← read r
  let interface := arg "interface"
  match method with
  | "add_definition" => nothing do
    addDefinition r interface (← refIn .definition (arg "definition"))
  | "get_definitions" => do
    newMap ((← definitionsOf r interface).map fun e =>
      (Value.optional e.1, (Component.mk .definition e.2.index).value))
  | "get_definition" => do
    pure (Component.mk .definition (← definitionOf r interface (arg "identifier")).index).value
  | "extend_definition" => do
    let d ← extend r interface (arg "base_identifier") (arg "identifier") (arg "class_name")
    pure (Component.mk .definition d.index).value
  | "get_interfaces" => newList (c.interfaces.map .text)
  | "search" => do newList ((c.search (← queryOf r (arg "query"))).map .text)
  | "describe" => do
    let query ← queryOf r (arg "query")
    pure (.text (((← get).container r).describe query))
  | "__contains__" =>
    if interface.isKey then
      pure (.bool (c.contains interface.display && interface.name?.isSome))
    else Work.foreign .type
  | "__len__" => pure (.int c.size)
  | "__iter__" => pure (.other "generator")
  | "__eq__" => equalTo .container r.index (arg "other")
  | _ => Work.foreign .attribute

/-! ### Sources and browsers -/

/-- A list of paths. -/
def newPaths (ps : List Path) : Action Value := newList (ps.map .path)

/-- Runs a method of a source. -/
def runSource (r : Ref Source) (method : String) (arg : NamedArguments) : Action Value := do
  match method, ← read r with
  | "get_container", x => do pure (Component.mk .container (← produce x).index).value
  | "get_files", .files b o => do newPaths (← overlayFiles b o)
  | "read_definitions", .files _ _ => nothing do
    let container ← refIn .container (arg "container")
    let path := arg "path"
    report [.readingDefinitions ⟨"", [path.display]⟩]
    let found ← Work.lift (Declaration.ofSpelled (← get).files path.display)
    found.forM (applyDeclaration container)
  | "read", .cached _ p => do
    match ← readCache p with
    | some c => pure (Component.mk .container c.index).value
    | none => pure .null
  | "write", .cached _ p => do pure (.bool (← writeCache p (← refIn .container (arg "container"))))
  | "clear", .cached _ p => do pure (.bool (← clearCache p))
  | _, _ => Work.foreign .attribute

/-- Runs a method of a browser. -/
def runBrowser (r : Ref Browser) (method : String) (arg : NamedArguments) : Action Value := do
  match method with
  | "add_modules_directory" => nothing (addModules r (arg "directory"))
  | "remove_modules_directory" => nothing (removeModules r (arg "directory"))
  | "get_include_directories" => do newPaths (← includes r (arg "refresh").truthy)
  | "get_file" => do pure (((← fileNamed r (arg "file_name")).map Value.path).getD .null)
  | "get_files" => do newPaths (← filesNamed r (arg "file_name"))
  | "reset" => nothing (change r Browser.reset)
  | _ => Work.foreign .attribute

/-! ### Configurations and registries -/

/-- Runs a method of a configuration. -/
def runConfig (r : Ref Config) (method : String) (arg : NamedArguments) : Action Value := do
  match method with
  | "get" => configValue r (arg "key") (arg "default")
  | "set" => nothing (setConfig r (arg "key") (arg "value"))
  | "unset" => nothing (unsetConfig r (arg "key"))
  | "get_all" => configValues r
  | _ => Work.foreign .attribute

/-- The named arguments that a mapping holds. -/
def namedIn (v : Value) : Action (List (String × Value)) := do
  pure ((← mapping v).map fun e => (e.1.display, e.2))

/-- How parameters are found by something that is no way to find them. -/
def noInjection (v : Value) : Option Injection :=
  match v with
  | .null => none
  | _ => some fun _ _ => throw (.plain (.foreign .type))

/-- Runs a method of a registry. No value is a class or a function. -/
def runRegistry (r : Ref Registry) (method : String) (arg : NamedArguments) : Action Value := do
  let s ← get
  let x ← read r
  match method with
  | "register" => throw (.definition (.notAClass (arg "cls").literal))
  | "register_function" => throw (.definition (.notCallable (arg "function").literal))
  | "get_class" => do
    let _ ← Work.lift (x.class? (arg "name"))
    pure (.other "type")
  | "get_function" => do
    let _ ← Work.lift (x.function? (arg "name"))
    pure (.other "function")
  | "has_class" =>
    match arg "name" with
    | .text n => pure (.bool (x.classes.contains n))
    | v => if v.isKey then pure (.bool false) else Work.foreign .type
  | "create" => do
    let arguments ← namedIn (arg "arguments")
    Work.mapFault Failure.fault
      (x.create s.program (arg "class_name") arguments (noInjection (arg "inject")))
  | "bind" => do
    match (← get).content (arg "arguments") with
    | .map _ entries => do newList [← newList [], ← newMap entries]
    | _ => Work.foreign .type
  | _ => Work.foreign .attribute

/-! ### Resolution -/

/-- Runs a method of a context. -/
def runContext (r : Ref Exclusions) (method : String) (arg : NamedArguments) : Action Value := do
  let e ← read r
  let identifier := match arg "identifier" with
    | .null => none
    | v => some v.display
  let key : DefinitionKey := ⟨(arg "interface").display, identifier⟩
  let hashable := (arg "interface").isKey && (arg "identifier").isKey
  let named := match arg "interface", arg "identifier" with
    | .text _, .text _ | .text _, .null => true
    | _, _ => false
  match method with
  | "enter" =>
    if hashable then pure (Component.mk .context (← make (e.insert key)).index).value
    else Work.foreign .type
  | "is_excluded" =>
    if hashable then pure (.bool (named && e.contains key)) else Work.foreign .type
  | "__repr__" => pure (.text e.text)
  | _ => Work.foreign .attribute

/-- The arguments in place of declared ones that a value stands for. -/
def givenIn (v : Value) : Action Given := do
  match v with
  | .null => pure none
  | v => do pure (some (← namedIn v))

/-- Asks for an object on behalf of a method. No value is a class to expect. -/
def askFor (answer : Answering) (r : Ref Injector) (q : Request) (arg : NamedArguments) :
    Action Value := do
  let v ← answer r q (← givenIn (arg "arguments"))
  match arg "expected_type" with
  | .null => pure v
  | _ => Work.foreign .type

/-- What an asker says is being built. -/
def buildingIn (v : Value) (exclude : Exclusions) : Action Exclusions := do
  match v with
  | .null => pure exclude
  | v => do read (← refIn .context v)

/-- Runs a method of an injector. -/
def runInjector (answer : Answering) (r : Ref Injector) (method : String) (arg : NamedArguments) :
    Action Value := do
  match method with
  | "set_container" => nothing do
    setContainer r (← refIn .container (arg "container")) (arg "clear_instances").truthy
  | "get_argument_parsers" => parserTable r
  | "set_argument_parser" =>
    match arg "argument_parser" with
    | .null => nothing (setParser r (arg "kind") none)
    | .parser p => nothing (setParser r (arg "kind") (some (p.map Ref.mk)))
    | _ => Work.foreign .attribute
  | "set_instance" =>
    nothing (setInstance r (arg "instance") (arg "interface") (arg "identifier"))
  | "get_all" => do
    newMap ((← answerAll answer r (arg "interface")).map fun e => (Value.optional e.1, e.2))
  | "get" => do
    if (arg "exclude").truthy then Work.foreign .type
    let building ← buildingIn (arg "context") .empty
    askFor answer r ⟨arg "interface", arg "identifier", .empty, building⟩ arg
  | _ => Work.foreign .attribute

/-- Runs a method of a core. -/
def runCore (answer : Answering) (self : Value) (r : Ref Core) (method : String)
    (arg : NamedArguments) : Action Value := do
  match method with
  | "create_dependency_io" =>
    let x ← read r
    let source ← make (← Work.lift (sourceOf (← heldSettings x.settings) x.browser))
    pure ((← get).sourceComponent source).value
  | "get" => do
    askFor answer (← openInjector r) (.plain (arg "interface") (arg "identifier")) arg
  | "get_all" => do
    newMap ((← answerAll answer (← openInjector r) (arg "interface")).map fun e =>
      (Value.optional e.1, e.2))
  | "reload" => nothing (reload r)
  | "close" => nothing (close r)
  | "__enter__" => pure self
  | "__exit__" => do
    close r
    pure (.bool false)
  | _ => Work.foreign .attribute

/-- The name of the switch of a core's snapshot file. -/
def cacheName : String := "dependencies"

/-- Runs a method of the switch of a core's snapshot file. -/
def runControl (r : Ref CacheControl) (method : String) : Action Value := do
  match method with
  | "get_name" => pure (.text cacheName)
  | "is_enabled" => caching r
  | "enable" => nothing (setCaching r true)
  | "disable" => nothing (setCaching r false)
  | "get_path" => do pure (.path (← cachePath r))
  | "exists" => do pure (.bool (← isCachePresent r))
  | "clear" => do pure (.bool (← clearControlled r))
  | _ => Work.foreign .attribute

/-! ### All components -/

/-- Puts what one cell holds into another one. -/
def assign {α : Type} [Stored α] (target source : Ref α) : Action Unit := do
  let a ← read source
  change target fun _ => a

/-- Makes a component anew from the arguments of its constructor. -/
def remake (c : Component) (arg : NamedArguments) : Action Unit := do
  match ← makeComponent c.kind arg with
  | .component made _ =>
    match c.kind with
    | .argument => assign (α := Argument) ⟨c.id⟩ ⟨made.id⟩
    | .call => assign (α := CallCell) ⟨c.id⟩ ⟨made.id⟩
    | .definition => assign (α := DefinitionCell) ⟨c.id⟩ ⟨made.id⟩
    | .container => assign (α := ContainerCell) ⟨c.id⟩ ⟨made.id⟩
    | .xmlSource | .cachedSource | .countingSource => assign (α := Source) ⟨c.id⟩ ⟨made.id⟩
    | .browser => assign (α := Browser) ⟨c.id⟩ ⟨made.id⟩
    | .config => assign (α := Config) ⟨c.id⟩ ⟨made.id⟩
    | .factory => assign (α := Registry) ⟨c.id⟩ ⟨made.id⟩
    | .context => assign (α := Exclusions) ⟨c.id⟩ ⟨made.id⟩
    | .injector => assign (α := Injector) ⟨c.id⟩ ⟨made.id⟩
    | .settings => assign (α := Settings) ⟨c.id⟩ ⟨made.id⟩
    | .core => assign (α := Core) ⟨c.id⟩ ⟨made.id⟩
    | .cacheControl => assign (α := CacheControl) ⟨c.id⟩ ⟨made.id⟩
  | _ => pure ()

/-- Runs a method of a component. -/
def runMember (answer : Answering) (self : Value) (c : Component) (method : String)
    (arg : NamedArguments) : Action Value :=
  if method = initName then nothing (remake c arg)
  else
    match c.kind with
    | .argument => runArgument ⟨c.id⟩ method arg
    | .call => runCall ⟨c.id⟩ method arg
    | .definition => runDefinition ⟨c.id⟩ method arg
    | .container => runContainer ⟨c.id⟩ method arg
    | .xmlSource | .cachedSource | .countingSource => runSource ⟨c.id⟩ method arg
    | .browser => runBrowser ⟨c.id⟩ method arg
    | .config => runConfig ⟨c.id⟩ method arg
    | .factory => runRegistry ⟨c.id⟩ method arg
    | .context => runContext ⟨c.id⟩ method arg
    | .injector => runInjector answer ⟨c.id⟩ method arg
    | .settings =>
      if method = "__repr__" then literalOf .settings c.id
      else equalTo .settings c.id (arg "other")
    | .core => runCore answer self ⟨c.id⟩ method arg
    | .cacheControl => runControl ⟨c.id⟩ method

end Store

end Wiring
