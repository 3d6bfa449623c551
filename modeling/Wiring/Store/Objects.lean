import Wiring.Host.Binding
import Wiring.Host.Member
import Wiring.Store.Cores

/-!
# `Wiring.Store.Objects`: making values and objects

A class makes an object from arguments. A class of the program binds them to the parameters of its
constructor and records them. If it has no constructor of its own, the nearest base that the program
does not declare makes a part of the object from them; if it has one, that base makes what it can
without them. Classes of the language give plain values, and those of the engine components.

A literal of the program is made anew each time that it is needed, with whatever its slots then
hold.
-/

set_option autoImplicit false

namespace Wiring

/-! ### Parameters of components -/

/-- The parameters of the constructor of a component. -/
def ComponentKind.params : ComponentKind → List Param
  | .argument => [.required "name", .required "kind", .optional "properties"]
  | .call => [.required "method_name", .optional "arguments", .optional "call_id"]
  | .definition => [.required "class_name", .optional "identifier", .optional "interfaces",
      .optional "constructor", .optional "calls"]
  | .container => []
  | .xmlSource => [.wanting "file_browser" (.component .browser), .optional "environment",
      .withDefault "file_name" (.text Overlay.defaultFileName),
      .withDefault "config_directory" (.text Overlay.defaultDirectory)]
  | .cachedSource =>
    [.wanting "io" (.outside "wirebox.dependency_io" "DependencyIO"), .required "path"]
  | .countingSource => [.required "container"]
  | .browser => [.optional "application_directory", .optional "modules_directories"]
  | .config => [.optional "values"]
  | .factory => []
  | .context => [.required "injector", .optional "exclude"]
  | .injector => [.optional "container", .optional "object_factory", .optional "config"]
  | .settings => Settings.names.map fun n => .withDefault n Param.leftOut
  | .core => [.optional "settings", .optional "config", .optional "object_factory",
      .optional "dependency_io"]
  | .cacheControl => [.required "core"]

/-- The value that a parameter is bound to. -/
def boundTo (b : Bindings) (name : String) : Value := (b.lookup name).getD .null

/-- A value, unless it tells that an argument was left out. -/
def Value.given? : Value → Option Value
  | .other _ => none
  | v => some v

namespace Store

/-! ### References in values -/

/-- The cell that a value refers to. -/
def refIn {α : Type} (kind : ComponentKind) (v : Value) : Action (Ref α) := do
  match (← get).component v with
  | some c => if c.kind = kind then pure ⟨c.id⟩ else Work.foreign .attribute
  | none => Work.foreign .attribute

/-- The cell that a value refers to, unless it is null. -/
def refIn? {α : Type} (kind : ComponentKind) (v : Value) : Action (Option (Ref α)) := do
  match v with
  | .null => pure none
  | v => do pure (some (← refIn kind v))

/-- The source that a value refers to. -/
def sourceIn (v : Value) : Action (Ref Source) := do
  match (← get).component v with
  | some ⟨.xmlSource, id⟩ | some ⟨.cachedSource, id⟩ | some ⟨.countingSource, id⟩ => pure ⟨id⟩
  | _ => Work.foreign .attribute

/-- The source that a value refers to, unless it is null. -/
def sourceIn? (v : Value) : Action (Option (Ref Source)) := do
  match v with
  | .null => pure none
  | v => do pure (some (← sourceIn v))

/-- The items of a value that can be listed. -/
def itemsOf (v : Value) : Action (List Value) := do
  match ((← get).content v).parts? with
  | some items => pure items
  | none => Work.foreign .type

/-! ### Classes of the language -/

/-- The text of a value, by the arguments that such a text is made from. -/
def makeText (named : List (String × Value)) : Action Value := do
  let known := named.all fun a => ["object", "encoding", "errors"].contains a.1
  let isDecoded := named.any fun a => a.1 ≠ "object"
  if !known then Work.foreign .type
  match named.lookup "object" with
  | none => pure (.text "")
  | some v =>
    match ← look v with
    | .bytes data =>
      if isDecoded then
        match String.fromUTF8? ⟨data.toArray⟩ with
        | some s => pure (.text s)
        | none => Work.foreign .encoding
      else pure (.text (Value.literal (.bytes data)))
    | v => if isDecoded then Work.foreign .type else pure (.text v.display)

/-- Makes a value of a class of the language. -/
def constructBuiltin (b : BuiltinClass) (passed : Passed) : Action Value := do
  match b, passed.positional, passed.named with
  | .mapping, [], named => settle (.map none (Value.entriesOf named))
  | .text, [], named => makeText named
  | .list, [v], [] => do settle (.list none (← itemsOf v))
  | .list, [], [] => settle (.list none [])
  | .int, [], [] => pure (.int 0)
  | .bool, [], [] => pure (.bool false)
  | .float, [], [] => pure (.float (.zero false))
  | .bytes, [], [] => pure (.bytes [])
  | .none, [], [] => pure .null
  | .path, [], [] => pure (.path (Files.Path.ofText ""))
  | .object, [], [] => do pure (.object (← addObject ⟨.builtin .object, [], [], none⟩))
  | _, _, _ => Work.foreign .type

/-! ### Classes of the engine -/

/-- Binds arguments, or fails as the language does. -/
def bound (params : List Param) (passed : Passed) : Action Bindings :=
  match Param.bind? params passed with
  | some b => settleAll b
  | none => Work.foreign .type

/-- Makes a component from the arguments of its constructor, by the names of its parameters. -/
def makeComponent (kind : ComponentKind) (arg : String → Value) : Action Value := do
  let named := fun (id : Nat) => (Component.mk kind id).value
  match kind with
  | .argument =>
    let properties ← Work.lift (Snapshot.propertiesOf ((← get).content (arg "properties")))
    pure (named (← declareArgument (arg "name") (arg "kind") properties).index)
  | .call =>
    let arguments := arg "arguments"
    let items ← if arguments.truthy then itemsOf arguments else pure []
    let cells ← items.mapM (refIn .argument)
    pure (named (← declareCall (arg "method_name") (arg "call_id") cells).index)
  | .definition =>
    let d ← declareDefinition (arg "class_name") (arg "identifier") (arg "interfaces")
    match ← refIn? .call (arg "constructor") with
    | some c => change d fun x => { x with constructor := some c }
    | none => pure ()
    pure (named d.index)
  | .container => do pure (named (← makeContainer).index)
  | .xmlSource =>
    let browser ← refIn .browser (arg "file_browser")
    let environment := arg "environment"
    let overlay : Overlay :=
      ⟨if environment.truthy then some environment.display else none,
        (arg "file_name").display, (arg "config_directory").display⟩
    pure (named (← make (Source.files browser overlay)).index)
  | .cachedSource =>
    let p ← Work.lift (Settings.directory (arg "path"))
    let inner ← read (← sourceIn (arg "io"))
    pure (named (← make (Source.cached inner p)).index)
  | .countingSource =>
    let k ← make (Counter.mk (← refIn .container (arg "container")) 0)
    pure (named (← make (Source.counting k)).index)
  | .browser =>
    pure (named
      (← makeBrowser (arg "application_directory") (arg "modules_directories")).index)
  | .config => do pure (named (← makeConfig (arg "values")).index)
  | .factory => do pure (named (← make Registry.empty).index)
  | .context => do pure (named (← make Exclusions.empty).index)
  | .injector =>
    let container ← refIn? .container (arg "container")
    let registry ← refIn? .factory (arg "object_factory")
    let config ← refIn? .config (arg "config")
    pure (named (← makeInjector container registry config).index)
  | .settings =>
    let given := GivenSettings.named fun n => (arg n).given?
    pure (named (← make (← Work.lift (Settings.of given []))).index)
  | .core =>
    let settings ← refIn? .settings (arg "settings")
    let config ← refIn? .config (arg "config")
    let registry ← refIn? .factory (arg "object_factory")
    let source ← sourceIn? (arg "dependency_io")
    pure (named (← makeCore settings config registry source []).index)
  | .cacheControl => do
    pure (named (← make (CacheControl.mk (← refIn .core (arg "core")))).index)

/-- Named values as they are now. -/
def lookAll (b : Bindings) : Action Bindings := do pure ((← get).currentAll b)

/-- Makes a component. -/
def constructComponent (kind : ComponentKind) (passed : Passed) : Action Value := do
  makeComponent kind (boundTo (← lookAll (← bound kind.params passed)))

/-! ### Classes of the program -/

/-- The kinds of faults that take more than a text. -/
def detailedKinds : List String :=
  ["BaseExceptionGroup", "ExceptionGroup", "UnicodeDecodeError", "UnicodeEncodeError",
    "UnicodeTranslateError"]

/-- Raises the fault of a routine, if it has one. -/
def raising (r : Routine) : Action Unit :=
  match r.raises with
  | some (kind, text) =>
    if detailedKinds.contains kind then Work.foreign .type else throw (.raised kind text)
  | none => pure ()

/-- What an object is at first when its constructor does not make a part of it. -/
def unmadePart (base : ClassRef) (passed : Passed) : Action (Option Value) :=
  match base with
  | .builtin .mapping => do pure (some (← settle (.map none [])))
  | .builtin .list => do pure (some (← settle (.list none [])))
  | .builtin .object => pure none
  | .builtin b => do pure (some (← constructBuiltin b passed))
  | _ => pure none

/-- The part of an object whose class leaves the construction to its base. -/
def inheritedPart (base : ClassRef) (passed : Passed) : Action (Option Value) := do
  match base with
  | .builtin .object => do
    let _ ← bound [] passed
    pure none
  | .builtin b => do pure (some (← constructBuiltin b passed))
  | .component k => do pure (some (← constructComponent k passed))
  | _ => Work.foreign .type

/-- Makes an object of a class. -/
def construct (c : ClassRef) (passed : Passed) : Action Value := do
  let p := (← get).program
  match c with
  | .builtin b => constructBuiltin b passed
  | .component k => constructComponent k passed
  | .outside _ _ => Work.foreign .type
  | .declared _ =>
    match p.constructor? c with
    | some (_, r) =>
      let part ← unmadePart (p.givenBase c) passed
      let init ← bound r.params passed
      raising r
      pure (.object (← addObject ⟨c, init, [], part⟩))
    | none =>
      let part ← inheritedPart (p.givenBase c) passed
      pure (.object (← addObject ⟨c, [], [], part⟩))

/-! ### Slots and literals -/

/-- Keeps a value in a slot. -/
def keepIn (name : String) (v : Value) : Action Unit :=
  modify fun s => { s with slots := (name, v) :: s.slots.filter fun e => e.1 ≠ name }

/-- What a slot holds. -/
def slotValue (name : String) : Action Value := do
  match (← get).slots.lookup name with
  | some v => look v
  | none => throw (.emptySlot name)

/-- Makes a number that equals no number. Those of documents are one, which bears the mark 0. -/
def makeNan : Action Value :=
  modifyGet fun s =>
    let mark := s.marks + 1
    (.float (Decimal.Binary64.markedNan mark), { s with marks := mark })

mutual

/-- The value of a literal. -/
def evaluate : Literal → Action Value
  | .value v => settle v
  | .slot name => slotValue name
  | .notANumber => makeNan
  | .list items => do settle (.list none (← evaluateItems items))
  | .map entries => do settle (.map none (Value.entriesOf (← evaluateEntries entries)))
  | .fresh c arguments => do
    construct c ⟨[], (OrderedMap.ofList (← evaluateEntries arguments)).entries⟩

/-- The values of the items of a list. -/
def evaluateItems : List Literal → Action (List Value)
  | [] => pure []
  | l :: rest => do
    let v ← evaluate l
    pure (v :: (← evaluateItems rest))

/-- The values of named literals. -/
def evaluateEntries : List (String × Literal) → Action (List (String × Value))
  | [] => pure []
  | (k, l) :: rest => do
    let v ← evaluate l
    pure ((k, v) :: (← evaluateEntries rest))

end

end Store

end Wiring
