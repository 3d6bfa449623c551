import Wiring.Store.Values

/-!
# `Wiring.Store.Copying`: copies that share nothing with what they are copies of

`duplicate` copies a value with everything that can be reached from it: collections, objects and
components. Each of them is copied once, so what was shared inside is shared inside the copy, and
nothing is shared between the two. A source with a snapshot file cannot be copied, and neither can
anything that leads to one.

What is reached is copied to the ends of the tables of the store, kind by kind, and a reference to
it is renamed to its place there.
-/

set_option autoImplicit false

namespace Wiring

/-- Something of the store that can be referred to. -/
inductive Node where
  | collection (place : Nat)
  | object (id : Nat)
  | component (c : Component)
  deriving DecidableEq, Inhabited

/-! ### References inside values -/

namespace Value

mutual

/-- What a value refers to itself. -/
def nodes : Value → List Node
  | .list none items => itemNodes items
  | .map none entries => entryNodes entries
  | .list (some n) _ => [.collection n]
  | .map (some n) _ => [.collection n]
  | .object id => [.object id]
  | .component c _ => [.component c]
  | _ => []

/-- What the items of a list refer to. -/
def itemNodes : List Value → List Node
  | [] => []
  | v :: rest => nodes v ++ itemNodes rest

/-- What the values of a mapping refer to. -/
def entryNodes : List (Value × Value) → List Node
  | [] => []
  | (_, v) :: rest => nodes v ++ entryNodes rest

end

/-- The number of a place after a renaming. -/
def renamedPlace (f : Node → Node) (place : Nat) : Nat :=
  match f (.collection place) with
  | .collection n => n
  | _ => place

/-- The number of an object after a renaming. -/
def renamedObject (f : Node → Node) (id : Nat) : Nat :=
  match f (.object id) with
  | .object n => n
  | _ => id

/-- A component after a renaming. -/
def renamedComponent (f : Node → Node) (c : Component) : Component :=
  match f (.component c) with
  | .component c => c
  | _ => c

mutual

/-- A value after a renaming. -/
def renamed (f : Node → Node) : Value → Value
  | .list place items => .list (place.map (renamedPlace f)) (renamedItems f items)
  | .map place entries => .map (place.map (renamedPlace f)) (renamedEntries f entries)
  | .object id => .object (renamedObject f id)
  | .component c _ => .component (renamedComponent f c) []
  | v => v

/-- The items of a list after a renaming. -/
def renamedItems (f : Node → Node) : List Value → List Value
  | [] => []
  | v :: rest => renamed f v :: renamedItems f rest

/-- The values of a mapping after a renaming. -/
def renamedEntries (f : Node → Node) : List (Value × Value) → List (Value × Value)
  | [] => []
  | (k, v) :: rest => (k, renamed f v) :: renamedEntries f rest

end

end Value

namespace Store

/-! ### What can be reached -/

/-- References of one kind. -/
def refNodes {α : Type} (kind : ComponentKind) (refs : List (Ref α)) : List Node :=
  refs.map fun r => .component ⟨kind, r.index⟩

/-- What named values refer to. -/
def bindingNodes (b : Bindings) : List Node := b.flatMap fun e => e.2.nodes

/-- The kind of a source. -/
def sourceKind : Source → ComponentKind
  | .files _ _ => .xmlSource
  | .counting _ => .countingSource
  | .cached _ _ => .cachedSource

/-- A source as a component. -/
def sourceComponent (s : Store) (r : Ref Source) : Component :=
  ⟨sourceKind (s.sources.get r), r.index⟩

/-- What a component refers to itself. -/
def componentNodes (s : Store) (c : Component) : List Node :=
  match c.kind with
  | .argument => Value.entryNodes (s.arguments.get ⟨c.id⟩).properties
  | .call => refNodes .argument (s.calls.get ⟨c.id⟩).arguments
  | .definition =>
    let d := s.definitions.get ⟨c.id⟩
    refNodes .call (d.constructor.toList ++ d.callList)
  | .container => refNodes .definition ((s.containers.get ⟨c.id⟩).toList.map Prod.snd)
  | .config => Value.entryNodes (ConfigNode.entryValues (s.configs.get ⟨c.id⟩).entries)
  | .settings => bindingNodes (s.settings.get ⟨c.id⟩).parts
  | .xmlSource =>
    match s.sources.get ⟨c.id⟩ with
    | .files b _ => refNodes .browser [b]
    | _ => []
  | .injector =>
    let i := s.injectors.get ⟨c.id⟩
    refNodes .container [i.container] ++ refNodes .factory [i.registry] ++
      refNodes .config (i.config.toList ++ i.parsers.values.filterMap Parser.config?) ++
      i.instances.values.flatMap Value.nodes
  | .core =>
    let x := s.cores.get ⟨c.id⟩
    refNodes .settings [x.settings] ++ refNodes .config [x.config] ++
      refNodes .factory [x.registry] ++ refNodes .browser [x.browser] ++
      [.component (s.sourceComponent x.source)] ++ refNodes .injector [x.injector]
  | .cacheControl => refNodes .core [(s.controls.get ⟨c.id⟩).core]
  | .cachedSource | .countingSource | .browser | .factory | .context => []

/-- What a thing of the store refers to itself. -/
def nodesOf (s : Store) : Node → List Node
  | .collection n =>
    match s.collections[n]? with
    | some (.list items) => Value.itemNodes items
    | some (.map entries) => Value.entryNodes entries
    | none => []
  | .object id =>
    match s.objects[id]? with
    | some o =>
      bindingNodes o.init ++ o.calls.flatMap (fun c => bindingNodes c.2) ++
        (o.part.map Value.nodes).getD []
    | none => []
  | .component c => s.componentNodes c

/-- What can be reached from some things in a number of steps, each once. -/
def reachedIn (s : Store) : Nat → List Node → List Node
  | 0, found => found
  | fuel + 1, found =>
    let more := (found ++ found.flatMap s.nodesOf).eraseDups
    if more.length = found.length then found else s.reachedIn fuel more

/-- A number of steps in which everything that can be reached is reached. -/
def reach (s : Store) : Nat :=
  s.collections.length + s.objects.length + s.arguments.items.length + s.calls.items.length +
    s.definitions.items.length + s.containers.items.length + s.configs.items.length +
    s.registries.items.length + s.browsers.items.length + s.sources.items.length +
    s.contexts.items.length + s.injectors.items.length + s.settings.items.length +
    s.cores.items.length + s.controls.items.length

/-! ### Copying -/

/-- The places of the collections among some things. -/
def placesIn (found : List Node) : List Nat :=
  found.filterMap fun
    | .collection n => some n
    | _ => none

/-- The numbers of the objects among some things. -/
def objectsIn (found : List Node) : List Nat :=
  found.filterMap fun
    | .object id => some id
    | _ => none

/-- The numbers of the components of a kind among some things. -/
def componentsIn (kind : ComponentKind) (found : List Node) : List Nat :=
  found.filterMap fun
    | .component c => if c.kind = kind then some c.id else none
    | _ => none

/-- The number of the cells that components of a kind may have. -/
def cellCount (s : Store) : ComponentKind → Nat
  | .argument => s.arguments.items.length
  | .call => s.calls.items.length
  | .definition => s.definitions.items.length
  | .container => s.containers.items.length
  | .xmlSource | .cachedSource | .countingSource => s.sources.items.length
  | .browser => s.browsers.items.length
  | .config => s.configs.items.length
  | .factory => s.registries.items.length
  | .context => s.contexts.items.length
  | .injector => s.injectors.items.length
  | .settings => s.settings.items.length
  | .core => s.cores.items.length
  | .cacheControl => s.controls.items.length

/-- The place of a number behind a table, by the place that it has in a list. -/
def behind (size : Nat) (numbers : List Nat) (n : Nat) : Nat :=
  if n ∈ numbers then size + numbers.idxOf n else n

/-- The renaming of the things that are copied. What only counts is not copied. -/
def newName (s : Store) (found : List Node) : Node → Node
  | .collection n => .collection (behind s.collections.length (placesIn found) n)
  | .object id => .object (behind s.objects.length (objectsIn found) id)
  | .component c =>
    if c.kind = .countingSource then .component c
    else .component ⟨c.kind, behind (s.cellCount c.kind) (componentsIn c.kind found) c.id⟩

/-- A reference after a renaming. -/
def renamedRef {α : Type} (f : Node → Node) (kind : ComponentKind) (r : Ref α) : Ref α :=
  ⟨(Value.renamedComponent f ⟨kind, r.index⟩).id⟩

/-- Named values after a renaming. -/
def renamedBindings (f : Node → Node) (b : Bindings) : Bindings :=
  b.map fun e => (e.1, e.2.renamed f)

/-- A collection after a renaming. -/
def renamedCollection (f : Node → Node) : Collection → Collection
  | .list items => .list (Value.renamedItems f items)
  | .map entries => .map (Value.renamedEntries f entries)

/-- An object after a renaming. -/
def renamedObject (f : Node → Node) (o : Object) : Object where
  cls := o.cls
  init := renamedBindings f o.init
  calls := o.calls.map fun c => (c.1, renamedBindings f c.2)
  part := o.part.map (Value.renamed f)

/-- A source after a renaming. -/
def renamedSource (f : Node → Node) : Source → Source
  | .files b o => .files (renamedRef f .browser b) o
  | x => x

/-- Settings after a renaming. -/
def renamedSettings (f : Node → Node) (x : Settings) : Settings where
  application := x.application.renamed f
  modules := x.modules.renamed f
  environment := x.environment.renamed f
  caching := x.caching.renamed f
  cacheDirectory := x.cacheDirectory.renamed f

/-- An injector after a renaming. -/
def renamedInjector (f : Node → Node) (i : Injector) : Injector where
  container := renamedRef f .container i.container
  registry := renamedRef f .factory i.registry
  config := i.config.map (renamedRef f .config)
  parsers := i.parsers.map (Parser.map (renamedRef f .config))
  instances := i.instances.map (Value.renamed f)

/-- A core after a renaming, where its source has the given kind. -/
def renamedCore (f : Node → Node) (kind : ComponentKind) (c : Core) : Core where
  settings := renamedRef f .settings c.settings
  config := renamedRef f .config c.config
  registry := renamedRef f .factory c.registry
  browser := renamedRef f .browser c.browser
  source := renamedRef f kind c.source
  injector := renamedRef f .injector c.injector
  isClosed := c.isClosed

/-- Copies cells behind the others. -/
def copyCells {α : Type} [Inhabited α] (c : Cells α) (numbers : List Nat) (g : α → α) : Cells α :=
  ⟨c.items ++ numbers.map fun n => g (c.get ⟨n⟩)⟩

/-- The store with copies of some things. -/
def withCopies (s : Store) (found : List Node) : Store :=
  let f := s.newName found
  let of := fun kind => componentsIn kind found
  { s with
    collections := s.collections ++
      (placesIn found).map fun n => renamedCollection f (s.collections[n]?.getD default)
    objects := s.objects ++
      (objectsIn found).map fun id => renamedObject f (s.objects[id]?.getD default)
    arguments := copyCells s.arguments (of .argument) fun a =>
      { a with properties := Value.renamedEntries f a.properties }
    calls := copyCells s.calls (of .call) (CallOf.map (renamedRef f .argument))
    definitions := copyCells s.definitions (of .definition)
      (DefinitionOf.map (renamedRef f .call))
    containers := copyCells s.containers (of .container)
      (Container.map (renamedRef f .definition))
    configs := copyCells s.configs (of .config) (Config.mapValues (Value.renamed f))
    registries := copyCells s.registries (of .factory) id
    browsers := copyCells s.browsers (of .browser) id
    sources := copyCells s.sources (of .xmlSource) (renamedSource f)
    contexts := copyCells s.contexts (of .context) id
    injectors := copyCells s.injectors (of .injector) (renamedInjector f)
    settings := copyCells s.settings (of .settings) (renamedSettings f)
    cores := copyCells s.cores (of .core) fun c =>
      renamedCore f (sourceKind (s.sources.get c.source)) c
    controls := copyCells s.controls (of .cacheControl) fun x =>
      ⟨renamedRef f .core x.core⟩ }

/-- Copies what can be reached from some things. The answer renames each of them to its copy. -/
def copyReached (start : List Node) : Action (Node → Node) := do
  let s ← get
  let found := s.reachedIn s.reach start.eraseDups
  if (componentsIn .cachedSource found).isEmpty then
    set (s.withCopies found)
    pure (s.newName found)
  else Work.foreign .type

/-- Copies a value with all that can be reached from it. -/
def duplicate (v : Value) : Action Value := do
  let f ← copyReached v.nodes
  settle (v.renamed f)

/-- Copies a definition with all its calls and arguments. -/
def copy (r : Ref DefinitionCell) : Action (Ref DefinitionCell) := do
  let f ← copyReached (refNodes .definition [r])
  pure (renamedRef f .definition r)

end Store

end Wiring
