import Wiring.Store.Configs
import Wiring.Store.Injectors
import Wiring.Store.Sources

/-!
# `Wiring.Store.Cores`: an application with all its parts

A core is made from its settings: a browser over the directories, a source of definition files with
a snapshot file in front of it when caching is on, and an injector over the container that the
source gives. Its parts answer requests for themselves. A closed core answers nothing more, and
closing it again changes nothing.

The switch of a core's snapshot file changes the settings only. It therefore shows its effect in the
next core with these settings.
-/

set_option autoImplicit false

namespace Wiring

open Wiring.Files

/-- A part of a core. -/
inductive CorePart where
  | injector | config | registry | browser | source | settings
  deriving DecidableEq

namespace Store

/-! ### Making a core -/

/-- The source that settings describe. -/
def sourceOf (settings : Settings) (b : Ref Browser) : Except Fault Source :=
  let files := Source.files b ⟨settings.environment?, Overlay.defaultFileName,
    Overlay.defaultDirectory⟩
  if settings.caching.truthy then settings.cacheFile.map (Source.cached files) else .ok files

/-- The parsers of a core's injector, which read the configuration of the core. -/
def coreParsers (config : Ref Config) : List (String × Parser (Ref Config)) :=
  [("dependency", .dependency (some config)), ("call", .call (some config)),
    ("config", .config (some config)), ("parameter", .config (some config))]

/-- Settings with their values as they are now. -/
def heldSettings (r : Ref Settings) : Action Settings := do
  let x ← read r
  pure ⟨← look x.application, ← look x.modules, ← look x.environment, ← look x.caching,
    ← look x.cacheDirectory⟩

/-- Makes a core. What is not given is made anew, and settings are read from the surroundings. -/
def makeCore (settings : Option (Ref Settings)) (config : Option (Ref Config))
    (registry : Option (Ref Registry)) (source : Option (Ref Source)) (surroundings : Variables) :
    Action (Ref Core) := do
  let settings ←
    orNew settings (Work.lift (Settings.of ⟨none, none, none, none, none⟩ surroundings))
  let config ← orNew config (pure Config.empty)
  let registry ← orNew registry (pure Registry.empty)
  let held ← heldSettings settings
  let browser ← makeBrowser held.application held.modules
  let source ← orNew source (Work.lift (sourceOf held browser))
  let container ← containerFrom source
  let injector ← makeInjector (some container) (some registry) (some config)
  (coreParsers config).forM fun p => setParser injector (.text p.1) (some p.2)
  let core ← make ⟨settings, config, registry, browser, source, injector, false⟩
  let parts : List Component := [⟨.core, core.index⟩, ⟨.injector, injector.index⟩,
    ⟨.config, config.index⟩, ⟨.factory, registry.index⟩, ⟨.browser, browser.index⟩]
  parts.forM fun part => setInstance injector part.value .null .null
  pure core

/-! ### Using a core -/

/-- The injector of a core that is open. -/
def openInjector (r : Ref Core) : Action (Ref Injector) := do
  let c ← read r
  if c.isClosed then throw .closed
  pure c.injector

/-- The container of a core that is open. -/
def coreContainer (r : Ref Core) : Action (Ref ContainerCell) := do
  pure (← read (← openInjector r)).container

/-- Reads the definitions of a core again. -/
def reload (r : Ref Core) : Action Unit := do
  let injector ← openInjector r
  let c ← read r
  change c.browser Browser.reset
  setContainer injector (← containerFrom c.source) false

/-- Closes a core. -/
def close (r : Ref Core) : Action Unit := change r fun c => { c with isClosed := true }

/-- A part of a core. Only the injector is not given away by a closed core. -/
def part (r : Ref Core) (p : CorePart) : Action Component := do
  let c ← read r
  match p with
  | .injector => do pure ⟨.injector, (← openInjector r).index⟩
  | .config => pure ⟨.config, c.config.index⟩
  | .registry => pure ⟨.factory, c.registry.index⟩
  | .browser => pure ⟨.browser, c.browser.index⟩
  | .source => do pure ((← get).sourceComponent c.source)
  | .settings => pure ⟨.settings, c.settings.index⟩

/-! ### The snapshot file of a core -/

/-- The snapshot file: that of the core's source, or else the one that the settings name. -/
def cachePath (r : Ref CacheControl) : Action Path := do
  let core ← read (← read r).core
  match (← read core.source).path? with
  | some p => pure p
  | none => do Work.lift (← heldSettings core.settings).cacheFile

/-- Whether the snapshot file is there. -/
def isCachePresent (r : Ref CacheControl) : Action Bool := do
  let p ← cachePath r
  onFiles fun t => t.exists? p

/-- What the settings say about caching. -/
def caching (r : Ref CacheControl) : Action Value := do
  let core ← read (← read r).core
  look (← read core.settings).caching

/-- Switches caching on or off in the settings. -/
def setCaching (r : Ref CacheControl) (on : Bool) : Action Unit := do
  let core ← read (← read r).core
  change core.settings fun x => { x with caching := .bool on }

/-- Removes the snapshot file. The answer tells whether there was one. -/
def clearControlled (r : Ref CacheControl) : Action Bool := do
  let core ← read (← read r).core
  match (← read core.source).path? with
  | some p => clearCache p
  | none => do
    if ← isCachePresent r then clearCache (← cachePath r) else pure false

end Store

end Wiring
