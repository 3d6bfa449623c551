import Wiring.Proofs.Mirroring
import Wiring.Store.Cores

/-!
# `Wiring.Proofs.Cores`: what a new core holds

`makeCore_eq_ok` says what making a core comes to: a browser over the directories of the settings,
the source that the settings describe, the container that the source produces, and an injector that
is furnished with the parsers and with the parts of the core. A core then `Serves` the definitions
that its container shows.

`Serves.mirrored` is why the rest of the settings does not matter to requests. Two cores with the
same configuration and registry, whose containers show the same definitions, have mirrored
injectors. The names that they do not answer alike are those of what is a core's own: itself, its
injector and its
browser. -/

set_option autoImplicit false

namespace Wiring

open Wiring.Files Work Store

/-! ### Settings -/

/-- The browser over the directories of settings. -/
def Settings.browser (x : Settings) : Except Fault Browser :=
  (if x.application.truthy then (directory x.application).map some else .ok none) >>=
    fun application => (if x.modules.truthy then directories x.modules else .ok []) >>=
      fun modules => .ok (Browser.of application modules)

/-- Settings with their values as they are in a store. -/
def Store.settingsNow (s : Store) (r : Ref Settings) : Settings :=
  let x := s.settings.get r
  ⟨s.current x.application, s.current x.modules, s.current x.environment, s.current x.caching,
    s.current x.cacheDirectory⟩

theorem Store.run_heldSettings (r : Ref Settings) (s : Store) :
    (heldSettings r).run s = (.ok (s.settingsNow r), s) := rfl

/-- A browser is made of what the settings say, whatever the store. -/
theorem Store.makeBrowser_eq (x : Settings) :
    makeBrowser x.application x.modules = lift x.browser >>= make := by
  unfold makeBrowser Settings.browser
  generalize Settings.directory x.application = directory
  generalize Settings.directories x.modules = directories
  cases x.application.truthy <;> cases x.modules.truthy <;> cases directory <;>
    cases directories <;> rfl

/-- A new browser remembers nothing. -/
theorem Settings.remembered_browser {x : Settings} {b : Browser} (h : x.browser = .ok b) :
    b.remembered = none := by
  unfold Settings.browser at h
  obtain ⟨application, -, h⟩ := Except.bind_eq_ok.mp h
  obtain ⟨modules, -, h⟩ := Except.bind_eq_ok.mp h
  cases h
  rw [Browser.of_eq]

/-! ### The parts of a core -/

namespace Store

variable {s t : Store} {k l : Ref Core} {g : Ref Config} {f : Ref Registry}
  {r : Ref ContainerCell} {c : Container Definition}

/-- The interface that the components of a kind have by a registry. -/
def nameOf (s : Store) (f : Ref Registry) (kind : ComponentKind) : String :=
  (s.registries.get f).interfaceName s.program (.component kind)

/-- The interfaces for which the injector of a core holds what is the core's own: the core, the
injector and its browser. -/
def ownNames (s : Store) (f : Ref Registry) : List String :=
  [ComponentKind.core, .injector, .browser].map (s.nameOf f)

/-- The components for which the injector of a core answers. -/
def partsOfCore (k : Ref Core) (injector : Ref Injector) (g : Ref Config) (f : Ref Registry)
    (b : Ref Browser) : List Component :=
  [⟨.core, k.index⟩, ⟨.injector, injector.index⟩, ⟨.config, g.index⟩, ⟨.factory, f.index⟩,
    ⟨.browser, b.index⟩]

/-- The injector of a new core. -/
def equipped (name : ComponentKind → String) (parts : List Component) (g : Ref Config)
    (f : Ref Registry) (c : Ref ContainerCell) : Injector where
  container := c
  registry := f
  config := some g
  parsers := (coreParsers g).foldl (fun m p => m.insert p.1 p.2) Parser.standard
  instances := parts.foldl (fun m part => m.insert ⟨name part.kind, none⟩ part.value) .empty

/-- Makes the injector of a core and the core. -/
def furnish (x : Ref Settings) (g : Ref Config) (f : Ref Registry) (b : Ref Browser)
    (source : Ref Source) (c : Ref ContainerCell) : Action (Ref Core) := do
  let injector ← makeInjector (some c) (some f) (some g)
  (coreParsers g).forM fun p => setParser injector (.text p.1) (some p.2)
  let core ← make ⟨x, g, f, b, source, injector, false⟩
  (partsOfCore core injector g f b).forM fun part => setInstance injector part.value .null .null
  pure core

/-- Setting parsers changes the parsers of the injector. -/
theorem run_setParsers (cells : Cells Injector) (i : Injector)
    (parsers : List (String × Parser (Ref Config))) (hnames : ∀ p ∈ parsers, p.1 ≠ "")
    (s : Store) :
    (parsers.forM fun p => setParser cells.next (.text p.1) (some p.2)).run
        { s with injectors := cells.add i }
      = (.ok (), { s with injectors := cells.add { i with
          parsers := parsers.foldl (fun m p => m.insert p.1 p.2) i.parsers } }) := by
  induction parsers generalizing i with
  | nil => rfl
  | cons p rest ih =>
    have hset : (setParser cells.next (.text p.1) (some p.2)).run
          { s with injectors := cells.add i }
        = (.ok (), { s with injectors := cells.add { i with
            parsers := i.parsers.insert p.1 p.2 } }) := by
      unfold setParser
      rw [Value.name?_text (hnames p List.mem_cons_self)]
      dsimp only
      rw [run_change]
      show (_, { s with injectors := (cells.add i).modify cells.next _ }) = _
      rw [Cells.modify_add_next]
    exact (run_bind_ok hset).trans (ih _ fun q hq => hnames q (List.mem_cons_of_mem _ hq))

/-- Setting components for their own classes changes the instances of the injector. -/
theorem run_setInstances (cells : Cells Injector) (i : Injector) (parts : List Component)
    (s : Store) :
    (parts.forM fun part => setInstance cells.next part.value .null .null).run
        { s with injectors := cells.add i }
      = (.ok (), { s with injectors := cells.add { i with
          instances := parts.foldl (fun m part =>
            m.insert ⟨s.nameOf i.registry part.kind, none⟩ part.value) i.instances } }) := by
  induction parts generalizing i with
  | nil => rfl
  | cons part rest ih =>
    have hset : (setInstance cells.next part.value .null .null).run
          { s with injectors := cells.add i }
        = (.ok (), { s with injectors := cells.add { i with
            instances := i.instances.insert ⟨s.nameOf i.registry part.kind, none⟩
              part.value } }) := by
      have hname : (interfaceFor cells.next part.value .null).run
            { s with injectors := cells.add i }
          = (.ok (s.nameOf i.registry part.kind), { s with injectors := cells.add i }) := by
        show (Except.ok (s.nameOf ((cells.add i).get cells.next).registry part.kind), _) = _
        rw [Cells.get_add_next]
      unfold setInstance
      rw [run_bind_ok hname]
      show (_, { s with injectors := (cells.add i).modify cells.next _ }) = _
      rw [Cells.modify_add_next]
    exact (run_bind_ok hset).trans (ih _)

/-- A core and its injector are made, and nothing else is changed. -/
theorem run_furnish (x : Ref Settings) (g : Ref Config) (f : Ref Registry) (b : Ref Browser)
    (source : Ref Source) (c : Ref ContainerCell) (s : Store) :
    (furnish x g f b source c).run s
      = (.ok s.cores.next, { s with
          injectors := s.injectors.add (equipped (s.nameOf f)
            (partsOfCore s.cores.next s.injectors.next g f b) g f c)
          cores := s.cores.add ⟨x, g, f, b, source, s.injectors.next, false⟩ }) := by
  have hnames : ∀ p ∈ coreParsers g, p.1 ≠ "" := by simp [coreParsers]
  have hmade : (makeInjector (some c) (some f) (some g)).run s
      = (.ok s.injectors.next, { s with
          injectors := s.injectors.add ⟨c, f, some g, Parser.standard, .empty⟩ }) := rfl
  unfold furnish
  rw [run_bind_ok hmade, run_bind_ok (run_setParsers _ _ _ hnames s), run_bind_ok (run_make _ _)]
  exact run_bind_ok (run_setInstances s.injectors _ _
    { s with cores := s.cores.add ⟨x, g, f, b, source, s.injectors.next, false⟩ })

/-- A core that is open, whose injector is as it was made. -/
structure Furnished (s : Store) (k : Ref Core) (g : Ref Config) (f : Ref Registry)
    (c : Ref ContainerCell) : Prop where
  held : s.cores.Holds k
  isOpen : (s.cores.get k).isClosed = false
  heldInjector : s.injectors.Holds (s.cores.get k).injector
  injector : ∃ b, s.injectors.get (s.cores.get k).injector
    = equipped (s.nameOf f) (partsOfCore k (s.cores.get k).injector g f b) g f c

/-- A core with a container that shows some definitions. -/
def Serves (s : Store) (k : Ref Core) (g : Ref Config) (f : Ref Registry)
    (c : Container Definition) : Prop :=
  ∃ r, s.Furnished k g f r ∧ Shows Grows s r c

theorem Furnished.grown (h : s.Furnished k g f r) (hf : s.registries.Holds f) (hg : s.Grows t) :
    t.Furnished k g f r := by
  have hcore := hg.cores.get h.held
  have hname : t.nameOf f = s.nameOf f := by
    funext kind
    unfold nameOf
    rw [hg.registries.get hf, hg.program]
  refine ⟨hg.cores.holds h.held, ?_, ?_, ?_⟩
  · rw [hcore]
    exact h.isOpen
  · rw [hcore]
    exact hg.injectors.holds h.heldInjector
  · rw [hcore, hg.injectors.get h.heldInjector, hname]
    exact h.injector

theorem Serves.grown (h : s.Serves k g f c) (hf : s.registries.Holds f) (hg : s.Grows t) :
    t.Serves k g f c :=
  let ⟨r, hr, hshows⟩ := h
  ⟨r, hr.grown hf hg, hshows.grown hg⟩

/-- What a core serves is what its container is. -/
theorem Serves.view (h : s.Serves k g f c) :
    s.container (s.injectors.get (s.cores.get k).injector).container = c := by
  obtain ⟨r, hr, hshows⟩ := h
  obtain ⟨b, hinjector⟩ := hr.injector
  rw [hinjector]
  exact hshows.view

/-- Apart from the names of what is the core's own, an injector holds the configuration and the
registry, whichever core it is in. -/
theorem instances_equipped {name : ComponentKind → String} {i : Ref Injector} {b : Ref Browser}
    {q : DefinitionKey}
    (hq : q.identifier = none → q.interface ∉ [ComponentKind.core, .injector, .browser].map name) :
    (equipped name (partsOfCore k i g f b) g f r).instances.get? q
      = if q = ⟨name .factory, none⟩ then some (Component.value ⟨.factory, f.index⟩)
        else if q = ⟨name .config, none⟩ then some (Component.value ⟨.config, g.index⟩)
        else none := by
  have hne : ∀ kind ∈ [ComponentKind.core, .injector, .browser],
      q ≠ ⟨name kind, none⟩ := by
    rintro kind hkind rfl
    exact hq rfl (List.mem_map_of_mem hkind)
  have hcore := hne .core (by decide)
  have hinjector := hne .injector (by decide)
  have hbrowser := hne .browser (by decide)
  unfold equipped partsOfCore
  simp only [List.foldl_cons, List.foldl_nil, OrderedMap.get?_insert, OrderedMap.get?_empty, hcore,
    hinjector, hbrowser, if_false]

/-- Cores with the same configuration and registry, whose containers show the same definitions, have
mirrored injectors. -/
theorem Serves.mirrored (h : s.Serves k g f c) (h' : s.Serves l g f c) :
    s.Mirrored (s.cores.get k).injector (s.cores.get l).injector (s.ownNames f) c := by
  obtain ⟨r, hr, hshows⟩ := h
  obtain ⟨r', hr', hshows'⟩ := h'
  obtain ⟨b, hinjector⟩ := hr.injector
  obtain ⟨b', hinjector'⟩ := hr'.injector
  refine ⟨hr.heldInjector, hr'.heldInjector, ?_, ?_, ?_, fun q hq => ?_⟩
  · rw [hinjector, hinjector']
    exact ⟨rfl, rfl, rfl⟩
  · rw [hinjector]
    exact hshows
  · rw [hinjector']
    exact hshows'
  · rw [hinjector, hinjector']
    exact (instances_equipped hq).trans (instances_equipped hq).symm

/-! ### Making a core -/

/-- A store in which the browser and the source of a core were made. -/
def withSource (s : Store) (b : Browser) (source : Source) : Store :=
  { s with
    browsers := s.browsers.add b
    sources := s.sources.add source }

theorem makeCore_eq (x : Ref Settings) (g : Ref Config) (f : Ref Registry) (vs : Variables) :
    makeCore (some x) (some g) (some f) none vs
      = heldSettings x >>= fun held => (lift held.browser >>= make) >>= fun browser =>
        (lift (sourceOf held browser) >>= make) >>= fun source =>
          containerFrom source >>= furnish x g f browser source := by
  unfold makeCore
  simp only [orNew, pure_bind, makeBrowser_eq]
  refine congrArg _ (funext fun held => congrArg _ (funext fun browser =>
    congrArg _ (funext fun source => congrArg _ (funext fun c => ?_))))
  unfold furnish partsOfCore
  rfl

theorem run_containerFrom (s : Store) (b : Browser) (source : Source) :
    (containerFrom s.sources.next).run (s.withSource b source)
      = (produce source).run (s.withSource b source) := by
  show (produce ((s.sources.add source).get s.sources.next)).run (s.withSource b source) = _
  rw [Cells.get_add_next]

/-- When its settings describe a browser and a source, a core is made of what the source
produces. -/
theorem run_makeCore_produce {x : Ref Settings} {vs : Variables} {b : Browser} {source : Source}
    (hb : (s.settingsNow x).browser = .ok b)
    (hsource : sourceOf (s.settingsNow x) s.browsers.next = .ok source) :
    (makeCore (some x) (some g) (some f) none vs).run s
      = (produce source >>= furnish x g f s.browsers.next s.sources.next).run
          (s.withSource b source) := by
  have hbrowser : (lift (s.settingsNow x).browser >>= make : Action (Ref Browser)).run s
      = (.ok s.browsers.next, { s with browsers := s.browsers.add b }) := by
    rw [hb]
    rfl
  have hmade : (lift (sourceOf (s.settingsNow x) s.browsers.next) >>= make :
      Action (Ref Source)).run { s with browsers := s.browsers.add b }
        = (.ok s.sources.next, s.withSource b source) := by
    rw [hsource]
    rfl
  rw [makeCore_eq, run_bind_ok (run_heldSettings x s), run_bind_ok hbrowser, run_bind_ok hmade,
    run_bind, run_containerFrom, ← run_bind]

/-- A core is made when its source produces a container. -/
theorem run_makeCore {x : Ref Settings} {vs : Variables} {b : Browser} {source : Source}
    {u : Store} (hb : (s.settingsNow x).browser = .ok b)
    (hsource : sourceOf (s.settingsNow x) s.browsers.next = .ok source)
    (hproduced : (produce source).run (s.withSource b source) = (.ok r, u)) :
    (makeCore (some x) (some g) (some f) none vs).run s
      = (furnish x g f s.browsers.next s.sources.next r).run u :=
  (run_makeCore_produce hb hsource).trans (run_bind_ok hproduced)

theorem makeCore_eq_ok {x : Ref Settings} {vs : Variables}
    (h : (makeCore (some x) (some g) (some f) none vs).run s = (.ok k, t)) :
    ∃ b source r u, (s.settingsNow x).browser = .ok b ∧
      sourceOf (s.settingsNow x) s.browsers.next = .ok source ∧
      (produce source).run (s.withSource b source) = (.ok r, u) ∧
      (furnish x g f s.browsers.next s.sources.next r).run u = (.ok k, t) := by
  rw [makeCore_eq, run_bind_ok (run_heldSettings x s)] at h
  obtain ⟨browser, s₁, hbrowser, h⟩ := bind_eq_ok h
  obtain ⟨b, s₂, hb, hbrowser⟩ := bind_eq_ok hbrowser
  obtain ⟨hread, rfl⟩ := Prod.mk.inj ((run_lift _ _).symm.trans hb)
  cases hbrowser
  obtain ⟨made, s₃, hmade, h⟩ := bind_eq_ok h
  obtain ⟨source, s₄, hsource, hmade⟩ := bind_eq_ok hmade
  obtain ⟨hdescribed, rfl⟩ := Prod.mk.inj ((run_lift _ _).symm.trans hsource)
  cases hmade
  obtain ⟨r, u, hproduced, h⟩ := bind_eq_ok h
  exact ⟨b, source, r, u, hread, hdescribed, (run_containerFrom s b source).symm.trans hproduced, h⟩

/-- A core that is furnished over a container serves what the container shows. -/
theorem serves_of_furnish {x : Ref Settings} {b : Ref Browser} {source : Ref Source}
    (hshows : Shows Grows s r c) (h : (furnish x g f b source r).run s = (.ok k, t)) :
    t.Serves k g f c ∧ t.files = s.files := by
  rw [run_furnish] at h
  obtain ⟨hk, rfl⟩ := Prod.mk.inj h
  obtain rfl := Except.ok.inj hk
  have hcore := Cells.get_add_next s.cores ⟨x, g, f, b, source, s.injectors.next, false⟩
  refine ⟨⟨r, ⟨Cells.holds_next _ _, ?_, ?_, b, ?_⟩, hshows.grown { Grows.refl s with
    injectors := Cells.extends_add _ _, cores := Cells.extends_add _ _ }⟩, rfl⟩
  · exact congrArg Core.isClosed hcore
  · show (s.injectors.add _).Holds (Core.injector _)
    rw [hcore]
    exact Cells.holds_next _ _
  · show (s.injectors.add _).get (Core.injector _) = _
    dsimp only
    rw [hcore]
    exact Cells.get_add_next _ _

/-- Whether a core is made does not depend on the settings that no source needs. -/
theorem grows_makeCore {x : Ref Settings} {vs : Variables}
    (h : (makeCore (some x) (some g) (some f) none vs).run s = (.ok k, t)) : s.Grows t := by
  have hkeeps : Keeps s.Grows (makeCore (some x) (some g) (some f) none vs) :=
    keeps_makeCore _ _ _ _ _
  have hkept := (hkeeps s (.refl s)).holds
  rw [h] at hkept
  exact hkept

/-! ### Requests to a core -/

theorem run_openInjector (h : (s.cores.get k).isClosed = false) :
    (openInjector k).run s = (.ok (s.cores.get k).injector, s) := by
  unfold openInjector
  rw [Work.run_bind_ok (run_read k s)]
  show (if (s.cores.get k).isClosed = true then _ else _ : Action _).run s = _
  rw [h]
  rfl

/-- A core that is open passes a request on to its injector. -/
theorem run_requestCore (h : (s.cores.get k).isClosed = false) (interface identifier : Value)
    (expected : Option ClassRef) (given : Given) :
    (requestCore k interface identifier expected given).run s
      = (request (s.cores.get k).injector (.plain interface identifier) given expected).run s :=
  Work.run_bind_ok (run_openInjector h)

theorem run_requestAllCore (h : (s.cores.get k).isClosed = false) (interface : Value) :
    (requestAllCore k interface).run s
      = (requestAll (s.cores.get k).injector interface).run s :=
  Work.run_bind_ok (run_openInjector h)

end Store

end Wiring
