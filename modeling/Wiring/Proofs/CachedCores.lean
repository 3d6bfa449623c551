import Wiring.Proofs.Caching
import Wiring.Proofs.Cores
import Wiring.Proofs.Producing

/-!
# `Wiring.Proofs.CachedCores`: requests do not show where a container came from

Three cores are made from settings of one application, which differ in whether a snapshot file is
kept: one that reads the definition files, one that reads them and writes the snapshot, and one that
restores the snapshot. Each `Serves` the definitions of the overlay's catalogue, because what is
read from files is plain and a snapshot gives plain definitions back. So their injectors are
mirrored, and requests have the same outcome (`request_unaware`).

What is a core's own is not the same in two cores: the core itself, its injector and its browser. A
request that runs a method of a core can see the difference (`request_aware_box`).
-/

set_option autoImplicit false

namespace Wiring

open Wiring.Files Work Store

/-- Settings that say the same of an application, whatever they say about caching. -/
structure Settings.SameApplication (x x' : Settings) : Prop where
  browser : x'.browser = x.browser
  environment : x'.environment? = x.environment?

/-- The overlay that settings describe. -/
def Settings.overlay (x : Settings) : Overlay :=
  ⟨x.environment?, Overlay.defaultFileName, Overlay.defaultDirectory⟩

namespace Store

theorem sourceOf_eq (x : Settings) (b : Ref Browser) :
    sourceOf x b = if x.caching.truthy then x.cacheFile.map (Source.cached (.files b x.overlay))
      else .ok (.files b x.overlay) := rfl

theorem asked_withSource (s : Store) (b : Browser) (source : Source) :
    (s.withSource b source).Asked s.browsers.next s.files b := by
  refine ⟨rfl, ?_⟩
  show ((s.browsers.add b).get s.browsers.next).includes s.files false = _
  rw [Cells.get_add_next]

variable {s t : Store} {x : Ref Settings} {g : Ref Config} {f : Ref Registry} {vs : Variables}
  {k : Ref Core} {b : Browser} {c : Catalogue} {p : Path}

/-- A core without snapshot file serves the catalogue of its overlay. -/
theorem serves_of_makeCore (hoff : (s.settingsNow x).caching.truthy = false)
    (h : (makeCore (some x) (some g) (some f) none vs).run s = (.ok k, t)) :
    ∃ b c, (s.settingsNow x).browser = .ok b ∧
      (s.settingsNow x).overlay.catalogue b s.files = .ok c ∧ t.Serves k g f c.definitions ∧
      t.files = s.files := by
  obtain ⟨b, source, r, u, hb, hsource, hproduced, hfurnish⟩ := makeCore_eq_ok h
  rw [sourceOf_eq, hoff] at hsource
  cases hsource
  obtain ⟨result, u', hload, hfiles, halike⟩ :=
    (asked_withSource s b _).run_load (s.settingsNow x).overlay
  obtain ⟨rfl, rfl⟩ := Prod.mk.inj (hload.symm.trans hproduced)
  obtain ⟨c, hc, hshows⟩ : ∃ c, (s.settingsNow x).overlay.catalogue b s.files = .ok c ∧
      Shows Grown u' r c.definitions := by
    generalize (s.settingsNow x).overlay.catalogue b s.files = made at halike
    cases halike with
    | ok hshows => exact ⟨_, rfl, hshows⟩
  obtain ⟨-, -, hplain⟩ := Overlay.plain_of_catalogue hc
  obtain ⟨hserves, hsame⟩ := serves_of_furnish
    (hshows.of_isFlat fun e he => (hplain e he).flat) hfurnish
  exact ⟨b, c, hb, hc, hserves, hsame.trans hfiles⟩

/-- The source of a core with a snapshot file. -/
theorem sourceOf_cached {y : Settings} (hon : y.caching.truthy = true) (hp : y.cacheFile = .ok p)
    (r : Ref Browser) : sourceOf y r = .ok (.cached (.files r y.overlay) p) := by
  rw [sourceOf_eq, hon, hp]
  rfl

/-- Behind a snapshot file that holds nothing that decodes, an overlay is asked for its catalogue,
and an attempt to write a snapshot of it is made. -/
theorem Asked.run_produce_unheld {r : Ref Browser} {tree : Tree} (h : s.Asked r tree b)
    (hspeakable : p.Speakable) (hmissing : ¬ ∃ k, Cache.Holds tree p k) (o : Overlay) :
    ∃ result u, (produce (.cached (.files r o) p)).run s = (result, u) ∧
      Except.Alike (fun c q => Shows Grows u q c.definitions ∧
          u.files = (Cache.write tree p c.definitions).1) (o.catalogue b tree) result ∧
      ∀ e, result = .error e → u.files = tree := by
  obtain ⟨events, hmiss⟩ := run_cachedBy_miss (w := produce (.files r o)) hspeakable
    (h.files ▸ hmissing)
  have hlater : (s.reporting events).Asked r tree b := ⟨h.files, h.gives⟩
  obtain ⟨loaded, u, hload, hfiles, halike⟩ := hlater.run_load o
  cases hcatalogue : o.catalogue b tree with
  | error e =>
    rw [hcatalogue] at halike
    cases halike
    exact ⟨.error e, u, hmiss.trans (run_bind_error hload), .error e, fun _ _ => hfiles⟩
  | ok c =>
    rw [hcatalogue] at halike
    cases halike with
    | @ok _ q hshows =>
      obtain ⟨-, -, hplain⟩ := Overlay.plain_of_catalogue hcatalogue
      have hgrows : u.Grows (u.writing p q) := { Grows.refl u with }
      have hview : u.container q = c.definitions := hshows.view
      refine ⟨.ok q, _, hmiss.trans (run_written hload),
        .ok ⟨(hshows.of_isFlat fun e he => (hplain e he).flat).grown hgrows, ?_⟩, nofun⟩
      rw [← hfiles, ← hview]
      rfl

/-- A core whose snapshot file holds nothing that decodes serves the catalogue of its overlay too,
and tries to write a snapshot of it. It fails as that catalogue does. -/
theorem makeCore_unrestored (hb : (s.settingsNow x).browser = .ok b)
    (hon : (s.settingsNow x).caching.truthy = true) (hp : (s.settingsNow x).cacheFile = .ok p)
    (hspeakable : p.Speakable) (hmissing : ¬ ∃ k, Cache.Holds s.files p k) :
    ∃ result t, (makeCore (some x) (some g) (some f) none vs).run s = (result, t) ∧
      Except.Alike (fun c k => t.Serves k g f c.definitions ∧
          t.files = (Cache.write s.files p c.definitions).1)
        ((s.settingsNow x).overlay.catalogue b s.files) result ∧
      ∀ e, result = .error e → t.files = s.files := by
  have hmade : (makeCore (some x) (some g) (some f) none vs).run s = _ :=
    run_makeCore_produce hb (sourceOf_cached hon hp s.browsers.next)
  obtain ⟨result, u, hproduced, halike, hfailed⟩ := (asked_withSource s b (.cached (.files
    s.browsers.next (s.settingsNow x).overlay) p)).run_produce_unheld hspeakable hmissing
    (s.settingsNow x).overlay
  cases hcatalogue : (s.settingsNow x).overlay.catalogue b s.files with
  | error e =>
    rw [hcatalogue] at halike
    cases halike
    exact ⟨.error e, u, hmade.trans (run_bind_error hproduced), .error e, fun _ _ => hfailed e rfl⟩
  | ok c =>
    rw [hcatalogue] at halike
    cases halike with
    | @ok _ r hr =>
      have hfurnish := run_furnish x g f s.browsers.next s.sources.next r u
      obtain ⟨hserves, hsame⟩ := serves_of_furnish hr.1 hfurnish
      exact ⟨_, _, (hmade.trans (run_bind_ok hproduced)).trans hfurnish,
        .ok ⟨hserves, hsame.trans hr.2⟩, nofun⟩

/-- A core whose snapshot file cannot be said is not made. -/
theorem makeCore_unspeakable (hb : (s.settingsNow x).browser = .ok b)
    (hon : (s.settingsNow x).caching.truthy = true) (hp : (s.settingsNow x).cacheFile = .ok p)
    (hspeakable : ¬ p.Speakable) :
    ∃ e t, (makeCore (some x) (some g) (some f) none vs).run s = (.error e, t) ∧
      t.files = s.files := by
  have hmade : (makeCore (some x) (some g) (some f) none vs).run s = _ :=
    run_makeCore_produce hb (sourceOf_cached hon hp s.browsers.next)
  exact ⟨_, _, hmade.trans (run_bind_error (run_cachedBy_unspeakable hspeakable)), rfl⟩

/-- A core whose snapshot file is not there yet leaves a snapshot of the catalogue that it
serves. -/
theorem makeCore_missing (hb : (s.settingsNow x).browser = .ok b)
    (hc : (s.settingsNow x).overlay.catalogue b s.files = .ok c)
    (hon : (s.settingsNow x).caching.truthy = true) (hp : (s.settingsNow x).cacheFile = .ok p)
    (hmissing : ¬ ∃ k, Cache.Holds s.files p k) (hwritable : Cache.Writable s.files p) :
    ∃ k t, (makeCore (some x) (some g) (some f) none vs).run s = (.ok k, t) ∧
      t.Serves k g f c.definitions ∧
      ∃ c', Cache.Holds t.files p c' ∧ c'.definitions = c.definitions := by
  obtain ⟨result, t, hrun, halike, -⟩ : ∃ result t,
      (makeCore (some x) (some g) (some f) none vs).run s = (result, t) ∧ _ ∧ _ :=
    makeCore_unrestored hb hon hp (Cache.speakable_of_writable hwritable) hmissing
  rw [hc] at halike
  cases halike with
  | ok h =>
    obtain ⟨hserves, hfiles⟩ := h
    refine ⟨_, t, hrun, hserves, ?_⟩
    -- What was written is the snapshot of plain definitions, which gives them back.
    obtain ⟨-, hwellFormed, hplain⟩ := Overlay.plain_of_catalogue hc
    obtain ⟨text, c', htext, hc', -, hdefinitions⟩ :=
      Snapshot.loads_dumps_of_plain hwellFormed hplain
    obtain ⟨report, hread⟩ := Cache.read_of_write hwritable htext hc'
    rw [hfiles]
    exact ⟨c', Cache.holds_of_read hread, hdefinitions⟩

/-- A core whose snapshot file holds flat definitions serves these, and leaves the files alone. -/
theorem makeCore_restored (hb : (s.settingsNow x).browser = .ok b)
    (hon : (s.settingsNow x).caching.truthy = true) (hp : (s.settingsNow x).cacheFile = .ok p)
    (hholds : Cache.Holds s.files p c) (hflat : ∀ e ∈ c.definitions.entries, e.2.IsFlat) :
    ∃ k t, (makeCore (some x) (some g) (some f) none vs).run s = (.ok k, t) ∧
      t.Serves k g f c.definitions ∧ t.files = s.files := by
  obtain ⟨r, u, hrun, hfiles, hshows, hbare⟩ := run_cachedBy_hit (s := s.withSource b
    (.cached (.files s.browsers.next (s.settingsNow x).overlay) p)) hholds
  have hsame : u.container r = c.definitions := by
    rw [← hbare]
    exact (Container.bare_of_isFlat (hbare ▸ hflat)).symm
  rw [hsame] at hshows
  have hmade : (makeCore (some x) (some g) (some f) none vs).run s = _ :=
    run_makeCore hb (sourceOf_cached hon hp s.browsers.next) (hrun _)
  have hfurnish := run_furnish x g f s.browsers.next s.sources.next r u
  obtain ⟨hserves, hkept⟩ := serves_of_furnish (hshows.of_isFlat hflat) hfurnish
  exact ⟨_, _, hmade.trans hfurnish, hserves, hkept.trans hfiles⟩

/-! ### Requests -/

/-- Requests to one core have the same outcome when another one is asked, and leave the same store
behind up to the journal, as long as they keep away from what is a core's own. -/
structure AnswersAs (s : Store) (f : Ref Registry) (k l : Ref Core) : Prop where
  request : ∀ (interface identifier : Value) (expected : Option ClassRef) (given : Given),
    KeepsApart (s.ownNames f)
      ((requestCore k interface identifier expected given).run s).2.journal →
    ∃ j, (requestCore l interface identifier expected given).run s
      = (((requestCore k interface identifier expected given).run s).1,
        ((requestCore k interface identifier expected given).run s).2.withJournal j)
  requestAll : ∀ interface : Value,
    KeepsApart (s.ownNames f) ((requestAllCore k interface).run s).2.journal →
    ∃ j, (requestAllCore l interface).run s
      = (((requestAllCore k interface).run s).1,
        ((requestAllCore k interface).run s).2.withJournal j)

/-- Cores that serve the same definitions, with the same configuration and registry, answer
alike. -/
theorem answersAs_of_serves {l : Ref Core} {d : Container Definition} (h : s.Serves k g f d)
    (h' : s.Serves l g f d) : s.AnswersAs f k l := by
  have hmirrored := h.mirrored h'
  obtain ⟨_, hk, -⟩ := h
  obtain ⟨_, hl, -⟩ := h'
  refine ⟨fun interface identifier expected given hapart => ?_, fun interface hapart => ?_⟩
  · rw [run_requestCore hk.isOpen] at hapart ⊢
    rw [run_requestCore hl.isOpen]
    exact request_mirrored hmirrored _ given expected hapart
  · rw [run_requestAllCore hk.isOpen] at hapart ⊢
    rw [run_requestAllCore hl.isOpen]
    exact requestAll_mirrored hmirrored interface hapart

end Store

/-- Requests do not show whether a snapshot file is kept. A core without one is made first. A core
of the same application with a snapshot file that is not there yet can then be made as well, and
after it another one, which finds the snapshot; and in every store that grows out of this, each of
the two answers requests as the first core does. In between the files stay as they are. -/
theorem request_unaware {s₀ s₁ t₁ : Store} {x₀ x₁ : Ref Settings} {g : Ref Config}
    {f : Ref Registry} {vs : Variables} {k₀ : Ref Core} {p : Path} (hf : s₀.registries.Holds f)
    (hoff : (s₀.settingsNow x₀).caching.truthy = false)
    (hmade : (makeCore (some x₀) (some g) (some f) none vs).run s₀ = (.ok k₀, s₁))
    (hgrown : s₁.Grows t₁) (hfiles : t₁.files = s₁.files)
    (hsame : (s₀.settingsNow x₀).SameApplication (t₁.settingsNow x₁))
    (hon : (t₁.settingsNow x₁).caching.truthy = true)
    (hp : (t₁.settingsNow x₁).cacheFile = .ok p)
    (hmissing : ¬ ∃ c, Cache.Holds t₁.files p c) (hwritable : Cache.Writable t₁.files p) :
    ∃ k₁ s₂, (makeCore (some x₁) (some g) (some f) none vs).run t₁ = (.ok k₁, s₂) ∧
      (∃ c, Cache.Holds s₂.files p c) ∧
      ∀ (t₂ : Store) (x₂ : Ref Settings), s₂.Grows t₂ → t₂.files = s₂.files →
        (s₀.settingsNow x₀).SameApplication (t₂.settingsNow x₂) →
        (t₂.settingsNow x₂).caching.truthy = true → (t₂.settingsNow x₂).cacheFile = .ok p →
        ∃ k₂ s₃, (makeCore (some x₂) (some g) (some f) none vs).run t₂ = (.ok k₂, s₃) ∧
          ∀ s, s₃.Grows s → s.AnswersAs f k₀ k₁ ∧ s.AnswersAs f k₀ k₂ := by
  obtain ⟨b, c, hb, hc, hserves₀, hsource⟩ := serves_of_makeCore hoff hmade
  have hb₁ : (t₁.settingsNow x₁).browser = .ok b := hsame.browser.trans hb
  have hc₁ : (t₁.settingsNow x₁).overlay.catalogue b t₁.files = .ok c := by
    rw [hfiles, hsource, Settings.overlay, hsame.environment]
    exact hc
  obtain ⟨k₁, s₂, hmade₁, hserves₁, c', hholds, hdefinitions⟩ :
      ∃ k s, (makeCore (some x₁) (some g) (some f) none vs).run t₁ = (.ok k, s) ∧
        s.Serves k g f c.definitions ∧
        ∃ c', Cache.Holds s.files p c' ∧ c'.definitions = c.definitions :=
    makeCore_missing hb₁ hc₁ hon hp hmissing hwritable
  refine ⟨k₁, s₂, hmade₁, ⟨c', hholds⟩, fun t₂ x₂ hgrown₂ hfiles₂ hsame₂ hon₂ hp₂ => ?_⟩
  obtain ⟨-, -, hplain⟩ := Overlay.plain_of_catalogue hc
  have hflat : ∀ e ∈ c'.definitions.entries, e.2.IsFlat := by
    rw [hdefinitions]
    exact fun e he => (hplain e he).flat
  obtain ⟨k₂, s₃, hmade₂, hserves₂, -⟩ :
      ∃ k s, (makeCore (some x₂) (some g) (some f) none vs).run t₂ = (.ok k, s) ∧
        s.Serves k g f c'.definitions ∧ s.files = t₂.files :=
    makeCore_restored (hsame₂.browser.trans hb) hon₂ hp₂ (hfiles₂ ▸ hholds) hflat
  refine ⟨k₂, s₃, hmade₂, fun s hs => ?_⟩
  -- All three serve the same definitions in the last store.
  rw [hdefinitions] at hserves₂
  have hs₁ := grows_makeCore hmade
  have hs₂ := grows_makeCore hmade₁
  have hs₃ := grows_makeCore hmade₂
  have hf₁ := hs₁.registries.holds hf
  have hf₂ := (hgrown.trans hs₂).registries.holds hf₁
  have hf₃ := (hgrown₂.trans hs₃).registries.holds hf₂
  have hlast₂ : s₂.Grows s := hgrown₂.trans (hs₃.trans hs)
  have hlast₁ : s₁.Grows s := hgrown.trans (hs₂.trans hlast₂)
  have hserves := hserves₀.grown hf₁ hlast₁
  exact ⟨answersAs_of_serves hserves (hserves₁.grown hf₂ hlast₂),
    answersAs_of_serves hserves (hserves₂.grown hf₃ hs)⟩

/-! ### A request that is aware of the snapshot file -/

open Wiring.Xml

/-- A file with two definitions. An argument of the second one is what a method of the core
gives. -/
def boxFile : ByteArray := wideBytes <|
  "<d><dependency class='A'/><dependency class='B'><call method='__construct'>" ++
  "<argument name='s' type='call'><property name='interface' value='K'/>" ++
  "<property name='method' value='create_dependency_io'/></argument></call></dependency></d>"

/-- The root of the file. -/
def boxElement : Element :=
  .mk "d" [] [.mk "dependency" [("class", "A")] [],
    .mk "dependency" [("class", "B")] [.mk "call" [("method", "__construct")]
      [.mk "argument" [("name", "s"), ("type", "call")]
        [.mk "property" [("name", "interface"), ("value", "K")] [],
          .mk "property" [("name", "method"), ("value", "create_dependency_io")] []]]]]

set_option maxRecDepth 20000 in
theorem readBytes_boxFile : readBytes boxFile.data.toList = .ok boxElement := by
  cbv

def boxTree : Tree :=
  ⟨OrderedMap.empty
    |>.insert ["app"] .directory
    |>.insert ["app", "config"] .directory
    |>.insert ["app", "config", "dependencies.xml"] (.file boxFile)⟩

def boxSettings (caching : Bool) : Settings :=
  ⟨.path ⟨"", ["app"]⟩, .list none [], .null, .bool caching, .path ⟨"", ["cache"]⟩⟩

def boxProgram : Program :=
  ⟨[⟨"app", "A", none, none, [], []⟩,
    ⟨"app", "B", none, some ⟨[.required "s"], none, .literal (.value .null)⟩, [], []⟩], []⟩

def boxRegistry : Registry :=
  ((Registry.empty.register boxProgram (.declared 0) (some "A")).register boxProgram (.declared 1)
    (some "B")).register boxProgram (.component .core) (some "K")

def boxStore : Store :=
  { Store.empty boxProgram with
    files := boxTree
    configs := ⟨[Config.empty]⟩
    registries := ⟨[boxRegistry]⟩
    settings := ⟨[boxSettings false, boxSettings true]⟩ }

def boxPath : Path := ⟨"", ["app", "config", "dependencies.xml"]⟩

def boxCatalogue : Catalogue :=
  (((Declaration.ofElement "app/config/dependencies.xml" boxElement).bind
    (Declaration.applyAll .empty)).toOption).getD .empty

theorem load_boxTree : (Overlay.load boxTree .empty [boxPath]).2 = .ok boxCatalogue := by
  have hfile : Declaration.ofFile boxTree boxPath
      = Declaration.ofElement "app/config/dependencies.xml" boxElement := by
    have hread : boxTree.read boxPath = .ok boxFile := rfl
    rw [Declaration.ofFile, hread, Declaration.ofContent, readBytes_boxFile]
    rfl
  rw [Overlay.load, hfile]
  rfl

def boxBrowser : Browser := Browser.of (some ⟨"", ["app"]⟩) []

def boxOverlay : Overlay := (boxSettings false).overlay

/-- A run that gives an answer. -/
theorem run_eq_of_toOption {α : Type} {x : Except Fault α × Store} {a : α}
    (h : x.1.toOption = some a) : x = (.ok a, x.2) := by
  obtain ⟨result, s⟩ := x
  cases result with
  | error e => cases h
  | ok b =>
    cases h
    rfl

/-- The store that loading the files of the application leads to. -/
def boxLoaded (s : Store) (r : Ref Browser) : Except Fault (Ref ContainerCell) × Store :=
  let s₁ := ((overlayFiles r boxOverlay).run s).2
  (install boxCatalogue).run { s₁ with
    log := s₁.log ++ (Overlay.load s₁.files .empty [boxPath]).1.map .readingDefinitions }

theorem run_load_box {s : Store} {r : Ref Browser} {c : Ref ContainerCell}
    (hasked : s.Asked r boxTree boxBrowser) (hc : (boxLoaded s r).1.toOption = some c) :
    (load r boxOverlay).run s = (.ok c, (boxLoaded s r).2) := by
  have hfiles : boxOverlay.files boxBrowser boxTree = .ok [boxPath] := by
    have hfound : (boxOverlay.files boxBrowser boxTree).toOption = some [boxPath] := by
      decide +kernel
    cases hall : boxOverlay.files boxBrowser boxTree with
    | error e =>
      rw [hall] at hfound
      cases hfound
    | ok paths =>
      rw [hall] at hfound
      exact congrArg Except.ok (Option.some.inj hfound)
  obtain ⟨s₁, hrun, hasked₁⟩ := hasked.run_overlayFiles boxOverlay
  rw [hfiles] at hrun
  have hs₁ : ((overlayFiles r boxOverlay).run s).2 = s₁ := congrArg Prod.snd hrun
  have hload : (Overlay.load s₁.files .empty [boxPath]).2 = .ok boxCatalogue := by
    rw [hasked₁.files]
    exact load_boxTree
  rw [run_load_install hrun hload]
  unfold boxLoaded at hc ⊢
  dsimp only at hc ⊢
  rw [hs₁] at hc ⊢
  exact run_eq_of_toOption hc

/-- The path of the snapshot of the application. -/
def boxCachePath : Path := ⟨"", ["cache", "dependencies-default.json"]⟩

theorem read_boxCachePath : boxTree.read boxCachePath = .error .missing := rfl

theorem not_holds_box : ¬ ∃ c, Cache.Holds boxTree boxCachePath c := by
  rintro ⟨c, content, text, hread, -⟩
  cases read_boxCachePath.symm.trans hread

/-- A core of the application has its source in this store. -/
def boxStart (caching : Bool) : Store :=
  boxStore.withSource boxBrowser <|
    if caching then .cached (.files ⟨0⟩ boxOverlay) boxCachePath else .files ⟨0⟩ boxOverlay

/-- The store after a core without a snapshot file was made. -/
def boxPlain : Store :=
  ((furnish ⟨0⟩ ⟨0⟩ ⟨0⟩ ⟨0⟩ ⟨0⟩ ⟨0⟩).run (boxLoaded (boxStart false) ⟨0⟩).2).2

/-- The store after a core with a snapshot file was made. -/
def boxCached : Store :=
  ((furnish ⟨1⟩ ⟨0⟩ ⟨0⟩ ⟨0⟩ ⟨0⟩ ⟨0⟩).run
    ((boxLoaded (boxStart true) ⟨0⟩).2.writing boxCachePath ⟨0⟩)).2

theorem settingsNow_box {t : Store} (h : boxStore.Grows t) (caching : Bool) :
    t.settingsNow ⟨caching.toNat⟩ = boxSettings caching := by
  have hget : t.settings.get ⟨caching.toNat⟩ = boxSettings caching := by
    have hheld : boxStore.settings.Holds ⟨caching.toNat⟩ := by
      show caching.toNat < 2
      cases caching <;> decide
    rw [h.settings.get hheld]
    cases caching <;> rfl
  unfold settingsNow
  rw [hget]
  rfl

theorem browser_box (caching : Bool) : (boxSettings caching).browser = .ok boxBrowser := rfl

theorem sourceOf_box (r : Ref Browser) :
    sourceOf (boxSettings false) r = .ok (.files r boxOverlay) := rfl

theorem sourceOf_box_cached (r : Ref Browser) :
    sourceOf (boxSettings true) r = .ok (.cached (.files r boxOverlay) boxCachePath) := rfl

theorem makeCore_boxPlain :
    (makeCore (some ⟨0⟩) (some ⟨0⟩) (some ⟨0⟩) none []).run boxStore = (.ok ⟨0⟩, boxPlain) := by
  have hproduced : (produce (.files ⟨0⟩ boxOverlay)).run (boxStart false)
      = (.ok ⟨0⟩, (boxLoaded (boxStart false) ⟨0⟩).2) := by
    rw [produce]
    exact run_load_box (asked_withSource _ _ _) (by decide +kernel)
  have hsettings : boxStore.settingsNow ⟨0⟩ = boxSettings false := settingsNow_box (.refl _) false
  have hnext : (boxLoaded (boxStart false) ⟨0⟩).2.cores.next = ⟨0⟩ := by decide +kernel
  rw [run_makeCore (hsettings ▸ browser_box false) (hsettings ▸ sourceOf_box _) hproduced]
  unfold boxPlain
  rw [← hnext, run_furnish]
  rfl

theorem makeCore_boxCached :
    (makeCore (some ⟨1⟩) (some ⟨0⟩) (some ⟨0⟩) none []).run boxStore = (.ok ⟨0⟩, boxCached) := by
  have hread : Cache.read (boxStart true).files boxCachePath = .ok (none, []) := by
    rw [show (boxStart true).files = boxTree from rfl, Cache.read, read_boxCachePath]
  have hproduced : (produce (.cached (.files ⟨0⟩ boxOverlay) boxCachePath)).run (boxStart true)
      = (.ok ⟨0⟩, (boxLoaded (boxStart true) ⟨0⟩).2.writing boxCachePath ⟨0⟩) := by
    rw [produce_cached, run_cachedBy_unread hread]
    refine run_written ?_
    rw [produce, List.append_nil, reporting_nil]
    exact run_load_box (asked_withSource _ _ _) (by decide +kernel)
  have hsettings : boxStore.settingsNow ⟨1⟩ = boxSettings true := settingsNow_box (.refl _) true
  have hnext : ((boxLoaded (boxStart true) ⟨0⟩).2.writing boxCachePath ⟨0⟩).cores.next = ⟨0⟩ := by
    show (boxLoaded (boxStart true) ⟨0⟩).2.cores.next = ⟨0⟩
    decide +kernel
  rw [run_makeCore (hsettings ▸ browser_box true) (hsettings ▸ sourceOf_box_cached _) hproduced]
  unfold boxCached
  rw [← hnext, run_furnish]
  rfl

/-- The kind of component that the object of the second definition was made with. -/
def boxContent (s : Store) : Option ComponentKind :=
  let answer := (requestCore ⟨0⟩ (.text "B") .null none none).run s
  match answer.1 with
  | .ok (.object id) => do
    let o ← answer.2.objects[id]?
    let c ← answer.2.component (← o.init.lookup "s")
    pure c.kind
  | _ => none

/-- A request that runs a method of the core can be aware of the snapshot file: the core that keeps
none answers with an object that was made with a source of files, and the core that keeps one with
an object that was made with a source behind a snapshot. -/
theorem request_aware_box :
    (makeCore (some ⟨0⟩) (some ⟨0⟩) (some ⟨0⟩) none []).run boxStore = (.ok ⟨0⟩, boxPlain) ∧
    (makeCore (some ⟨1⟩) (some ⟨0⟩) (some ⟨0⟩) none []).run boxStore = (.ok ⟨0⟩, boxCached) ∧
    boxStore.settingsNow ⟨0⟩ = boxSettings false ∧ boxStore.settingsNow ⟨1⟩ = boxSettings true ∧
    (¬ ∃ c, Cache.Holds boxStore.files boxCachePath c) ∧
    boxContent boxPlain = some .xmlSource ∧ boxContent boxCached = some .cachedSource := by
  exact ⟨makeCore_boxPlain, makeCore_boxCached, settingsNow_box (.refl _) false,
    settingsNow_box (.refl _) true, not_holds_box, by decide +kernel, by decide +kernel⟩

theorem writable_box : Cache.Writable boxTree boxCachePath := fun _ => rfl

/-- After the core without a snapshot file, two cores with one can be made, and both answer as the
first one does. A request for the first definition keeps away from what is a core's own. -/
theorem request_unaware_box :
    (∃ k₁ s₂ k₂ s₃,
      (makeCore (some ⟨1⟩) (some ⟨0⟩) (some ⟨0⟩) none []).run boxPlain = (.ok k₁, s₂) ∧
      (makeCore (some ⟨1⟩) (some ⟨0⟩) (some ⟨0⟩) none []).run s₂ = (.ok k₂, s₃) ∧
      s₃.AnswersAs ⟨0⟩ ⟨0⟩ k₁ ∧ s₃.AnswersAs ⟨0⟩ ⟨0⟩ k₂) ∧
    KeepsApart (boxPlain.ownNames ⟨0⟩)
      ((requestCore ⟨0⟩ (.text "A") .null none none).run boxPlain).2.journal := by
  refine ⟨?_, by decide +kernel⟩
  have hgrown := grows_makeCore makeCore_boxPlain
  have hoff : boxStore.settingsNow ⟨0⟩ = boxSettings false := settingsNow_box (.refl _) false
  have hon : ∀ t, boxPlain.Grows t → t.settingsNow ⟨1⟩ = boxSettings true :=
    fun t ht => settingsNow_box (hgrown.trans ht) true
  have hsame : ∀ t, boxPlain.Grows t →
      (boxStore.settingsNow ⟨0⟩).SameApplication (t.settingsNow ⟨1⟩) := by
    intro t ht
    rw [hoff, hon t ht]
    exact ⟨rfl, rfl⟩
  have hfiles : boxPlain.files = boxTree := by
    obtain ⟨_, _, _, _, _, hfiles⟩ := serves_of_makeCore (hoff ▸ rfl) makeCore_boxPlain
    exact hfiles
  have htrue : ∀ t, boxPlain.Grows t → (t.settingsNow ⟨1⟩).caching.truthy = true ∧
      (t.settingsNow ⟨1⟩).cacheFile = .ok boxCachePath := by
    intro t ht
    rw [hon t ht]
    exact ⟨rfl, rfl⟩
  have hstart := htrue boxPlain (.refl _)
  have hheld : boxStore.registries.Holds ⟨0⟩ := Nat.zero_lt_one
  obtain ⟨k₁, s₂, hmade₁, -, hrest⟩ := request_unaware hheld (hoff ▸ rfl)
    makeCore_boxPlain (.refl _) rfl (hsame _ (.refl _)) hstart.1 hstart.2
    (hfiles ▸ not_holds_box) (hfiles ▸ writable_box)
  have hs₂ := grows_makeCore hmade₁
  have hlater := htrue s₂ hs₂
  obtain ⟨k₂, s₃, hmade₂, halike⟩ := hrest s₂ ⟨1⟩ (.refl _) rfl (hsame _ hs₂) hlater.1 hlater.2
  obtain ⟨h₁, h₂⟩ := halike s₃ (.refl _)
  exact ⟨k₁, s₂, k₂, s₃, hmade₁, hmade₂, h₁, h₂⟩

end Wiring
