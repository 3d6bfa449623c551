import Wiring.Proofs.Environments
import Wiring.Proofs.Reloading

/-!
# `Wiring.Proofs.Lifecycle`: a core from its creation on

A core is asked for objects, reloaded and closed, its snapshot file is removed, caching is switched,
and the files change in between. `Store.Running` is what holds of the core until it is closed: its
injector has the container that was built last, and its browser and its source are those that its
settings described when it was made. Every call keeps this (`Store.Running.step`), as long as no
member of a component is run, and `Store.Closed` is kept by every call whatsoever.

So the container that a request finds is known from what the reloads before it gave
(`CoreCall.lastBuilt`), and a reload finds the browser and the source of a new core.
-/

set_option autoImplicit false

namespace Wiring

open Wiring.Files Work Store

/-! ### Calls -/

/-- What is done with a core, and with the files around it. -/
inductive CoreCall where
  | get (interface identifier : Value) (expected : Option ClassRef) (given : Given)
  | getAll (interface : Value)
  | reload
  | close
  | injector
  | container
  /-- The snapshot file is removed. -/
  | clear
  /-- Caching is switched on or off. -/
  | switch (on : Bool)
  /-- Someone else changes the files. -/
  | outside (change : Tree → Tree)

/-- What a call gives. -/
inductive CoreAnswer where
  | object (x : Except Fault Value)
  | objects (x : Except Fault (List (Option String × Value)))
  | injector (x : Except Fault (Ref Injector))
  | container (x : Except Fault (Ref ContainerCell))
  | flag (x : Except Fault Bool)
  | done (x : Except Fault Unit)

/-- A call with the stores around it. -/
structure CoreMoment where
  before : Store
  call : CoreCall
  answer : CoreAnswer
  after : Store

namespace CoreAnswer

/-- The fault of an answer. -/
def fault? : CoreAnswer → Option Fault
  | .object (.error e) | .objects (.error e) | .injector (.error e) | .container (.error e)
  | .flag (.error e) | .done (.error e) => some e
  | _ => none

/-- The outcome of an action as an answer, with the store that it leaves behind. -/
def of {α : Type} (f : Except Fault α → CoreAnswer) (w : Action α) (s : Store) :
    CoreAnswer × Store :=
  (f (w.run s).1, (w.run s).2)

end CoreAnswer

namespace CoreCall

/-- Runs a call. -/
def run (k : Ref Core) : CoreCall → Store → CoreAnswer × Store
  | .get interface identifier expected given =>
    CoreAnswer.of .object (requestCore k interface identifier expected given)
  | .getAll interface => CoreAnswer.of .objects (requestAllCore k interface)
  | .reload => CoreAnswer.of .done (Store.reload k)
  | .close => CoreAnswer.of .done (Store.close k)
  | .injector => CoreAnswer.of .injector (openInjector k)
  | .container => CoreAnswer.of .container (coreContainer k)
  | .clear => CoreAnswer.of .flag (make ⟨k⟩ >>= clearControlled)
  | .switch on => CoreAnswer.of .done (make ⟨k⟩ >>= fun c => setCaching c on)
  | .outside change => CoreAnswer.of .done (modify fun s => { s with files := change s.files })

/-- Runs calls in turn. The journal tells of one call at a time. -/
def history (k : Ref Core) : Store → List CoreCall → List CoreMoment
  | _, [] => []
  | s, c :: rest =>
    ⟨s.withJournal [], c, (c.run k (s.withJournal [])).1, (c.run k (s.withJournal [])).2⟩ ::
      history k (c.run k (s.withJournal [])).2 rest

/-- The container that a call builds: a reload builds what the source of the core gives. -/
def built? (k : Ref Core) (c : CoreCall) (s : Store) : Option (Ref ContainerCell) :=
  match c with
  | .reload => ((rebuild k).run s).1.toOption
  | _ => none

/-- The container that was built last, where some container was there at first. -/
def lastBuilt (k : Ref Core) (r : Ref ContainerCell) (earlier : List CoreMoment) :
    Ref ContainerCell :=
  earlier.foldl (fun r m => (m.call.built? k m.before).getD r) r

/-- Whether a closed core refuses the call. -/
def needsOpen : CoreCall → Bool
  | .get _ _ _ _ | .getAll _ | .reload | .injector | .container => true
  | _ => false

end CoreCall

/-! ### Open cores -/

namespace Store

variable {s t : Store} {k : Ref Core} {y : Settings} {b : Browser} {r : Ref ContainerCell}
  {c : CoreCall}

/-- The container of a core's injector. -/
def containerOf (s : Store) (k : Ref Core) : Ref ContainerCell :=
  (s.injectors.get (s.cores.get k).injector).container

/-- A core that was made from settings and is open, with the browser over their directories and with
a container. -/
structure Running (s : Store) (k : Ref Core) (y : Settings) (b : Browser)
    (r : Ref ContainerCell) : Prop where
  held : s.cores.Holds k
  isOpen : (s.cores.get k).isClosed = false
  heldInjector : s.injectors.Holds (s.cores.get k).injector
  container : s.containerOf k = r
  keyed : s.Keyed r
  heldSource : s.sources.Holds (s.cores.get k).source
  source : sourceOf y (s.cores.get k).browser = .ok (s.sources.get (s.cores.get k).source)
  heldBrowser : s.browsers.Holds (s.cores.get k).browser
  browser : (s.browsers.get (s.cores.get k).browser).reset = b

/-- A browser that is kept up to what it remembers. -/
theorem reset_get_of_prefix {x z : Cells Browser}
    (h : x.items.map Browser.reset <+: z.items.map Browser.reset) {q : Ref Browser}
    (hq : x.Holds q) : z.Holds q ∧ (z.get q).reset = (x.get q).reset := by
  have hlt : q.index < x.items.length := hq
  have hle := h.length_le
  rw [List.length_map, List.length_map] at hle
  have hlt' : q.index < z.items.length := Nat.lt_of_lt_of_le hlt hle
  have hsame := h.getElem (by rwa [List.length_map] : q.index < (x.items.map _).length)
  rw [List.getElem_map, List.getElem_map] at hsame
  refine ⟨hlt', ?_⟩
  unfold Cells.get
  rw [List.getElem?_eq_getElem hlt, List.getElem?_eq_getElem hlt']
  exact hsame.symm

/-- A core stays open while its parts do not change. -/
theorem Running.extended (h : s.Running k y b r) (hcores : s.cores.Extends t.cores)
    (hinjectors : s.injectors.Extends t.injectors)
    (hcontainers : s.containers.Extends t.containers)
    (hdefinitions : s.definitions.Extends t.definitions)
    (hsources : s.sources.Extends t.sources)
    (hbrowsers : s.browsers.items.map Browser.reset <+: t.browsers.items.map Browser.reset) :
    t.Running k y b r := by
  have hcore := hcores.get h.held
  obtain ⟨hheld, hbrowser⟩ := reset_get_of_prefix hbrowsers h.heldBrowser
  -- What a core refers to was there before, so each part is read as it was.
  refine ⟨hcores.holds h.held, ?_, ?_, ?_, h.keyed.extended hcontainers hdefinitions, ?_, ?_, ?_, ?_⟩
  · rw [hcore]
    exact h.isOpen
  · rw [hcore]
    exact hinjectors.holds h.heldInjector
  · unfold containerOf
    rw [hcore, hinjectors.get h.heldInjector]
    exact h.container
  · rw [hcore]
    exact hsources.holds h.heldSource
  · rw [hcore, hsources.get h.heldSource]
    exact h.source
  · rw [hcore]
    exact hheld
  · rw [hcore, hbrowser]
    exact h.browser

theorem Running.grown (h : s.Running k y b r) (hg : s.Grows t) : t.Running k y b r :=
  h.extended hg.cores hg.injectors hg.containers hg.definitions hg.sources hg.browsers

theorem Running.ready (h : s.Running k y b r) : s.Ready (s.cores.get k).injector :=
  ⟨h.heldInjector, by
    show s.Keyed (s.containerOf k)
    rw [h.container]
    exact h.keyed⟩

/-- Nothing but files stands behind the source that settings describe. -/
theorem counter?_of_sourceOf {source : Source} {q : Ref Browser} (h : sourceOf y q = .ok source) :
    source.counter? = none := by
  rw [sourceOf_eq] at h
  split at h
  · cases hp : y.cacheFile with
    | error e =>
      rw [hp] at h
      cases h
    | ok p =>
      rw [hp] at h
      cases h
      rfl
  · cases h
    rfl

/-- What a core builds is keyed, and nothing else is changed. -/
theorem Running.rebuilt (h : s.Running k y b r) {q : Ref ContainerCell}
    (hbuilt : (rebuild k).run s = (.ok q, t)) : s.Grows t ∧ t.Keyed q := by
  rw [run_rebuild h.isOpen] at hbuilt
  have hgrows := (keeps_produce (s.sources.get (s.cores.get k).source) _
    (grows_refreshed s (s.cores.get k).browser)).holds
  rw [hbuilt] at hgrows
  exact ⟨hgrows, keyed_of_produce _ (counter?_of_sourceOf h.source) hbuilt⟩

/-- Setting the container of a core. -/
theorem Running.withContainer (h : s.Running k y b r) {q : Ref ContainerCell} (hq : s.Keyed q)
    (f : Injector → Injector) (hf : ∀ i, (f i).container = q) :
    Running { s with injectors := s.injectors.modify (s.cores.get k).injector f } k y b q where
  held := h.held
  isOpen := h.isOpen
  heldInjector := Cells.holds_modify.mpr h.heldInjector
  container := by
    show ((s.injectors.modify (s.cores.get k).injector f).get _).container = q
    rw [Cells.get_modify_self h.heldInjector]
    exact hf _
  keyed := ⟨hq.held, hq.entries⟩
  heldSource := h.heldSource
  source := h.source
  heldBrowser := h.heldBrowser
  browser := h.browser

/-- A reload answers as the source of the core does. -/
theorem Running.run_reload_answer (h : s.Running k y b r) :
    ((reload k).run s).1 = ((rebuild k).run s).1.map fun _ => () := by
  rw [run_reload h.isOpen]
  cases hbuilt : (rebuild k).run s with
  | mk result t =>
    cases result with
    | error e => exact congrArg Prod.fst (run_bind_error hbuilt)
    | ok q => exact congrArg Prod.fst (run_bind_ok hbuilt)

/-- A reload leaves a core with what was built, or with what it had. -/
theorem Running.reloaded (h : s.Running k y b r) :
    ((reload k).run s).2.Running k y b ((CoreCall.reload.built? k s).getD r) := by
  unfold CoreCall.built?
  rw [run_reload h.isOpen]
  cases hbuilt : (rebuild k).run s with
  | mk result t =>
    cases result with
    | error e =>
      rw [run_bind_error hbuilt]
      have hrun := run_rebuild h.isOpen ▸ hbuilt
      exact h.grown (looked_of_produce_error _ (grows_refreshed s _) hrun)
    | ok q =>
      rw [run_bind_ok hbuilt]
      obtain ⟨hgrows, hkeyed⟩ := h.rebuilt hbuilt
      have hlater := h.grown hgrows
      have hcore := hgrows.cores.get h.held
      have hset := hlater.withContainer hkeyed (fun i => { i with container := q }) fun _ => rfl
      rw [hcore] at hset
      exact hset

theorem keeps_clearCache {s₀ : Store} (p : Path) : Keeps s₀.Grows (clearCache p) := by
  -- It is a function of the store, and the removal has two outcomes.
  refine keeps_of_run (f := fun s => match Cache.clear s.files p with
    | .ok (t, cleared, events) => (.ok cleared, { s with files := t, log := s.log ++ events })
    | .error e => (.error e, s)) (fun s => ?_) (fun s hs => ?_) (fun s => ?_) fun s j => ?_
  · unfold clearCache
    rw [run_bind_ok (run_get s)]
    cases Cache.clear s.files p with
    | ok found => rfl
    | error e => rfl
  · cases Cache.clear s.files p with
    | ok found => exact { hs with }
    | error e => exact hs
  · have hdirect := direct_clear s.files p
    cases hcleared : Cache.clear s.files p with
    | ok found => exact direct_ok _
    | error e =>
      rw [hcleared] at hdirect
      exact direct_error (hdirect e rfl)
  · show (match Cache.clear s.files p with
      | .ok (t, cleared, events) => _
      | .error e => _) = _
    cases Cache.clear s.files p with
    | ok found => rfl
    | error e => rfl

theorem keeps_clearControlled {s₀ : Store} (r : Ref CacheControl) :
    Keeps s₀.Grows (clearControlled r) := by
  have hpath : Keeps s₀.Grows (cachePath r) := by
    refine (keeps_read _).bind fun _ => (keeps_read _).bind fun core =>
      (keeps_read _).bind fun x => ?_
    cases x.path? with
    | some p => exact keeps_pure _
    | none => exact (keeps_heldSettings _).bind fun y => keeps_lift (direct_cacheFile y)
  refine (keeps_read _).bind fun _ => (keeps_read _).bind fun core => (keeps_read _).bind fun x => ?_
  cases x.path? with
  | some p => exact keeps_clearCache p
  | none =>
    refine (hpath.bind fun _ => keeps_onFiles _).bind fun present => ?_
    cases present with
    | true => exact hpath.bind fun p => keeps_clearCache p
    | false => exact keeps_pure _

/-- Removing the snapshot file of a core leaves all that requests are answered from. -/
theorem grows_clear (s : Store) (k : Ref Core) : s.Grows (CoreCall.clear.run k s).2 :=
  (((keeps_make _).bind fun _ => keeps_clearControlled _) s (.refl s)).holds

/-- A call that runs no member of a component leaves an open core open, with the container that was
built last. -/
theorem Running.step (h : s.Running k y b r) (hc : c ≠ .close)
    (hquiet : Undisturbed (c.run k s).2.journal) :
    (c.run k s).2.Running k y b ((c.built? k s).getD r) := by
  -- One case for each call. A reload alone puts another container in place.
  cases c with
  | get interface identifier expected given =>
    refine h.grown ?_
    rw [CoreCall.run, CoreAnswer.of, run_requestCore h.isOpen] at hquiet ⊢
    exact grows_request h.ready _ _ _ hquiet
  | getAll interface =>
    refine h.grown ?_
    rw [CoreCall.run, CoreAnswer.of, run_requestAllCore h.isOpen] at hquiet ⊢
    exact grows_requestAll h.ready _ hquiet
  | reload => exact h.reloaded
  | close => exact absurd rfl hc
  | injector =>
    rw [CoreCall.run, CoreAnswer.of, run_openInjector h.isOpen]
    exact h
  | container =>
    have hkeeps : Keeps s.Grows (coreContainer k) :=
      (keeps_openInjector k).bind fun _ => (keeps_read _).bind fun _ => keeps_pure _
    exact h.grown (hkeeps s (.refl s)).holds
  | clear => exact h.grown (grows_clear s k)
  | switch on =>
    exact h.extended (.refl _) (.refl _) (.refl _) (.refl _) (.refl _) (List.prefix_refl _)
  | outside change =>
    exact h.extended (.refl _) (.refl _) (.refl _) (.refl _) (.refl _) (List.prefix_refl _)

/-! ### Closed cores -/

/-- A core that was closed. -/
structure Closed (s : Store) (k : Ref Core) : Prop where
  held : s.cores.Holds k
  isClosed : (s.cores.get k).isClosed = true

theorem closed_close (h : s.cores.Holds k) : ((CoreCall.close).run k s).2.Closed k := by
  refine ⟨Cells.holds_modify.mpr h, ?_⟩
  show ((s.cores.modify k _).get k).isClosed = true
  rw [Cells.get_modify_self h]

/-- A closed core refuses, nothing is done, and nothing but that it is closed matters. -/
theorem Closed.refused (h : s.Closed k) (hc : c.needsOpen = true) :
    (c.run k s).1.fault? = some .closed ∧ (c.run k s).2 = s ∧
      ∀ t, t.Closed k → (c.run k t).1 = (c.run k s).1 := by
  have hrefused : ∀ {α : Type} (f : Ref Injector → Action α) {t : Store}, t.Closed k →
      (openInjector k >>= f).run t = (.error .closed, t) :=
    fun f _ ht => run_bind_error (run_openInjector_closed ht.isClosed)
  -- All calls that need an open core begin with the same check.
  have hall : ∀ {α : Type} {f : Except Fault α → CoreAnswer} {w : Action α},
      c.run k = CoreAnswer.of f w → (∀ t, t.Closed k → w.run t = (.error .closed, t)) →
      (f (.error .closed)).fault? = some .closed → (c.run k s).1.fault? = some .closed ∧
        (c.run k s).2 = s ∧ ∀ t, t.Closed k → (c.run k t).1 = (c.run k s).1 := by
    intro α f w hrun hw hfault
    rw [hrun]
    unfold CoreAnswer.of
    rw [hw s h]
    exact ⟨hfault, rfl, fun t ht => by rw [hw t ht]⟩
  cases c with
  | get interface identifier expected given => exact hall rfl (fun t ht => hrefused _ ht) rfl
  | getAll interface => exact hall rfl (fun t ht => hrefused _ ht) rfl
  | reload => exact hall rfl (fun t ht => hrefused _ ht) rfl
  | injector => exact hall rfl (fun t ht => run_openInjector_closed ht.isClosed) rfl
  | container => exact hall rfl (fun t ht => hrefused _ ht) rfl
  | close => cases hc
  | clear => cases hc
  | switch on => cases hc
  | outside change => cases hc

/-- Whatever is done, a closed core stays closed. -/
theorem Closed.step (h : s.Closed k) (c : CoreCall) : (c.run k s).2.Closed k := by
  cases hc : c.needsOpen with
  | true =>
    rw [(h.refused hc).2.1]
    exact h
  | false =>
    cases c with
    | close => exact closed_close h.held
    | clear =>
      have hcores := (grows_clear s k).cores
      exact ⟨hcores.holds h.held, by rw [hcores.get h.held]; exact h.isClosed⟩
    | switch on => exact ⟨h.held, h.isClosed⟩
    | outside change => exact ⟨h.held, h.isClosed⟩
    | _ => cases hc

end Store

/-! ### Histories -/

namespace CoreCall

variable {k : Ref Core} {y : Settings} {b : Browser} {later : List CoreMoment} {m : CoreMoment}

/-- A moment is that of its call, with a journal of its own. -/
theorem ran_of_mem_history (calls : List CoreCall) : ∀ {s : Store}, m ∈ history k s calls →
    m.before.journal = [] ∧ m.call.run k m.before = (m.answer, m.after) := by
  induction calls with
  | nil => exact fun h => absurd h List.not_mem_nil
  | cons c rest ih =>
    intro s h
    rcases List.mem_cons.mp h with rfl | h
    · exact ⟨rfl, rfl⟩
    · exact ih h

/-- After a core is closed, each moment finds it closed. -/
theorem closed_history (calls : List CoreCall) : ∀ {s : Store} {earlier : List CoreMoment},
    s.Closed k → history k s calls = earlier ++ m :: later → m.before.Closed k := by
  induction calls with
  | nil =>
    intro s earlier _ h
    cases earlier <;> cases h
  | cons c rest ih =>
    intro s earlier hs h
    have hbefore : (s.withJournal []).Closed k := ⟨hs.held, hs.isClosed⟩
    cases earlier with
    | nil =>
      obtain ⟨rfl, -⟩ := List.cons.inj h
      exact hbefore
    | cons x earlier => exact ih (hbefore.step c) (List.cons.inj h).2

/-- As long as no member of a component is run, a moment finds a core open with the container that
was built last, or closed if it was closed. -/
theorem running_history (calls : List CoreCall) :
    ∀ {s : Store} {r : Ref ContainerCell} {earlier : List CoreMoment},
      s.Running k y b r → history k s calls = earlier ++ m :: later →
      (∀ x ∈ earlier, Undisturbed x.after.journal) →
      ((∀ x ∈ earlier, x.call ≠ .close) → m.before.Running k y b (lastBuilt k r earlier)) ∧
        ((∃ x ∈ earlier, x.call = .close) → m.before.Closed k) := by
  -- The induction goes along the calls. As long as none of them closes the core, it goes on
  -- running, with the container of the last reload, and from a close on it stays closed.
  induction calls with
  | nil =>
    intro s r earlier _ h
    cases earlier <;> cases h
  | cons c rest ih =>
    intro s r earlier hs h hquiet
    have hbefore : (s.withJournal []).Running k y b r :=
      hs.extended (.refl _) (.refl _) (.refl _) (.refl _) (.refl _) (List.prefix_refl _)
    cases earlier with
    | nil =>
      obtain ⟨rfl, -⟩ := List.cons.inj h
      exact ⟨fun _ => hbefore, fun hclosed => by simp at hclosed⟩
    | cons x earlier =>
      obtain ⟨rfl, hrest⟩ := List.cons.inj h
      by_cases hc : c = .close
      · subst hc
        exact ⟨fun hopen => absurd rfl (hopen _ List.mem_cons_self),
          fun _ => closed_history rest (Store.closed_close hbefore.held) hrest⟩
      · have hstep := hbefore.step hc (hquiet _ List.mem_cons_self)
        obtain ⟨hopen, hclosed⟩ := ih hstep hrest fun x hx => hquiet x (List.mem_cons_of_mem _ hx)
        refine ⟨fun hall => hopen fun x hx => hall x (List.mem_cons_of_mem _ hx), ?_⟩
        rintro ⟨x, hx, hclose⟩
        rcases List.mem_cons.mp hx with rfl | hx
        · exact absurd hclose hc
        · exact hclosed ⟨x, hx, hclose⟩

end CoreCall

/-! ### Creation -/

namespace Store

variable {s t : Store} {settings : Option (Ref Settings)} {config : Option (Ref Config)}
  {registry : Option (Ref Registry)} {vs : Variables} {k : Ref Core} {y : Settings} {b : Browser}
  {r : Ref ContainerCell}

/-- The settings of a new core as they are then: those that are given, or those that are read from
the surroundings. -/
def settingsFor (s : Store) (settings : Option (Ref Settings)) (vs : Variables) :
    Except Fault Settings :=
  match settings with
  | some x => .ok (s.settingsNow x)
  | none => (Settings.of ⟨none, none, none, none, none⟩ vs).map fun x =>
      Store.settingsNow { s with settings := s.settings.add x } s.settings.next

/-- Settings that are not given are made before all else. -/
theorem run_makeCore_settled (config : Option (Ref Config)) (registry : Option (Ref Registry))
    (hy : s.settingsFor settings vs = .ok y) :
    ∃ x s', (makeCore settings config registry none vs).run s
        = (makeCore (some x) config registry none vs).run s' ∧ s'.settingsNow x = y := by
  cases settings with
  | some x => exact ⟨x, s, rfl, Except.ok.inj hy⟩
  | none =>
    have hmade : makeCore none config registry none vs
        = (lift (Settings.of ⟨none, none, none, none, none⟩ vs) >>= make) >>= fun x =>
            makeCore (some x) config registry none vs := by
      unfold makeCore
      simp only [orNew, pure_bind]
    unfold settingsFor at hy
    cases hread : Settings.of ⟨none, none, none, none, none⟩ vs with
    | error e =>
      rw [hread] at hy
      cases hy
    | ok x =>
      rw [hread] at hy
      have hsettled : (lift (Settings.of ⟨none, none, none, none, none⟩ vs) >>= make :
          Action (Ref Settings)).run s
            = (.ok s.settings.next, { s with settings := s.settings.add x }) := by
        rw [hread]
        rfl
      exact ⟨_, _, by rw [hmade, run_bind_ok hsettled], Except.ok.inj hy⟩

/-- A core is made open. -/
theorem running_of_makeCore (hy : s.settingsFor settings vs = .ok y)
    (hmade : (makeCore settings config registry none vs).run s = (.ok k, t)) :
    ∃ b, y.browser = .ok b ∧ t.Running k y b (t.containerOf k) := by
  obtain ⟨x, s₁, hsettled, hx⟩ := run_makeCore_settled config registry hy
  obtain ⟨g, f, s₂, hgiven, -, hnow⟩ := run_makeCore_given x config registry vs s₁
  rw [hsettled, hgiven] at hmade
  -- A core that was made has a browser, a source, and the container that the source gave.
  obtain ⟨b, source, r, u, hb, hsource, hproduced, hfurnish⟩ := makeCore_eq_ok hmade
  rw [hnow, hx] at hb hsource
  rw [run_furnish] at hfurnish
  obtain ⟨hk, ht⟩ := Prod.mk.inj hfurnish
  obtain rfl := Except.ok.inj hk
  have hgrows := (keeps_produce source _ (.refl (s₂.withSource b source))).holds
  rw [hproduced] at hgrows
  have hkeyed := keyed_of_produce source (counter?_of_sourceOf hsource) hproduced
  obtain ⟨hheld, hbrowser⟩ := reset_get_of_prefix hgrows.browsers (Cells.holds_next s₂.browsers b)
  have hheldSource : (s₂.withSource b source).sources.Holds s₂.sources.next := Cells.holds_next _ _
  have hcore : t.cores.get u.cores.next
      = ⟨x, g, f, s₂.browsers.next, s₂.sources.next, u.injectors.next, false⟩ := by
    rw [← ht]
    exact Cells.get_add_next _ _
  have hcontainer : t.containerOf u.cores.next = r := by
    unfold containerOf
    rw [hcore, ← ht]
    exact congrArg Injector.container (Cells.get_add_next _ _)
  -- Each part of the core is among the cells that were made last, or was there when the source was
  -- asked.
  refine ⟨b, hb, ?_, ?_, ?_, rfl, ?_, ?_, ?_, ?_, ?_⟩
  · rw [← ht]
    exact Cells.holds_next _ _
  · rw [hcore]
  · rw [hcore, ← ht]
    exact Cells.holds_next _ _
  · rw [hcontainer, ← ht]
    exact ⟨hkeyed.held, hkeyed.entries⟩
  · rw [hcore, ← ht]
    exact hgrows.sources.holds hheldSource
  · rw [hcore, ← ht]
    show _ = Except.ok (u.sources.get s₂.sources.next)
    rw [hgrows.sources.get hheldSource]
    exact hsource.trans (congrArg Except.ok (Cells.get_add_next s₂.sources source).symm)
  · rw [hcore, ← ht]
    exact hheld
  · rw [hcore, ← ht]
    refine hbrowser.trans ?_
    show ((s₂.browsers.add b).get s₂.browsers.next).reset = b
    rw [Cells.get_add_next]
    have hforgotten := Settings.remembered_browser hb
    obtain ⟨application, modules, remembered⟩ := b
    obtain rfl : remembered = none := hforgotten
    rfl

/-! ### Reloads -/

/-- From one store to the other, browsers looked and the log was written. -/
def Looked (s t : Store) : Prop :=
  ∃ log browsers, t = { s with
    log := log
    browsers := browsers }

instance : Looking s.Looked where
  reported := by
    rintro _ events ⟨log, browsers, rfl⟩
    exact ⟨_, _, rfl⟩
  looked := by
    rintro _ r f - ⟨log, browsers, rfl⟩
    exact ⟨_, _, rfl⟩

/-- A reload that fails has only looked. -/
theorem looked_of_reload_error {e : Fault} (h : (reload k).run s = (.error e, t)) : s.Looked t := by
  cases hclosed : (s.cores.get k).isClosed with
  | true =>
    have hrefused : (reload k).run s = (.error .closed, s) :=
      run_bind_error (run_openInjector_closed hclosed)
    obtain ⟨-, rfl⟩ := Prod.mk.inj (hrefused.symm.trans h)
    exact ⟨_, _, rfl⟩
  | false =>
    rw [run_reload hclosed] at h
    cases hbuilt : (rebuild k).run s with
    | mk result u =>
      cases result with
      | error e' =>
        obtain ⟨-, rfl⟩ := Prod.mk.inj ((run_bind_error hbuilt).symm.trans h)
        rw [run_rebuild hclosed] at hbuilt
        exact looked_of_produce_error _ ⟨_, _, rfl⟩ hbuilt
      | ok q => cases (run_bind_ok hbuilt).symm.trans h

/-- A reload of a core that reads the files gives it the container of the overlay's catalogue, or
fails as that does. -/
theorem Running.run_reload_readsFiles (h : s.Running k y b r) (hy : y.ReadsFiles s.files) :
    Except.Alike (fun c _ =>
        ((reload k).run s).2.container (((reload k).run s).2.containerOf k) = c.definitions)
      (y.overlay.catalogue b s.files) ((reload k).run s).1 := by
  obtain ⟨result, u, hproduced, halike⟩ :=
    (asked_refreshed h.heldBrowser h.browser).run_produce hy h.source
  have hbuilt := (run_rebuild h.isOpen).trans hproduced
  rw [run_reload h.isOpen]
  cases hcatalogue : y.overlay.catalogue b s.files with
  | error e =>
    rw [hcatalogue] at halike
    cases halike
    rw [run_bind_error hbuilt]
    exact .error e
  | ok c =>
    rw [hcatalogue] at halike
    cases halike with
    | @ok _ q hshows =>
      have hreloaded := h.reloaded
      unfold CoreCall.built? at hreloaded
      rw [run_reload h.isOpen, run_bind_ok hbuilt, hbuilt] at hreloaded
      rw [run_bind_ok hbuilt]
      refine .ok ?_
      rw [hreloaded.container]
      have hmatches : u.Matches ((setContainer (s.cores.get k).injector q false).run u).2 :=
        ⟨rfl, rfl, rfl, rfl, rfl, rfl, rfl⟩
      exact (hmatches.container q).trans hshows.view

/-- A new core of the same application that reads the files has the container of their catalogue. -/
theorem makeCore_sameApplication {x : Ref Settings} (hb : y.browser = .ok b)
    (hx : y.SameApplication (s.settingsNow x)) (hreads : (s.settingsNow x).ReadsFiles s.files) :
    Except.Alike (fun c l =>
        let made := (makeCore (some x) config registry none vs).run s
        made.2.container (made.2.containerOf l) = c.definitions)
      (y.overlay.catalogue b s.files) ((makeCore (some x) config registry none vs).run s).1 := by
  obtain ⟨g, f, s', hgiven, hfiles, hnow⟩ := run_makeCore_given x config registry vs s
  rw [hgiven]
  rw [← hnow] at hx
  rw [← hnow, ← hfiles] at hreads
  obtain ⟨result, t, hrun, halike⟩ := @makeCore_readsFiles s' x g f vs b
    (hx.browser.trans hb) hreads
  have hoverlay : (s'.settingsNow x).overlay = y.overlay := by
    unfold Settings.overlay
    rw [hx.environment]
  rw [hoverlay, hfiles] at halike
  rw [hrun]
  exact halike.mono fun _ _ hl => hl.view

/-- A core with a snapshot file removes that of its source. -/
theorem run_clear_cached {inner : Source} {p : Path}
    (hsource : s.sources.get (s.cores.get k).source = .cached inner p) :
    (make ⟨k⟩ >>= clearControlled).run s
      = (clearCache p).run { s with controls := s.controls.add ⟨k⟩ } := by
  rw [run_bind_ok (run_make _ s)]
  unfold clearControlled
  rw [run_bind_ok (run_read _ _)]
  show (read ((s.controls.add ⟨k⟩).get s.controls.next).core >>= _ : Action Bool).run _ = _
  rw [Cells.get_add_next, run_bind_ok (run_read _ _), run_bind_ok (run_read _ _)]
  have hread : (Stored.cells (Stored.setCells s ((Stored.cells s).add (⟨k⟩ : CacheControl)))).get
      ((Stored.cells (Stored.setCells s ((Stored.cells s).add (⟨k⟩ : CacheControl)))).get k).source
      = .cached inner p := hsource
  rw [hread]
  rfl

/-- After a clear of its snapshot file, a core reads the files. -/
theorem Running.readsFiles_of_clear (h : s.Running k y b r) {cleared : Bool}
    (hcleared : CoreCall.clear.run k s = (.flag (.ok cleared), t)) : y.ReadsFiles t.files := by
  have hsource := h.source
  rw [sourceOf_eq] at hsource
  -- Without caching there is no snapshot to read. With it, the clear removed the one that there
  -- was.
  split at hsource
  · cases hp : y.cacheFile with
    | error e =>
      rw [hp] at hsource
      cases hsource
    | ok p =>
      rw [hp] at hsource
      have hcached := (Except.ok.inj hsource).symm
      rw [CoreCall.run, CoreAnswer.of, run_clear_cached hcached] at hcleared
      unfold clearCache at hcleared
      rw [run_bind_ok (run_get _)] at hcleared
      cases hremoved : Cache.clear s.files p with
      | error e =>
        rw [run_bind_error (by rw [run_lift]; exact Prod.ext hremoved rfl)] at hcleared
        cases hcleared
      | ok found =>
        rw [run_bind_ok (by rw [run_lift]; exact Prod.ext hremoved rfl)] at hcleared
        obtain ⟨-, rfl⟩ := Prod.mk.inj hcleared
        exact .inr ⟨p, hp, Cache.not_holds_of_clear hremoved⟩
  · rename_i hoff
    exact .inl (Bool.eq_false_iff.mpr hoff)

end Store

/-! ### Moments of a core -/

namespace CoreMoment

/-- The core is open and has a container. Its injector, which has that container, resolves requests,
and a reload answers as the source of the core does. -/
structure Opened (k : Ref Core) (r : Ref ContainerCell) (m : CoreMoment) : Prop where
  isOpen : (m.before.cores.get k).isClosed = false
  container : m.before.containerOf k = r
  get : ∀ interface identifier expected given, m.call = .get interface identifier expected given →
    (m.answer, m.after) = CoreAnswer.of .object (request (m.before.cores.get k).injector
      (.plain interface identifier) given expected) m.before
  getAll : ∀ interface, m.call = .getAll interface →
    (m.answer, m.after)
      = CoreAnswer.of .objects (requestAll (m.before.cores.get k).injector interface) m.before
  handed : m.call = .container → m.answer = .container (.ok r)
  reload : m.call = .reload → m.answer = .done (((rebuild k).run m.before).1.map fun _ => ())

/-- A reload that gives the core the container that the files have now, or fails as they do. Any
core that is made then for the same application, and reads the files too, has an equal container, or
fails in the same way. -/
structure Rereads (k : Ref Core) (y : Settings) (b : Browser) (m : CoreMoment)
    (x : Except Fault Unit) : Prop where
  catalogue : Except.Alike
    (fun c _ => m.after.container (m.after.containerOf k) = c.definitions)
    (y.overlay.catalogue b m.before.files) x
  created : ∀ new config registry vs, y.SameApplication (m.before.settingsNow new) →
    (m.before.settingsNow new).ReadsFiles m.before.files →
    Except.Alike (fun _ l =>
        let made := (makeCore (some new) config registry none vs).run m.before
        made.2.container (made.2.containerOf l) = m.after.container (m.after.containerOf k))
      x ((makeCore (some new) config registry none vs).run m.before).1

/-- Every injector has the container and the objects that it had, every container shows what it
showed, and the files are as they were. -/
structure Kept (m : CoreMoment) : Prop where
  injectors : m.after.injectors = m.before.injectors
  container : ∀ r, m.after.container r = m.before.container r
  files : m.after.files = m.before.files

/-- The core is closed and stays closed. What needs an open core is refused, nothing is done, and it
would be refused whatever the files are. -/
structure Shut (k : Ref Core) (m : CoreMoment) : Prop where
  isClosed : (m.before.cores.get k).isClosed = true
  stays : (m.after.cores.get k).isClosed = true
  refused : m.call.needsOpen = true → m.answer.fault? = some .closed ∧ m.after = m.before ∧
    ∀ t, m.call.run k { m.before with files := t } = (m.answer, { m.before with files := t })

variable {k : Ref Core} {y : Settings} {b : Browser} {r : Ref ContainerCell} {m : CoreMoment}

theorem opened_of_running (h : m.before.Running k y b r)
    (hran : m.call.run k m.before = (m.answer, m.after)) : m.Opened k r where
  isOpen := h.isOpen
  container := h.container
  get interface identifier expected given hcall := by
    rw [← hran, hcall, CoreCall.run]
    unfold CoreAnswer.of
    rw [run_requestCore h.isOpen]
  getAll interface hcall := by
    rw [← hran, hcall, CoreCall.run]
    unfold CoreAnswer.of
    rw [run_requestAllCore h.isOpen]
  handed hcall := by
    have hanswer := congrArg Prod.fst hran
    rw [hcall, CoreCall.run, CoreAnswer.of, coreContainer, run_bind_ok (run_openInjector h.isOpen)]
      at hanswer
    rw [← h.container]
    exact hanswer.symm
  reload hcall := by
    have hanswer := congrArg Prod.fst hran
    rw [hcall, CoreCall.run, CoreAnswer.of, h.run_reload_answer] at hanswer
    exact hanswer.symm

theorem rereads_of_running (h : m.before.Running k y b r) (hb : y.browser = .ok b)
    (hreads : y.ReadsFiles m.before.files)
    (hran : CoreCall.reload.run k m.before = (m.answer, m.after)) :
    ∃ x, m.answer = .done x ∧ m.Rereads k y b x := by
  obtain ⟨hanswer, hafter⟩ := Prod.mk.inj hran
  have hreload := h.run_reload_readsFiles hreads
  refine ⟨_, hanswer.symm, hafter ▸ hreload, fun new config registry vs hnew hreadsNew => ?_⟩
  refine (hreload.along (makeCore_sameApplication hb hnew hreadsNew)).mono ?_
  rintro u l ⟨c, hold, hmade⟩
  rw [← hafter]
  exact hmade.trans hold.symm

theorem kept_of_reload {e : Fault} (hran : CoreCall.reload.run k m.before = (m.answer, m.after))
    (hanswer : m.answer = .done (.error e)) : m.Kept := by
  obtain ⟨hfails, hafter⟩ := Prod.mk.inj hran
  have hrun : (reload k).run m.before = (.error e, m.after) :=
    Prod.ext (CoreAnswer.done.inj (hfails.trans hanswer)) hafter
  obtain ⟨log, browsers, hlooked⟩ := looked_of_reload_error hrun
  have hmatches : m.before.Matches m.after := by
    rw [hlooked]
    exact ⟨rfl, rfl, rfl, rfl, rfl, rfl, rfl⟩
  exact ⟨by rw [hlooked], hmatches.container, by rw [hlooked]⟩

theorem shut_of_closed (h : m.before.Closed k)
    (hran : m.call.run k m.before = (m.answer, m.after)) : m.Shut k where
  isClosed := h.isClosed
  stays := by
    have hstep := h.step m.call
    rw [hran] at hstep
    exact hstep.isClosed
  refused hcall := by
    obtain ⟨hfault, hsame, hall⟩ := h.refused hcall
    rw [hran] at hfault hsame hall
    refine ⟨hfault, hsame, fun t => ?_⟩
    have hother : Store.Closed { m.before with files := t } k := ⟨h.held, h.isClosed⟩
    exact Prod.ext (hall _ hother) (hother.refused hcall).2.1

end CoreMoment

/-- A moment begins with the store that the moment before it left behind. -/
theorem CoreCall.files_of_history {k : Ref Core} {m x : CoreMoment} {later : List CoreMoment}
    (calls : List CoreCall) : ∀ {s : Store} {earlier : List CoreMoment},
      history k s calls = earlier ++ x :: m :: later → m.before.files = x.after.files := by
  induction calls with
  | nil =>
    intro s earlier h
    cases earlier <;> cases h
  | cons c rest ih =>
    intro s earlier h
    cases earlier with
    | cons z earlier => exact ih (List.cons.inj h).2
    | nil =>
      obtain ⟨hx, h⟩ := List.cons.inj h
      rw [← hx]
      cases rest with
      | nil => cases h
      | cons c' rest =>
        rw [← (List.cons.inj h).1]
        rfl

/-- The life of a core that is made from settings, with the source that they describe. Whatever is
done with it, as long as no member of a component is run:
* Until it is closed, requests are resolved over the container that was built last, by its creation or
  by a reload. A reload that finds no snapshot, because there are none or because it comes right
  after a clear that worked, gives the container that a new core of the application would have.
* A reload that fails leaves all containers, and the objects of all injectors, as they were.
* Once it was closed, it refuses for ever, without a look at the files. -/
theorem core_lives {s₀ s : Store} {settings : Option (Ref Settings)} {config : Option (Ref Config)}
    {registry : Option (Ref Registry)} {vs : Variables} {k : Ref Core} {y : Settings}
    (hy : s₀.settingsFor settings vs = .ok y)
    (hmade : (makeCore settings config registry none vs).run s₀ = (.ok k, s))
    (calls : List CoreCall) (earlier : List CoreMoment) (m : CoreMoment) (later : List CoreMoment)
    (hhistory : CoreCall.history k s calls = earlier ++ m :: later)
    (hquiet : ∀ x ∈ earlier, Undisturbed x.after.journal) :
    ∃ b, y.browser = .ok b ∧
      ((∀ x ∈ earlier, x.call ≠ .close) →
        m.Opened k (CoreCall.lastBuilt k (s.containerOf k) earlier) ∧
        (m.call = .reload →
          (y.caching.truthy = false ∨ ∃ before x cleared, earlier = before ++ [x] ∧
            x.call = .clear ∧ x.answer = .flag (.ok cleared)) →
          ∃ x, m.answer = .done x ∧ m.Rereads k y b x)) ∧
      (m.call = .reload → ∀ e, m.answer = .done (.error e) → m.Kept) ∧
      ((∃ x ∈ earlier, x.call = .close) → m.Shut k) := by
  obtain ⟨b, hb, hrunning⟩ := running_of_makeCore hy hmade
  obtain ⟨hopen, hclosed⟩ := CoreCall.running_history calls hrunning hhistory hquiet
  obtain ⟨-, hran⟩ := CoreCall.ran_of_mem_history calls (m := m) (s := s)
    (by rw [hhistory]; simp)
  refine ⟨b, hb, fun hall => ?_, fun hcall e hanswer => ?_, fun hclose => ?_⟩
  -- Up to this call the core was never closed.
  · have hnow := hopen hall
    refine ⟨CoreMoment.opened_of_running hnow hran, fun hcall hfresh => ?_⟩
    rw [hcall] at hran
    refine CoreMoment.rereads_of_running hnow hb ?_ hran
    rcases hfresh with hoff | ⟨before, x, cleared, rfl, hclear, hanswer⟩
    · exact .inl hoff
    · -- The clear left no snapshot, and nothing happened since.
      have hearlier : CoreCall.history k s calls = before ++ x :: m :: later := by
        rw [hhistory, List.append_assoc]
        rfl
      obtain ⟨-, hcleared⟩ := CoreCall.ran_of_mem_history calls (m := x) (s := s)
        (by rw [hearlier]; simp)
      rw [hclear, hanswer] at hcleared
      rw [CoreCall.files_of_history calls hearlier]
      have hbefore := (CoreCall.running_history calls hrunning hearlier
        fun z hz => hquiet z (List.mem_append_left _ hz)).1
          fun z hz => hall z (List.mem_append_left _ hz)
      exact hbefore.readsFiles_of_clear hcleared
  · rw [hcall] at hran
    exact CoreMoment.kept_of_reload hran hanswer
  · exact CoreMoment.shut_of_closed (hclosed hclose) hran

/-! ### The life of a core -/

/-- The core of the application without snapshot file is asked, reloaded, and closed at another
time. -/
theorem core_lives_box :
    (∃ m m' later, CoreCall.history ⟨0⟩ boxPlain
          [.get (.text "A") .null none none, .reload, .close] = m :: m' :: later ∧
      m'.call = .reload ∧ m'.Opened ⟨0⟩ (boxPlain.containerOf ⟨0⟩) ∧
      ∃ x, m'.answer = .done x ∧ m'.Rereads ⟨0⟩ (boxSettings false) boxBrowser x) ∧
    ∃ m m' m'', CoreCall.history ⟨0⟩ boxPlain
          [.get (.text "A") .null none none, .close, .reload] = [m, m', m''] ∧
      m''.call = .reload ∧ m''.Shut ⟨0⟩ := by
  have hquiet : Undisturbed ((CoreCall.get (.text "A") .null none none).run ⟨0⟩
      (boxPlain.withJournal [])).2.journal := by decide +kernel
  have hsettings : boxStore.settingsFor (some ⟨0⟩) [] = .ok (boxSettings false) :=
    congrArg Except.ok (settingsNow_box (.refl _) false)
  have hmade := makeCore_boxPlain
  -- From here on it does not matter what the store is.
  generalize boxPlain = s at *
  refine ⟨⟨_, _, _, rfl, rfl, ?_⟩, _, _, _, rfl, rfl, ?_⟩
  · obtain ⟨b, hb, hopen, -⟩ := core_lives hsettings hmade
      [.get (.text "A") .null none none, .reload, .close] [_] _ _ rfl (by simpa using hquiet)
    obtain rfl : boxBrowser = b := Except.ok.inj ((browser_box false).symm.trans hb)
    obtain ⟨hopened, hreads⟩ := hopen (by simp)
    exact ⟨hopened, hreads rfl (.inl rfl)⟩
  · obtain ⟨b, hb, -, -, hshut⟩ := core_lives hsettings hmade
      [.get (.text "A") .null none none, .close, .reload] [_, _] _ _ rfl
      (by simpa using ⟨hquiet, nofun⟩)
    exact hshut ⟨_, List.mem_cons_of_mem _ List.mem_cons_self, rfl⟩

/-! ### A core that is wiped -/

/-- A snapshot of two definitions. An argument of the second one is what the constructor of the
injector gives. -/
def wiperSnapshot : String :=
  "\x7b\"format\":\"wirebox.container\",\"version\":1,\"dependencies\":[" ++
  "\x7b\"interface\":\"A\",\"class\":\"A\",\"id\":null,\"interfaces\":[\"A\"]," ++
  "\"constructor\":null,\"calls\":[]\x7d," ++
  "\x7b\"interface\":\"B\",\"class\":\"B\",\"id\":null,\"interfaces\":[\"B\"]," ++
  "\"constructor\":\x7b\"method\":\"__construct\",\"id\":null,\"arguments\":[" ++
  "\x7b\"name\":\"s\",\"type\":\"call\",\"properties\":" ++
  "\x7b\"interface\":\"I\",\"method\":\"__init__\"\x7d\x7d]\x7d,\"calls\":[]\x7d]\x7d"

def wiperTree : Tree :=
  ⟨OrderedMap.empty
    |>.insert ["app"] .directory
    |>.insert ["cache"] .directory
    |>.insert ["cache", "dependencies-default.json"] (.file wiperSnapshot.toUTF8)⟩

def wiperRegistry : Registry :=
  ((Registry.empty.register boxProgram (.declared 0) (some "A")).register boxProgram (.declared 1)
    (some "B")).register boxProgram (.component .injector) (some "I")

def wiperStore : Store :=
  { Store.empty boxProgram with
    files := wiperTree
    configs := ⟨[Config.empty]⟩
    registries := ⟨[wiperRegistry]⟩
    settings := ⟨[boxSettings true]⟩ }

/-- The core is made, with the store around it. -/
def wiperMade : Except Fault (Ref Core) × Store :=
  (makeCore (some ⟨0⟩) (some ⟨0⟩) (some ⟨0⟩) none []).run wiperStore

/-- The store after its first core was asked for the second definition. -/
def askedForB (s : Store) : Store :=
  ((CoreCall.get (.text "B") .null none none).run ⟨0⟩ (s.withJournal [])).2.withJournal []

/-- The core is made, and the first definition is found, until the second one is asked for. -/
theorem wiper_asked :
    wiperMade.1.toOption = some ⟨0⟩ ∧
    ((requestCore ⟨0⟩ (.text "A") .null none none).run wiperMade.2).1.isOk = true ∧
    ((CoreCall.get (.text "A") .null none none).run ⟨0⟩ (askedForB wiperMade.2)).1.fault?.isSome
      = true ∧
    (askedForB wiperMade.2).containerOf ⟨0⟩ ≠ wiperMade.2.containerOf ⟨0⟩ := by
  decide +kernel

/-- A core that lost its container by a request is not open with the container that was built
last. -/
theorem not_opened_of_lost {s : Store}
    (hmissing : ((CoreCall.get (.text "A") .null none none).run ⟨0⟩ (askedForB s)).1.fault?.isSome
      = true)
    (hlost : (askedForB s).containerOf ⟨0⟩ ≠ s.containerOf ⟨0⟩) :
    ∃ m m', CoreCall.history ⟨0⟩ s
          [.get (.text "B") .null none none, .get (.text "A") .null none none] = [m, m'] ∧
      m'.answer.fault?.isSome = true ∧
      ¬ m'.Opened ⟨0⟩ (CoreCall.lastBuilt ⟨0⟩ (s.containerOf ⟨0⟩) [m]) :=
  ⟨_, _, rfl, hmissing, fun h => hlost h.container⟩

/-- A request that runs the constructor of the injector again takes the container away from an open
core: what was answered before is not found after it, though nothing was built in between. -/
theorem core_wiped :
    ∃ s, (makeCore (some ⟨0⟩) (some ⟨0⟩) (some ⟨0⟩) none []).run wiperStore = (.ok ⟨0⟩, s) ∧
      ((requestCore ⟨0⟩ (.text "A") .null none none).run s).1.isOk = true ∧
      ∃ m m', CoreCall.history ⟨0⟩ s
            [.get (.text "B") .null none none, .get (.text "A") .null none none] = [m, m'] ∧
        m'.answer.fault?.isSome = true ∧
        ¬ m'.Opened ⟨0⟩ (CoreCall.lastBuilt ⟨0⟩ (s.containerOf ⟨0⟩) [m]) := by
  obtain ⟨hmade, hfound, hmissing, hlost⟩ := wiper_asked
  exact ⟨wiperMade.2, run_eq_of_toOption hmade, hfound, not_opened_of_lost hmissing hlost⟩

end Wiring
