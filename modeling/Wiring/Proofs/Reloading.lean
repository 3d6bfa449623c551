import Wiring.Proofs.CachedCores

/-!
# `Wiring.Proofs.Reloading`: what a reload builds

A reload makes the browser of its core forget what it found, and asks the source for a container
(`rebuild`). When no snapshot is in the way, what comes out is the catalogue of the overlay over the
files as they are then, whatever was remembered before (`Asked.run_produce`). A new core goes
through the same source, so it gets an equal container (`makeCore_readsFiles`).

A source that fails has only looked at the files: it made no cell and changed none
(`looked_of_produce_error`).
-/

set_option autoImplicit false

namespace Wiring

open Wiring.Files Work Store

/-! ### Keys -/

/-- The identifier of a definition does not depend on places. -/
theorem Container.ownKeys_of_bare {c : Container Definition} (h : c.bare.OwnKeys) : c.OwnKeys := by
  intro e he
  refine h (e.1, e.2.mapArguments Argument.bare) ?_
  rw [Container.bare, Container.entries_map]
  exact List.mem_map_of_mem he

/-- The definitions of an overlay's catalogue stand under their own identifiers. -/
theorem Overlay.ownKeys_of_catalogue {o : Overlay} {b : Browser} {t : Tree} {c : Catalogue}
    (h : o.catalogue b t = .ok c) : c.definitions.OwnKeys :=
  fun e he => ((plain_of_catalogue h).2.1.entry e he).2.1

namespace Store

variable {s t u : Store} {r : Ref ContainerCell} {c : Container Definition} {I : Store → Prop}

/-- A container cell that shows definitions under their own identifiers is keyed. -/
theorem Shows.keyed {G : Store → Store → Prop} (h : Shows G s r c) (hc : c.OwnKeys) :
    s.Keyed r where
  held := h.held
  entries k d hfound := by
    have hmem : (k, d) ∈ (s.containers.get r).entries := Container.mem_entries_iff.mpr hfound
    refine ⟨(h.entry _ hmem).1, hc (k, s.definition d) ?_⟩
    rw [← h.view, container, Container.entries_map]
    exact List.mem_map_of_mem hmem

/-- A container stays keyed while its cells do not change. -/
theorem Keyed.extended (h : s.Keyed r) (hcontainers : s.containers.Extends t.containers)
    (hdefinitions : s.definitions.Extends t.definitions) : t.Keyed r where
  held := hcontainers.holds h.held
  entries k d hfound := by
    rw [hcontainers.get h.held] at hfound
    obtain ⟨hheld, hidentifier⟩ := h.entries k d hfound
    exact ⟨hdefinitions.holds hheld, by rw [hdefinitions.get hheld]; exact hidentifier⟩

/-! ### Sources -/

/-- A source behind a snapshot file fails without doing anything, restores what the file holds, or
passes the request on. -/
theorem cachedBy_cases (w : Action (Ref ContainerCell)) (p : Path) (s : Store) :
    (∃ e, (cachedBy w p).run s = (.error e, s)) ∨ (∃ k, Cache.Holds s.files p k) ∨
      ∃ events, (cachedBy w p).run s
        = (w >>= fun c => writeCache p c >>= fun _ => pure c).run (s.reporting events) := by
  by_cases hp : p.Speakable
  · by_cases hk : ∃ k, Cache.Holds s.files p k
    · exact .inr (.inl hk)
    · exact .inr (.inr (run_cachedBy_miss hp hk))
  · exact .inl ⟨_, run_cachedBy_unspeakable hp⟩

/-- What comes from files or from a snapshot of them is keyed. -/
theorem keyed_of_produce (x : Source) (hx : x.counter? = none) :
    ∀ {s u : Store} {r : Ref ContainerCell}, (produce x).run s = (.ok r, u) → u.Keyed r := by
  induction x with
  | files b o =>
    intro s u r h
    obtain ⟨result, u', hload, -, halike⟩ := (asked_self s b).run_load o
    obtain ⟨rfl, rfl⟩ := Prod.mk.inj (hload.symm.trans h)
    cases hcatalogue : o.catalogue (s.browsers.get b) s.files with
    | error e =>
      rw [hcatalogue] at halike
      cases halike
    | ok c =>
      rw [hcatalogue] at halike
      cases halike with
      | ok hshows => exact hshows.keyed (Overlay.ownKeys_of_catalogue hcatalogue)
  | counting q => cases hx
  | cached inner p ih =>
    intro s u r h
    rw [produce_cached] at h
    -- A cached source fails, or restores a snapshot, or asks its inner source and writes.
    rcases cachedBy_cases (produce inner) p s with ⟨e, hfails⟩ | ⟨k, hk⟩ | ⟨events, hmiss⟩
    · cases hfails.symm.trans h
    · obtain ⟨q, t, hrun, -, hshows, hbare⟩ := run_cachedBy_hit hk
      obtain ⟨hq, rfl⟩ := Prod.mk.inj ((hrun _).symm.trans h)
      obtain rfl := Except.ok.inj hq
      obtain ⟨content, text, -, -, hloads⟩ := hk
      refine hshows.keyed (Container.ownKeys_of_bare ?_)
      rw [hbare]
      exact Snapshot.ownKeys_of_loads hloads
    · rw [hmiss] at h
      obtain ⟨q, t, hproduced, h⟩ := bind_eq_ok h
      have hwritten := run_writeCache p q t
      obtain ⟨hq, rfl⟩ := Prod.mk.inj ((run_bind_ok hwritten).symm.trans h)
      obtain rfl := Except.ok.inj hq
      exact (ih hx hproduced).extended (.refl _) (.refl _)

/-- A source that fails has only looked at the files. -/
theorem looked_of_produce_error [Looking I] (x : Source) :
    ∀ {s u : Store} {e : Fault}, I s → (produce x).run s = (.error e, u) → I u := by
  induction x with
  | files b o =>
    intro s u e hs h
    have hlooked := (keeps_overlayFiles (I := I) b o s hs).holds
    cases hfiles : (overlayFiles b o).run s with
    | mk found t =>
      rw [hfiles] at hlooked
      cases found with
      | error e' =>
        obtain ⟨-, rfl⟩ := Prod.mk.inj ((run_bind_error hfiles).symm.trans h)
        exact hlooked
      | ok paths =>
        cases hload : (Overlay.load t.files .empty paths).2 with
        | error e' =>
          obtain ⟨-, rfl⟩ := Prod.mk.inj ((run_load_error hfiles hload).symm.trans h)
          exact Looking.reported _ _ hlooked
        | ok k =>
          obtain ⟨q, t', hrun, -⟩ := run_load hfiles hload
          cases hrun.symm.trans h
  | counting q => exact fun _ h => by cases h
  | cached inner p ih =>
    intro s u e hs h
    rw [produce_cached] at h
    rcases cachedBy_cases (produce inner) p s with ⟨e', hfails⟩ | ⟨k, hk⟩ | ⟨events, hmiss⟩
    · obtain ⟨-, rfl⟩ := Prod.mk.inj (hfails.symm.trans h)
      exact hs
    · obtain ⟨q, t, hrun, -⟩ := run_cachedBy_hit hk
      cases (hrun _).symm.trans h
    · rw [hmiss] at h
      cases hproduced : (produce inner).run (s.reporting events) with
      | mk result t =>
        cases result with
        | error e' =>
          obtain ⟨-, rfl⟩ := Prod.mk.inj ((run_bind_error hproduced).symm.trans h)
          exact ih (Looking.reported s events hs) hproduced
        | ok q => cases (run_written hproduced).symm.trans h

end Store

/-! ### Reading the definition files -/

/-- Cores with the settings read the definition files of a tree: they keep no snapshot file, or it
holds nothing that decodes. -/
def Settings.ReadsFiles (y : Settings) (t : Tree) : Prop :=
  y.caching.truthy = false ∨
    ∃ p, y.cacheFile = .ok p ∧ p.Speakable ∧ ¬ ∃ k, Cache.Holds t p k

namespace Store

variable {s t u : Store} {x : Ref Settings} {y : Settings} {g : Ref Config} {f : Ref Registry}
  {vs : Variables} {r : Ref Browser} {b : Browser} {source : Source} {tree : Tree}

/-- Settings that read the files describe a source. -/
theorem exists_sourceOf (hy : y.ReadsFiles tree) (r : Ref Browser) :
    ∃ source, sourceOf y r = .ok source := by
  rw [sourceOf_eq]
  split
  · rename_i hon
    rcases hy with hoff | ⟨p, hp, -⟩
    · rw [hon] at hoff
      cases hoff
    · exact ⟨_, by rw [hp]; rfl⟩
  · exact ⟨_, rfl⟩

/-- A source that reads the files gives the container of the overlay's catalogue, or fails as that
does. -/
theorem Asked.run_produce (h : s.Asked r tree b) (hy : y.ReadsFiles tree)
    (hsource : sourceOf y r = .ok source) :
    ∃ result u, (produce source).run s = (result, u) ∧
      Except.Alike (fun c q => Shows Grows u q c.definitions) (y.overlay.catalogue b tree) result := by
  rw [sourceOf_eq] at hsource
  split at hsource
  · rename_i hon
    -- With caching on, the files are read since there is no snapshot.
    rcases hy with hoff | ⟨p, hp, hspeakable, hmissing⟩
    · rw [hon] at hoff
      cases hoff
    · rw [hp] at hsource
      cases hsource
      obtain ⟨result, u, hrun, halike, -⟩ := h.run_produce_unheld hspeakable hmissing y.overlay
      exact ⟨result, u, hrun, halike.mono fun _ _ hq => hq.1⟩
  · cases hsource
    obtain ⟨result, u, hrun, -, halike⟩ := h.run_load y.overlay
    refine ⟨result, u, hrun, ?_⟩
    cases hcatalogue : y.overlay.catalogue b tree with
    | error e =>
      rw [hcatalogue] at halike
      cases halike
      exact .error e
    | ok c =>
      rw [hcatalogue] at halike
      cases halike with
      | ok hshows =>
        obtain ⟨-, -, hplain⟩ := Overlay.plain_of_catalogue hcatalogue
        exact .ok (hshows.of_isFlat fun e he => (hplain e he).flat)

/-- A new core that reads the files serves the catalogue of its overlay, or fails as that does. -/
theorem makeCore_readsFiles (hb : (s.settingsNow x).browser = .ok b)
    (hx : (s.settingsNow x).ReadsFiles s.files) :
    ∃ result t, (makeCore (some x) (some g) (some f) none vs).run s = (result, t) ∧
      Except.Alike (fun c k => t.Serves k g f c.definitions)
        ((s.settingsNow x).overlay.catalogue b s.files) result := by
  obtain ⟨source, hsource⟩ := exists_sourceOf hx s.browsers.next
  have hmade : (makeCore (some x) (some g) (some f) none vs).run s = _ :=
    run_makeCore_produce hb hsource
  obtain ⟨result, u, hproduced, halike⟩ := (asked_withSource s b source).run_produce hx hsource
  cases hcatalogue : (s.settingsNow x).overlay.catalogue b s.files with
  | error e =>
    rw [hcatalogue] at halike
    cases halike
    exact ⟨.error e, u, hmade.trans (run_bind_error hproduced), .error e⟩
  | ok c =>
    rw [hcatalogue] at halike
    cases halike with
    | @ok _ q hshows =>
      have hfurnish := run_furnish x g f s.browsers.next s.sources.next q u
      exact ⟨_, _, (hmade.trans (run_bind_ok hproduced)).trans hfurnish,
        .ok (serves_of_furnish hshows hfurnish).1⟩

/-! ### Reloading -/

/-- A store in which a browser forgot what it found. -/
def refreshed (s : Store) (r : Ref Browser) : Store :=
  { s with browsers := s.browsers.modify r Browser.reset }

theorem grows_refreshed (s : Store) (r : Ref Browser) : s.Grows (s.refreshed r) :=
  Looking.looked s r Browser.reset (fun _ => rfl) (.refl s)

/-- A browser that forgot what it found gives what it gave at first. -/
theorem asked_refreshed (hr : s.browsers.Holds r) (hb : (s.browsers.get r).reset = b) :
    (s.refreshed r).Asked r s.files b := by
  refine ⟨rfl, ?_⟩
  show ((s.browsers.modify r Browser.reset).get r).includes s.files false = _
  rw [Cells.get_modify_self hr, hb]

/-- Asks the source of a core for a container, as a reload does. -/
def rebuild (k : Ref Core) : Action (Ref ContainerCell) := do
  let _ ← openInjector k
  let c ← read k
  change c.browser Browser.reset
  containerFrom c.source

variable {k : Ref Core}

theorem run_rebuild (h : (s.cores.get k).isClosed = false) :
    (rebuild k).run s = (produce (s.sources.get (s.cores.get k).source)).run
      (s.refreshed (s.cores.get k).browser) := by
  unfold rebuild
  rw [run_bind_ok (run_openInjector h), run_bind_ok (run_read k s), run_bind_ok (run_change _ _ s)]
  rfl

/-- A reload sets what is built. -/
theorem run_reload (h : (s.cores.get k).isClosed = false) :
    (reload k).run s
      = (rebuild k >>= fun r => setContainer (s.cores.get k).injector r false).run s := by
  unfold reload
  rw [run_bind_ok (run_openInjector h), run_bind_ok (run_read k s), run_bind_ok (run_change _ _ s),
    run_bind, run_bind, run_rebuild h]
  rfl

/-- What is closed refuses. -/
theorem run_openInjector_closed (h : (s.cores.get k).isClosed = true) :
    (openInjector k).run s = (.error .closed, s) := by
  unfold openInjector
  rw [run_bind_ok (run_read k s)]
  show (if (s.cores.get k).isClosed = true then _ else _ : Action _).run s = _
  rw [h]
  rfl

end Store

end Wiring
