import Wiring.Proofs.Building
import Wiring.Proofs.Loading

/-!
# `Wiring.Proofs.Producing`: what a source gives

The container that a source of definition files gives is that of `Overlay.catalogue`, which is said
of the browser and the tree alone. `run_load` is this fact, for loads that fail
too. -/

set_option autoImplicit false

namespace Wiring

open Wiring.Files

/-- The names that are looked up are not empty. -/
theorem Overlay.ne_of_mem_names {o : Overlay} {n : String} (h : n ∈ o.names) : n ≠ "" := by
  have hslash : ∀ before after : String, before ++ "/" ++ after ≠ "" := by
    intro before after hnil
    have hlist := congrArg String.toList hnil
    simp at hlist
  unfold names at h
  rcases List.mem_cons.mp h with rfl | h
  · exact hslash _ _
  · split at h
    · cases h
    · split at h
      · cases h
      · rw [List.mem_singleton.mp h]
        exact hslash _ _

namespace Store

variable {s s' : Store} {r : Ref Browser} {t : Tree} {b : Browser}

/-- The files are those of a tree, and a browser gives the same directories as another one. -/
structure Asked (s : Store) (r : Ref Browser) (t : Tree) (b : Browser) : Prop where
  files : s.files = t
  gives : (s.browsers.get r).includes t false = b.includes t false

theorem asked_self (s : Store) (r : Ref Browser) : s.Asked r s.files (s.browsers.get r) := ⟨rfl, rfl⟩

/-- A browser that was asked gives the same answer again. -/
theorem Asked.looked (h : s.Asked r t b) :
    Asked { s with browsers := s.browsers.modify r fun b => b.looked s.files false } r t b := by
  refine ⟨h.files, ?_⟩
  by_cases hr : s.browsers.Holds r
  · show ((s.browsers.modify r _).get r).includes t false = _
    rw [Cells.get_modify_self hr, h.files, ← h.gives]
    unfold Browser.looked
    cases hfound : (s.browsers.get r).includes t false with
    | ok found => rfl
    | error e => exact hfound
  · have hsame : (s.browsers.modify r fun b => b.looked s.files false) = s.browsers := by
      unfold Cells.modify
      rw [List.modify_eq_self (Nat.le_of_not_lt hr)]
    rw [hsame]
    exact h.gives

theorem run_onFiles {α : Type} (f : Tree → Except Trouble α) (s : Store) :
    (onFiles f).run s = ((f s.files).mapError fun e => Fault.foreign e.kind, s) := rfl

/-- Asking a browser for its directories. -/
theorem Asked.run_includes (h : s.Asked r t b) : ∃ s',
    (includes r false).run s = ((b.includes t false).mapError fun e => Fault.foreign e.kind, s') ∧
      s'.Asked r t b := by
  -- The report about missing modules is the only thing that may come first.
  have hrest : ∀ {s₁ : Store}, s₁.Asked r t b → s₁.browsers = s.browsers → ∃ s',
      (do
        let found ← onFiles fun t => (s.browsers.get r).includes t false
        change r fun b => b.looked s.files false
        pure found : Action (List Path)).run s₁
          = ((b.includes t false).mapError fun e => Fault.foreign e.kind, s') ∧ s'.Asked r t b := by
    intro s₁ h₁ hb
    have hasked : (onFiles fun t => (s.browsers.get r).includes t false).run s₁
        = ((b.includes t false).mapError fun e => Fault.foreign e.kind, s₁) := by
      rw [run_onFiles, h₁.files, h.gives]
    cases hfound : b.includes t false with
    | error e =>
      rw [hfound] at hasked
      exact ⟨s₁, Work.run_bind_error hasked, h₁⟩
    | ok found =>
      rw [hfound] at hasked
      have hfiles : s.files = s₁.files := h.files.trans h₁.files.symm
      refine ⟨_, (Work.run_bind_ok hasked).trans rfl, ?_⟩
      rw [hfiles]
      exact h₁.looked
  unfold includes
  rw [Work.run_bind_ok (Work.run_get s)]
  dsimp only
  split
  · rw [Work.run_bind_ok (run_report _ s)]
    exact hrest ⟨h.files, h.gives⟩ rfl
  · exact hrest h rfl

/-- Looking a name up. -/
theorem Asked.run_filesNamed (h : s.Asked r t b) {name : String} (hname : name ≠ "") : ∃ s',
    (filesNamed r (.text name)).run s
        = ((b.hits t name).mapError fun e => Fault.foreign e.kind, s') ∧
      s'.Asked r t b := by
  obtain ⟨s₁, hrun, h₁⟩ := h.run_includes
  have hsought : soughtName r (.text name)
      = includes r false >>= fun _ => pure (some name) := by
    have htruthy : (!(Value.text name).truthy || (Value.text name).display = "") = false := by
      simp [Value.truthy, Value.display, hname]
    unfold soughtName
    rw [htruthy]
    rfl
  unfold filesNamed
  rw [hsought]
  cases hfound : b.includes t false with
  | error e =>
    have hhits : b.hits t name = .error e := by
      unfold Browser.hits
      rw [hfound]
      rfl
    rw [hfound] at hrun
    refine ⟨s₁, ?_, h₁⟩
    rw [hhits]
    exact Work.run_bind_error (Work.run_bind_error hrun)
  | ok found =>
    have hhits : (s₁.browsers.get r).hits s₁.files name = b.hits t name := by
      unfold Browser.hits
      rw [h₁.files, h₁.gives]
    rw [hfound] at hrun
    have hfirst : (includes r false >>= fun _ => pure (some name)).run s = (.ok (some name), s₁) :=
      Work.run_bind_ok hrun
    refine ⟨s₁, ?_, h₁⟩
    rw [Work.run_bind_ok hfirst]
    dsimp only
    rw [Work.run_bind_ok (run_read r s₁), run_onFiles, ← hhits]
    rfl

/-- Looking several names up. -/
theorem Asked.run_filesNamedAll (names : List String) :
    ∀ {s : Store}, s.Asked r t b → (∀ n ∈ names, n ≠ "") → ∃ x s',
      (names.mapM fun n => filesNamed r (.text n)).run s = (x, s') ∧ s'.Asked r t b ∧
        x.map (·.flatMap List.reverse)
          = (Overlay.filesOf b t names).mapError fun e => Fault.foreign e.kind := by
  induction names with
  | nil => exact fun {s} h _ => ⟨.ok [], s, rfl, h, rfl⟩
  | cons n rest ih =>
    intro s h hne
    obtain ⟨s₁, hhere, h₁⟩ := h.run_filesNamed (hne n List.mem_cons_self)
    obtain ⟨x, s₂, hmore, h₂, hx⟩ := ih h₁ fun m hm => hne m (List.mem_cons_of_mem _ hm)
    rw [List.mapM_cons, Overlay.filesOf]
    cases hhits : b.hits t n with
    | error e =>
      rw [hhits] at hhere
      exact ⟨_, s₁, Work.run_bind_error hhere, h₁, rfl⟩
    | ok found =>
      rw [hhits] at hhere
      cases x with
      | error e =>
        refine ⟨_, s₂, (Work.run_bind_ok hhere).trans (Work.run_bind_error hmore), h₂, ?_⟩
        cases hfiles : Overlay.filesOf b t rest with
        | ok paths =>
          rw [hfiles] at hx
          cases hx
        | error e' =>
          rw [hfiles] at hx
          exact hx
      | ok more =>
        refine ⟨_, s₂, (Work.run_bind_ok hhere).trans (Work.run_bind_ok hmore), h₂, ?_⟩
        cases hfiles : Overlay.filesOf b t rest with
        | error e =>
          rw [hfiles] at hx
          cases hx
        | ok paths =>
          rw [hfiles] at hx
          obtain rfl := Except.ok.inj hx
          rfl

/-- The files of an overlay. -/
theorem Asked.run_overlayFiles (h : s.Asked r t b) (o : Overlay) : ∃ s',
    (overlayFiles r o).run s = ((o.files b t).mapError fun e => Fault.foreign e.kind, s') ∧
      s'.Asked r t b := by
  obtain ⟨x, s₁, hrun, h₁, hx⟩ := Asked.run_filesNamedAll o.names h fun _ => Overlay.ne_of_mem_names
  refine ⟨s₁, ?_, h₁⟩
  unfold overlayFiles Overlay.files
  rw [← hx]
  cases x with
  | error e => exact Work.run_bind_error hrun
  | ok found => exact Work.run_bind_ok hrun

/-- A load gives the container of the overlay's catalogue, or fails as that does. The files are left
alone. -/
theorem Asked.run_load (h : s.Asked r t b) (o : Overlay) : ∃ x s',
    (load r o).run s = (x, s') ∧ s'.files = t ∧
      Except.Alike (fun k c => Shows Grown s' c k.definitions) (o.catalogue b t) x := by
  obtain ⟨s₁, hfiles, h₁⟩ := h.run_overlayFiles o
  unfold Overlay.catalogue
  cases hpaths : o.files b t with
  | error e =>
    rw [hpaths] at hfiles
    refine ⟨_, s₁, Work.run_bind_error hfiles, h₁.files, .error _⟩
  | ok paths =>
    rw [hpaths] at hfiles
    dsimp only
    cases hload : (Overlay.load t .empty paths).2 with
    | ok k =>
      obtain ⟨c, s', hrun, hs', hshows⟩ := Store.run_load hfiles (k := k) (by rw [h₁.files, hload])
      exact ⟨_, s', hrun, hs'.trans h₁.files, .ok hshows⟩
    | error e =>
      exact ⟨_, _, run_load_error hfiles (by rw [h₁.files, hload]), h₁.files, .error e⟩

end Store

end Wiring
