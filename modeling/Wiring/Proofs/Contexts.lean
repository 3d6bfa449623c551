import Wiring.Proofs.Paths

/-!
# `Wiring.Proofs.Contexts`: what passes from one request to the next

Between the parts of a definition nothing is passed on but the store. `answerFrom` is a resolution
that takes even less from there: an object that was set and a definition are looked up in the store
from before the request, by the exclusions of the caller and the path. Whatever is asked that is not
a nested request of its path is left to another way to answer.

`resolve_exact` says that this is the resolution, whatever that other way is, as long as no member
of a component is run. So each nested request carries the exclusions of the caller and what is on
its path, and nothing else: what was built and completed before has no part in it, and decides
neither which object or definition answers nor how the request is refused.

What is then built is another matter. The code that an earlier argument ran may have changed a
mapping that was set by hand, and a later one shows it (`clearingStore_differs`).
-/

set_option autoImplicit false

namespace Wiring

open Work Store

/-! ### Selection in a store that grew -/

namespace Selection

variable {δ : Type} {f g : δ → Option String}

theorem choose_congr {found : List δ} (h : ∀ d ∈ found, f d = g d) (interface : String)
    (excludes : Bool) : choose f interface excludes found = choose g interface excludes found := by
  have hdefault : (found.find? fun d => (f d).isNone) = found.find? fun d => (g d).isNone :=
    List.find?_congr fun d hd => by rw [h d hd]
  unfold choose
  rw [hdefault, List.map_congr_left h]

/-- Only the identifiers of the definitions of the container matter. -/
theorem select_congr {c : Container δ} (h : ∀ k d, c.find? k = some d → f d = g d)
    (key : DefinitionKey) (x b : Exclusions) : select f c key x b = select g c key x b := by
  have hfound : ∀ d ∈ candidates c key.interface x, f d = g d := by
    intro d hd
    obtain ⟨i, hfound, -⟩ := mem_candidates_iff.mp hd
    exact h _ d hfound
  unfold select unnamed
  dsimp only
  cases key.identifier with
  | some i => rfl
  | none =>
    cases hcandidates : candidates c key.interface x with
    | nil => rfl
    | cons d rest =>
      rw [hcandidates] at hfound
      dsimp only
      rw [choose_congr hfound]

end Selection

variable {s s₀ : Store} {r : Ref Injector} {E : Exclusions} {O : List DefinitionKey} {q : Request}
  {key : DefinitionKey}

/-- A request selects in a store that grew what it selects in the first one. -/
theorem Store.Ready.selected_eq (hr : s₀.Ready r) (hs : s₀.Grows s) (q : Request)
    (key : DefinitionKey) : s.selected r q key = s₀.selected r q key := by
  unfold Store.selected
  rw [hs.injectors.get hr.held, hs.containers.get hr.keyed.held]
  refine Selection.select_congr (fun k d hfound => ?_) key _ _
  rw [hs.definitions.get (hr.keyed.entries k d hfound).1]

/-! ### Objects that were set -/

/-- An object that was set is found in a store that grew if it is in the first one. -/
theorem Store.Ready.setFor_eq (hr : s₀.Ready r) (hs : s₀.Grows s) (given : Given)
    (k : DefinitionKey) (x : Exclusions) : s.setFor r given k x = s₀.setFor r given k x := by
  unfold Store.setFor
  rw [hs.injectors.get hr.held]

/-- On a path it is found by what the caller excludes and what is on the path. What is excluded does
not matter to a key with an identifier. -/
theorem Request.Along.setFor_eq (h : q.Along E O) (hkey : q.key? = .ok key) (s : Store)
    (r : Ref Injector) (given : Given) :
    s.setFor r given key q.exclude = s.setFor r given key (E.along O) := by
  cases hidentifier : key.identifier with
  | some i =>
    unfold Store.setFor
    rw [hidentifier]
    rfl
  | none => rw [h.exclude hkey hidentifier]

/-! ### The resolution from the start -/

/-- Builds what a store from before selects for a key on a path. -/
def buildFrom (s₀ : Store) (E : Exclusions) (O : List DefinitionKey)
    (nested : DefinitionKey → Answering) (r : Ref Injector) (key : DefinitionKey) (given : Given) :
    Action Value := do
  let d ← Work.lift (s₀.selectedAlong r E O key)
  build (nested ⟨key.interface, (s₀.definitions.get d).identifier⟩) r key.interface d (E.along O)
    given

/-- Answers a request on a path by what was set and defined in a store from before. -/
def stepFrom (s₀ : Store) (E : Exclusions) (O : List DefinitionKey)
    (nested : DefinitionKey → Answering) : Answering := fun r q given => do
  note (.requested q.interface q.identifier q.exclude q.building)
  let key ← Work.lift q.key?
  (s₀.setFor r given key (E.along O)).elim (buildFrom s₀ E O nested r key given) look

/-- Answers requests along a path by what was set and defined in a store from before, and leaves to
another way what is not nested in the innermost build of the path, and what is nested too deep. -/
def answerFrom (s₀ : Store) (E : Exclusions) (other : Answering) :
    Nat → List DefinitionKey → Answering
  | 0, _ => other
  | n + 1, O => stepFrom s₀ E O fun k r q given =>
    if q.Nested (E.along (k :: O)) then answerFrom s₀ E other n (k :: O) r q given
    else other r q given

/-- An answer looks for an object that was set, and builds what is selected if there is none. -/
theorem respond_eq (answer : Answering) (r : Ref Injector) (q : Request) (given : Given) :
    respond answer r q given = Work.lift q.key? >>= fun key =>
      (if given.isNone then instance? r key q.exclude else pure none) >>= fun found =>
        found.elim (get >>= fun s => Work.lift (s.selected r q key) >>= fun d =>
          build answer r key.interface d q.building given) pure := by
  unfold respond
  refine bind_congr fun key => bind_congr fun found => ?_
  cases found with
  | none => rfl
  | some v => rfl

section Step

variable {answer : Answering} {nested : DefinitionKey → Answering}
  (hd : ∀ r q, Agrees (fun _ => False) O (answer r q none) (answer r q none))
  (hr : s₀.Ready r) (hq : q.Along E O)
  (ha : ∀ k ∈ s₀.keysOf r, k ∉ O → ∀ q' : Request, q'.Nested (E.along (k :: O)) →
    Agrees (Orderly s₀ (s₀.keysOf r) E) (k :: O) (answer r q' none) (nested k r q' none))

include hd hr hq ha in
/-- A store that grew selects what the first one does, and what is requested inside is answered in
the same way. -/
theorem agrees_buildFrom (hkey : q.key? = .ok key) (given : Given) :
    Agrees (Orderly s₀ (s₀.keysOf r) E) O
      (get >>= fun s => Work.lift (s.selected r q key) >>= fun d =>
        build answer r key.interface d q.building given)
      (get >>= fun _ => buildFrom s₀ E O nested r key given) := by
  refine conforms_get_bind_of (fun _ _ => rfl)
    (fun s => (conforms_lift (direct_select _ _ _ _ _)).bind fun d => disturbed_build hd r _ d _ _)
    fun s hs => ?_
  -- The container was there from the first, and its definitions kept their identifiers.
  have hselects : s.selected r q key = s₀.selectedAlong r E O key :=
    (hr.selected_eq hs.grows q key).trans (selected_eq_selectedAlong s₀ r hq hkey)
  refine conforms_lift_bind (direct_select _ _ _ _ _) (fun _ => .of_eq hselects.symm)
    fun d d' hselected hsame => ?_
  subst hsame
  obtain ⟨hheld, k, hk, hfound, hfresh⟩ := hr.selected hs.grows hkey hselected
  have hkeys : k ∈ s₀.keysOf r :=
    List.mem_map.mpr ⟨(k, d), Container.mem_entries_iff.mpr hfound, rfl⟩
  have hfree : k ∉ O := by
    cases hq with
    | outer _ _ => exact List.not_mem_nil
    | nested hnested =>
      exact hfresh (hnested.1.symm ▸ hnested) fun _ => hnested.1 ▸ Exclusions.mem_along
  rw [← hk, hq.building]
  exact conforms_build hd (fun _ hs => hs.grows.definitions.get hheld) hk (definitionTwins_refl d)
    (fun _ hs hO => hs.noted (hs.now.opened hkeys (hO ▸ hfree) _ _))
    (fun _ hs => hs.noted (hs.now.closed k d.index)) ⟨rfl, rfl⟩
    ⟨fun _ _ => (Injector.Alike.refl _).akin, ha k hkeys hfree⟩ given

include hd hr hq ha in
/-- A request is answered as from the start, if those inside the selected definition are. -/
theorem agrees_stepFrom (given : Given) : Agrees (Orderly s₀ (s₀.keysOf r) E) O
    (step answer r q given) (stepFrom s₀ E O nested r q given) := by
  have hbuilding : E.Extended O q.building := fun _ => hq.building ▸ Exclusions.mem_along
  have hunnamed : O = [] ∨ q.identifier.truthy = true ∨ q.exclude = q.building := by
    cases hq with
    | outer _ _ => exact .inl rfl
    | nested hnested => exact .inr (hnested.1.symm ▸ hnested.2)
  have hnoted : Agrees (Orderly s₀ (s₀.keysOf r) E) O
      (note (.requested q.interface q.identifier q.exclude q.building) : Action Unit)
      (note (.requested q.interface q.identifier q.exclude q.building)) :=
    ⟨(disturbed_note (C := .same True) (O := O) _).disturbed, fun s j hs halike hO _ _ =>
      ⟨⟨_, rfl, .cons rfl halike⟩,
        hs.noted (hs.now.asked (hO.symm ▸ hbuilding) (hO.symm ▸ hunnamed)),
        fun _ _ => hO, fun _ h => by cases h⟩⟩
  rw [step_eq, respond_eq]
  refine hnoted.bind fun _ => conforms_lift_bind (direct_key? q) (fun _ => .of_eq rfl)
    fun key _ hkey hsame => ?_
  subst hsame
  have hlooked : Agrees (Orderly s₀ (s₀.keysOf r) E) O
      (if given.isNone then instance? r key q.exclude else pure none : Action (Option Value))
      (if given.isNone then instance? r key q.exclude else pure none) :=
    .of_keeps fun s => keeps_instance? r given key q.exclude s.Grows
  have hfound : ∀ found : Option Value, Agrees (Orderly s₀ (s₀.keysOf r) E) O
      (found.elim (get >>= fun s => Work.lift (s.selected r q key) >>= fun d =>
        build answer r key.interface d q.building given) pure)
      (found.elim (get >>= fun _ => buildFrom s₀ E O nested r key given) pure) := by
    intro found
    cases found with
    | none => exact agrees_buildFrom hd hr hq ha hkey given
    | some v => exact conforms_pure v
  -- The look into the injector of the moment gives what the one into the first store does.
  refine (hlooked.bind hfound).of_run fun s j hs => ?_
  have hset : (s.withJournal j).setFor r given key q.exclude
      = s₀.setFor r given key (E.along O) :=
    (hr.setFor_eq { hs.grows with } given key _).trans (hq.setFor_eq hkey s₀ r given)
  rw [run_bind_ok (run_instance?_eq r given key q.exclude _), hset]
  cases s₀.setFor r given key (E.along O) with
  | none =>
    rw [Option.map_none, Option.elim_none, Option.elim_none, run_bind_ok (run_get _)]
  | some v =>
    rw [Option.map_some, Option.elim_some, Option.elim_some, run_look, run_pure]

end Step

/-! ### Every depth -/

/-- An answer on a path is given as from the start, if the path leaves room for the depth, and
whatever answers the rest. -/
theorem agrees_answerFrom (hr : s₀.Ready r) (other : Answering) {n : Nat}
    (hn : missing (s₀.keysOf r) O < n) (hq : q.Along E O) (given : Given) :
    Agrees (Orderly s₀ (s₀.keysOf r) E) O (answer n r q given)
      (answerFrom s₀ E other n O r q given) := by
  induction n generalizing O q given with
  | zero => omega
  | succ n ih =>
    refine agrees_stepFrom (fun r q => disturbed_answer n r q none) hr hq
      (fun k hk hfree q' hq' => ?_) given
    -- Nothing but nested requests is asked, so the other way never answers.
    rw [if_pos hq']
    have hless := missing_cons_lt hk hfree
    exact ih (by omega) (.nested hq') none

end Wiring
