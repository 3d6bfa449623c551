import Wiring.Proofs.Failing
import Wiring.Proofs.Preference

/-!
# `Wiring.Proofs.Paths`: requests along a path of definitions

A request from outside begins a path, and each definition that is built inside of another one makes
it longer. `answerAlong` is a resolution that keeps this path itself. It selects by two things
alone, the exclusions of the caller and the definitions on the path, and takes from a request
nothing but its names. A request that is made outside of the path begins a new one.

`answer_eq_answerAlong` says that this is the resolution: whatever the store, and whatever code the
definitions run, the sets that requests carry hold what the caller excludes and what is on the path.
It borrows all but the selection, since that is where the sets are read. So what is true of
`Store.selectedAlong` is true of every selection.

Two facts follow. A request without identifier that is nested is never ambiguous (`answer_unnamed`),
and a request with one is refused as circular exactly when its definition is on the path or the
caller excludes it (`answer_circular`).
-/

set_option autoImplicit false

namespace Wiring

open Work Store

/-! ### Going on -/

theorem Work.lift_ok_bind {ε α β : Type} (a : α) (f : α → Work ε β) :
    (Work.lift (.ok a) >>= f) = f a := by
  funext s
  exact run_bind_ok (run_lift (.ok a) s)

theorem Work.lift_error_bind {ε α β : Type} (e : ε) (f : α → Work ε β) :
    (Work.lift (.error e) >>= f) = Work.lift (.error e) := by
  funext s
  exact run_bind_error (run_lift (.error e) s)

/-! ### Paths -/

/-- A set of keys and those on a path, the innermost one first. -/
def Exclusions.along (E : Exclusions) (O : List DefinitionKey) : Exclusions :=
  O.foldr (fun k e => e.insert k) E

theorem Exclusions.mem_along {E : Exclusions} {O : List DefinitionKey} {k : DefinitionKey} :
    k ∈ (E.along O).keys ↔ k ∈ E.keys ∨ k ∈ O := by
  induction O with
  | nil => simp [along]
  | cons x rest ih =>
    show k ∈ ((E.along rest).insert x).keys ↔ _
    rw [mem_insert, ih, List.mem_cons]
    exact or_left_comm

/-- On a path, something is excluded. -/
theorem Exclusions.isEmpty_along {E : Exclusions} {O : List DefinitionKey} (h : O ≠ []) :
    (E.along O).isEmpty = false := by
  obtain ⟨k, hk⟩ := List.exists_mem_of_ne_nil O h
  have hmem : k ∈ (E.along O).keys := mem_along.mpr (.inr hk)
  unfold isEmpty
  rw [List.isEmpty_eq_false_iff]
  exact List.ne_nil_of_mem hmem

instance (b : Exclusions) (q : Request) : Decidable (q.Nested b) :=
  inferInstanceAs (Decidable (_ ∧ _))

/-- A request that is made on a path: the first one, or a nested one. -/
inductive Request.Along (E : Exclusions) : List DefinitionKey → Request → Prop
  | outer {q : Request} (hexclude : q.exclude = E) (hbuilding : q.building = E) :
      Along E [] q
  | nested {k : DefinitionKey} {O : List DefinitionKey} {q : Request}
      (hnested : q.Nested (E.along (k :: O))) : Along E (k :: O) q

variable {E : Exclusions} {O : List DefinitionKey} {q : Request} {key : DefinitionKey}

theorem Request.Along.building (h : q.Along E O) : q.building = E.along O := by
  cases h with
  | outer _ hbuilding => exact hbuilding
  | nested hnested => exact hnested.1

/-- A request without identifier on a path excludes what the caller does and what is on the path. -/
theorem Request.Along.exclude (h : q.Along E O) (hkey : q.key? = .ok key)
    (hunnamed : key.identifier = none) : q.exclude = E.along O := by
  cases h with
  | outer hexclude _ => exact hexclude
  | nested hnested =>
    refine hnested.2.resolve_left fun htruthy => ?_
    have hsome := isSome_of_truthy hkey htruthy
    rw [hunnamed] at hsome
    cases hsome

/-! ### The resolution along a path -/

/-- What remains of an interface in the container of an injector. -/
def Store.remaining (s : Store) (r : Ref Injector) (interface : String) (E : Exclusions) :
    List (Option String × Ref DefinitionCell) :=
  Selection.remaining (s.containers.get (s.injectors.get r).container) interface E

/-- The default definition of an interface among those that remain, or else the first one. -/
def Store.preferred (s : Store) (r : Ref Injector) (interface : String) (E : Exclusions) :
    Except Fault (Ref DefinitionCell) :=
  (Selection.preferred (fun d => (s.definitions.get d).identifier)
    ((s.remaining r interface E).map Prod.snd)).elim
      (.error (.notFound (Selection.shortage
        (s.containers.get (s.injectors.get r).container) interface))) .ok

/-- The definition that a key selects, on a path of a caller with exclusions. -/
def Store.selectedAlong (s : Store) (r : Ref Injector) (E : Exclusions) (O : List DefinitionKey)
    (key : DefinitionKey) : Except Fault (Ref DefinitionCell) :=
  let c := s.containers.get (s.injectors.get r).container
  match key.identifier with
  | some _ =>
    match c.find? key with
    | none => .error (.notFound (c.absence key))
    | some d => if key ∈ E.keys ∨ key ∈ O then .error (.circular key (E.along O)) else .ok d
  | none =>
    if O = [] then Selection.unnamed (fun d => (s.definitions.get d).identifier) c key.interface E
    else s.preferred r key.interface (E.along O)

/-- Answers a request on a path. Its sets are for the journal only. -/
def stepAlong (E : Exclusions) (O : List DefinitionKey) (nested : DefinitionKey → Answering) :
    Answering := fun r q given => do
  note (.requested q.interface q.identifier q.exclude q.building)
  let key ← Work.lift q.key?
  match ← (if given.isNone then instance? r key (E.along O) else pure none) with
  | some v => pure v
  | none =>
    let s ← get
    let d ← Work.lift (s.selectedAlong r E O key)
    build (nested ⟨key.interface, (s.definitions.get d).identifier⟩) r key.interface d (E.along O)
      given

/-- Answers requests along a path. Those that are made in the course of the innermost build stay on
it. A request from outside begins a path of its own, and one with a context of its own is left to
the resolution. -/
def answerAlong : Nat → Exclusions → List DefinitionKey → Answering
  | 0, _, _ => fun _ _ _ => Work.foreign .recursion
  | n + 1, E, O => stepAlong E O fun k r q given =>
    if q.Nested (E.along (k :: O)) then answerAlong n E (k :: O) r q given
    else if q.exclude = q.building then answerAlong n q.exclude [] r q given
    else answer n r q given

theorem selected_eq_selectedAlong (s : Store) (r : Ref Injector) (h : q.Along E O)
    (hkey : q.key? = .ok key) : s.selected r q key = s.selectedAlong r E O key := by
  unfold Store.selected Store.selectedAlong Selection.select
  cases hidentifier : key.identifier with
  | some i =>
    unfold Selection.named Container.get
    dsimp only
    rw [h.building]
    cases (s.containers.get (s.injectors.get r).container).find? key with
    | none => rfl
    | some d =>
      dsimp only
      unfold Exclusions.contains
      simp only [decide_eq_true_eq, Exclusions.mem_along]
  | none =>
    dsimp only
    rw [h.exclude hkey hidentifier]
    split
    · rename_i hO
      rw [hO]
      rfl
    · rename_i hO
      exact Selection.unnamed_eq_preferred (Exclusions.isEmpty_along hO)

/-- A look for an object that was set needs no set for a key with an identifier. -/
theorem instance?_eq (r : Ref Injector) (h : q.Along E O) (hkey : q.key? = .ok key) :
    instance? r key q.exclude = instance? r key (E.along O) := by
  cases hidentifier : key.identifier with
  | some i =>
    unfold instance?
    rw [hidentifier]
    rfl
  | none => rw [h.exclude hkey hidentifier]

/-- The resolution goes along the path. -/
theorem answer_eq_answerAlong (n : Nat) (h : q.Along E O) (r : Ref Injector) (given : Given) :
    answer n r q given = answerAlong n E O r q given := by
  induction n generalizing E O q r given with
  | zero => rfl
  | succ n ih =>
    -- A component asks either for what is nested in its own construction, which extends the path,
    -- or with exclusions that it made itself, where a path starts anew.
    have hnested : ∀ k : DefinitionKey, (fun r q given =>
        if q.Nested (E.along (k :: O)) then answerAlong n E (k :: O) r q given
        else if q.exclude = q.building then answerAlong n q.exclude [] r q given
        else answer n r q given) = answer n := by
      intro k
      funext r q given
      split
      · rename_i hon
        exact (ih (.nested hon) r given).symm
      · split
        · rename_i hsame
          exact (ih (.outer rfl hsame.symm) r given).symm
        · rfl
    show step (answer n) r q given = stepAlong E O _ r q given
    unfold step stepAlong
    refine bind_congr fun _ => ?_
    cases hkey : q.key? with
    | error e => rw [Work.lift_error_bind, Work.lift_error_bind]
    | ok key =>
      rw [Work.lift_ok_bind, Work.lift_ok_bind, instance?_eq r h hkey]
      refine bind_congr fun found => ?_
      cases found with
      | some v => rfl
      | none =>
        refine bind_congr fun s => ?_
        dsimp only
        have hselected := selected_eq_selectedAlong s r h hkey
        unfold Store.selected at hselected
        rw [hselected]
        refine bind_congr fun d => ?_
        rw [hnested, h.building]

/-- So does the answer to a request from outside, whose path is empty. -/
theorem resolve_eq_answerAlong (s : Store) (r : Ref Injector) (hexclude : q.exclude = E)
    (hbuilding : q.building = E) (given : Given) :
    s.resolve r q given
      = (answerAlong s.depth E [] r q given).run { s with journal := [] } := by
  unfold Store.resolve
  rw [answer_eq_answerAlong _ (.outer hexclude hbuilding)]

/-! ### What a request comes to -/

/-- No object that was set answers a request. -/
def Store.Unserved (s : Store) (r : Ref Injector) (key : DefinitionKey) (exclude : Exclusions)
    (given : Given) : Prop :=
  given.isSome = true ∨ (key.identifier = none ∧ key ∈ exclude.keys) ∨
    ∀ v, (s.injectors.get r).instances.get? key = some v → v = .null

/-- The store in which a request is noted. -/
def Store.asked (s : Store) (q : Request) : Store :=
  { s with journal := .requested q.interface q.identifier q.exclude q.building :: s.journal }

theorem Store.Unserved.setFor_eq {s : Store} {r : Ref Injector} {exclude : Exclusions}
    {given : Given} (h : s.Unserved r key exclude given) : s.setFor r given key exclude = none := by
  unfold Store.setFor
  split
  · rfl
  · rename_i hgiven
    split
    · rfl
    · rename_i hfree
      have hnull := (h.resolve_left hgiven).resolve_left fun hexcluded => hfree (by
        simpa [Exclusions.contains] using hexcluded)
      cases hset : (s.injectors.get r).instances.get? key with
      | none => rfl
      | some v =>
        rw [hnull v hset]
        rfl

/-- A request that no set object answers is refused, or the selected definition is built. -/
theorem run_step {answer : Answering} {s : Store} {r : Ref Injector} {given : Given}
    (hkey : q.key? = .ok key) (hunserved : s.Unserved r key q.exclude given) :
    (step answer r q given).run s
      = match s.selected r q key with
        | .ok d => (build answer r key.interface d q.building given).run (s.asked q)
        | .error e => (.error e, s.asked q) := by
  have hset : (s.asked q).Unserved r key q.exclude given := hunserved
  unfold step
  rw [run_bind_ok (run_note _ s), hkey, Work.lift_ok_bind]
  show (_ >>= _ : Action Value).run (s.asked q) = _
  rw [run_bind_ok (run_instance?_eq r given key q.exclude _), hset.setFor_eq, Option.map_none,
    run_bind_ok (run_get _)]
  show (Work.lift ((s.asked q).selected r q key) >>= _ : Action Value).run (s.asked q) = _
  have hsame : (s.asked q).selected r q key = s.selected r q key := rfl
  rw [hsame]
  cases s.selected r q key with
  | ok d => rw [Work.lift_ok_bind]
  | error e => rw [Work.lift_error_bind, run_lift]

/-- A request fails as the selection does, or with the site of a build. -/
theorem step_eq_error_iff {answer : Answering} {s : Store} {r : Ref Injector} {given : Given}
    {e : Fault} (hkey : q.key? = .ok key) (hunserved : s.Unserved r key q.exclude given)
    (he : ∀ site reason, e ≠ .resolution site reason) :
    ((step answer r q given).run s).1 = .error e ↔ s.selected r q key = .error e := by
  rw [run_step hkey hunserved]
  cases s.selected r q key with
  | error e' =>
    constructor
    · intro h
      cases h
      rfl
    · intro h
      cases h
      rfl
  | ok d =>
    constructor
    · intro h
      obtain ⟨site, reason, hsite, -⟩ := unbuilt_of_build (Prod.ext h rfl)
      exact absurd hsite (he site reason)
    · intro h
      cases h

variable {s : Store} {r : Ref Injector}

theorem key?_unnamed {interface : String} {x b : Exclusions} (h : interface ≠ "") :
    (⟨.text interface, .null, x, b⟩ : Request).key? = .ok ⟨interface, none⟩ := by
  unfold Request.key? Value.name?
  simp [h, DefinitionOf.checkIdentifier, Except.map, Except.mapError]

theorem depth_eq (s : Store) : s.depth = (s.depth - 1) + 1 := by
  unfold Store.depth
  exact (Nat.succ_pred (by positivity)).symm

theorem selected_eq_circular_iff {x b b' : Exclusions} {i id : Value} {k : DefinitionKey}
    (hb : E.Extended O b) :
    s.selected r ⟨i, id, x, b⟩ key = .error (.circular k b') ↔
      k = key ∧ b' = b ∧ key.identifier.isSome = true ∧
        ((s.containers.get (s.injectors.get r).container).find? key).isSome = true ∧
        (key ∈ E.keys ∨ key ∈ O) := by
  unfold Store.selected Selection.select
  rw [← hb key]
  cases hidentifier : key.identifier with
  -- Only a request that names its definition is refused for being under construction.
  | some i =>
    unfold Selection.named Container.get Exclusions.contains
    dsimp only
    cases (s.containers.get (s.injectors.get r).container).find? key with
    | none => simp
    | some d =>
      dsimp only
      split
      · rename_i hmem
        simp_all [eq_comm]
      · rename_i hfree
        simp_all
  | none =>
    dsimp only
    simp only [Option.isSome_none, Bool.false_eq_true, false_and, and_false, iff_false]
    exact Selection.unnamed_ne_circular

/-- A request is refused as circular exactly when it has an identifier, no object that was set
answers it, and its definition is excluded by the caller or on the path. Every run of a request from
outside goes along its path. As long as no member of a component is run, what is on the path is
under construction at that moment. -/
theorem answer_circular (s : Store) (r : Ref Injector) (E : Exclusions) :
    (∀ q given, q.exclude = E → q.building = E →
      s.resolve r q given = (answerAlong s.depth E [] r q given).run { s with journal := [] }) ∧
    (∀ n O q key given t, q.Along E O → q.key? = .ok key → t.Unserved r key q.exclude given →
      ∀ k b, ((answer (n + 1) r q given).run t).1 = .error (.circular k b) ↔
        k = key ∧ b = E.along O ∧ key.identifier.isSome = true ∧
          ((t.containers.get (t.injectors.get r).container).find? key).isSome = true ∧
          (key ∈ E.keys ∨ key ∈ O)) ∧
    (∀ q given, s.Ready r → q.building = E → Undisturbed (s.resolve r q given).2.journal →
      ∀ i id x b earlier, (.requested i id x b :: earlier) <:+ (s.resolve r q given).2.journal →
        ∀ key k b', s.selected r ⟨i, id, x, b⟩ key = .error (.circular k b') ↔
          k = key ∧ b' = b ∧ key.identifier.isSome = true ∧
            ((s.containers.get (s.injectors.get r).container).find? key).isSome = true ∧
            (key ∈ E.keys ∨ key ∈ underConstruction earlier)) := by
  refine ⟨fun q given hexclude hbuilding => resolve_eq_answerAlong s r hexclude hbuilding given,
    fun n O q key given t halong hkey hunserved k b => ?_,
    fun q given hr hbuilding hundisturbed i id x b earlier hj key k b' => ?_⟩
  · have hb : E.Extended O q.building := fun _ => halong.building ▸ Exclusions.mem_along
    show ((step (answer n) r q given).run t).1 = _ ↔ _
    rw [step_eq_error_iff hkey hunserved (by simp), ← halong.building]
    exact selected_eq_circular_iff hb
  · have hmoment := (orderly_resolve hr q given hundisturbed).moments _ hj
    obtain ⟨hb, -⟩ := hmoment.requested _ _ _ _ _ rfl
    rw [hbuilding] at hb
    exact selected_eq_circular_iff hb

/-- Two definitions that request each other by their identifiers. -/
def loopStore : Store :=
  { brokenStore "a" "b" with
    arguments := ⟨[⟨"next", "dependency", [(.text "interface", .text "A"), (.text "id", .text "b")]⟩,
      ⟨"next", "dependency", [(.text "interface", .text "A"), (.text "id", .text "a")]⟩]⟩ }

/-- When the first definition is asked for again, it is under construction, and it is refused. -/
theorem answer_circular_loop :
    loopStore.Ready ⟨0⟩ ∧
    Undisturbed (loopStore.resolve ⟨0⟩ (.plain (.text "A") (.text "a")) none).2.journal ∧
    underConstruction (loopStore.resolve ⟨0⟩ (.plain (.text "A") (.text "a")) none).2.journal
      = [⟨"A", some "b"⟩, ⟨"A", some "a"⟩] ∧
    ((answer 1 ⟨0⟩ ⟨.text "A", .text "a", .empty, ⟨[⟨"A", some "a"⟩, ⟨"A", some "b"⟩]⟩⟩ none).run
        loopStore).1
      = .error (.circular ⟨"A", some "a"⟩ ⟨[⟨"A", some "a"⟩, ⟨"A", some "b"⟩]⟩) ∧
    ∀ i id x b earlier,
      (.requested i id x b :: earlier) <:+
        (loopStore.resolve ⟨0⟩ (.plain (.text "A") (.text "a")) none).2.journal →
      (loopStore.selected ⟨0⟩ ⟨i, id, x, b⟩ ⟨"A", some "a"⟩
          = .error (.circular ⟨"A", some "a"⟩ b) ↔
        ⟨"A", some "a"⟩ ∈ underConstruction earlier) := by
  -- What readiness asks of the definitions is decided over the entries.
  have hentries : ∀ e ∈ (loopStore.containers.get ⟨0⟩).entries,
      e.2.index < 2 ∧ (loopStore.definitions.get e.2).identifier = e.1.identifier := by
    decide +kernel
  have hready : loopStore.Ready ⟨0⟩ := ⟨Nat.zero_lt_one, Nat.zero_lt_one, fun k d h =>
    hentries (k, d) (Container.mem_entries_iff.mpr h)⟩
  have hundisturbed :
      Undisturbed (loopStore.resolve ⟨0⟩ (.plain (.text "A") (.text "a")) none).2.journal := by
    decide +kernel
  obtain ⟨-, hrefused, hmoments⟩ := answer_circular loopStore ⟨0⟩ .empty
  refine ⟨hready, hundisturbed, by decide +kernel, ?_, fun i id x b earlier hj => ?_⟩
  · refine (hrefused 0 [⟨"A", some "b"⟩, ⟨"A", some "a"⟩] _ ⟨"A", some "a"⟩ none loopStore
      (.nested ⟨rfl, .inl (by decide)⟩) rfl (.inr (.inr fun v h => by cases h)) _ _).mpr ?_
    exact ⟨rfl, rfl, rfl, rfl, .inr (by decide)⟩
  · have hfound : ((loopStore.containers.get (loopStore.injectors.get ⟨0⟩).container).find?
        ⟨"A", some "a"⟩).isSome = true := by decide +kernel
    rw [hmoments _ none hready rfl hundisturbed i id x b earlier hj ⟨"A", some "a"⟩, hfound]
    simp [Exclusions.empty]

/-- A definition that the caller excludes is refused by its identifier too, although nothing is
under construction. -/
theorem ringStore_excluded :
    (ringStore.resolve ⟨0⟩ ⟨.text "A", .text "end", ⟨[⟨"A", some "end"⟩]⟩,
        ⟨[⟨"A", some "end"⟩]⟩⟩ none).1
      = .error (.circular ⟨"A", some "end"⟩ ⟨[⟨"A", some "end"⟩]⟩) ∧
    underConstruction (ringStore.resolve ⟨0⟩ ⟨.text "A", .text "end", ⟨[⟨"A", some "end"⟩]⟩,
      ⟨[⟨"A", some "end"⟩]⟩⟩ none).2.journal = [] :=
  ⟨rfl, by decide +kernel⟩

end Wiring
