import Wiring.Proofs.Contexts

/-!
# `Wiring.Proofs.Gathering`: an object for each definition of an interface

A request for all objects of an interface asks for its definitions one after the other, each by its
identifier. The default one has none and goes through the rule for requests without identifier, and
yet each definition answers for itself (`Store.Keyed.selectedAlong_own`). `answerOwn` is what comes
of an entry: the object that was set for it, or one that is built from its definition with nothing
but its own key under construction.

`Gathered` goes from entry to entry, and `requestAll_gathers` says that this is the request. An
entry leaves all that was set and defined as it was, so it decides neither which object or
definition answers the next ones nor what is requested inside of them. What the code that it ran did
to a mapping or a list is another matter: the next entry may show it, or fail
(`poppingStore_differs`).
-/

set_option autoImplicit false

namespace Wiring

open Work Store

variable {s : Store} {r : Ref Injector} {interface : String} {other : Answering}
  {e : Option String × Ref DefinitionCell}

/-! ### The entries of an interface -/

/-- The definitions of an interface in the container of an injector, by their identifiers. -/
def Store.entriesOf (s : Store) (r : Ref Injector) (interface : String) :
    List (Option String × Ref DefinitionCell) :=
  ((s.containers.get (s.injectors.get r).container).definitions interface).entries

/-- The request for an entry of an interface. -/
def ownRequest (interface : String) (i : Option String) : Request :=
  .plain (.text interface) (Value.optional i)

/-- It asks for the key of the entry. -/
theorem key?_ownRequest {i : Option String} (hinterface : interface ≠ "") (hi : i ≠ some "") :
    (ownRequest interface i).key? = .ok ⟨interface, i⟩ := by
  cases i with
  | none => exact key?_unnamed hinterface
  | some i =>
    have hname : i ≠ "" := fun h => hi (h ▸ rfl)
    simp [Request.key?, ownRequest, Request.plain, Value.optional, Value.name?, hinterface, hname,
      DefinitionOf.checkIdentifier, Except.map, Except.mapError]

theorem Store.find?_of_mem_entriesOf (he : e ∈ s.entriesOf r interface) :
    (s.containers.get (s.injectors.get r).container).find? ⟨interface, e.1⟩ = some e.2 :=
  OrderedMap.get?_eq_some_iff.mpr he

/-- Each entry selects its own definition, the default one wherever it stands. -/
theorem Store.Keyed.selectedAlong_own (hkeyed : s.Keyed (s.injectors.get r).container)
    (he : e ∈ s.entriesOf r interface) :
    s.selectedAlong r .empty [] ⟨interface, e.1⟩ = .ok e.2 := by
  unfold Store.selectedAlong
  obtain ⟨i, d⟩ := e
  -- A request for the default one looks through all entries, but no other has no identifier.
  cases i with
  | some i =>
    dsimp only
    rw [find?_of_mem_entriesOf he]
    simp [Exclusions.empty]
  | none =>
    have hidentifier : ∀ x ∈ s.entriesOf r interface, (s.definitions.get x.2).identifier = x.1 :=
      fun x hx => (hkeyed.entries _ _ (find?_of_mem_entriesOf hx)).2
    refine Selection.unnamed_of_default hidentifier (List.mem_filter.mpr ⟨he, ?_⟩)
    simp [Exclusions.empty]

/-! ### What an entry comes to -/

/-- The object that was set for a key, unless it is null. -/
def Store.handed (s : Store) (r : Ref Injector) (key : DefinitionKey) : Option Value :=
  ((s.injectors.get r).instances.get? key).bind Value.present?

/-- Answers what is requested in the course of the build of a key by what was set and defined in a
store from before. -/
def answerInside (s₀ : Store) (other : Answering) (key : DefinitionKey) : Answering :=
  fun r q given =>
    if q.Nested ⟨[key]⟩ then answerFrom s₀ .empty other (s₀.depth - 1) [key] r q given
    else other r q given

/-- Builds a definition under its own key, with nothing else under construction. -/
def buildOwn (s₀ : Store) (other : Answering) (r : Ref Injector) (key : DefinitionKey)
    (d : Ref DefinitionCell) : Action Value := do
  let name := (s₀.definitions.get d).className
  note (.opened key d.index name)
  report [.creating key name]
  let object ← assemble (answerInside s₀ other key) r key.interface d ⟨[key]⟩ none
  note (.closed key d.index)
  pure object

/-- Answers for an entry of an interface: with the object that was set for it, as it is at that
moment, or with one that is built from its definition. -/
def answerOwn (s₀ : Store) (other : Answering) (r : Ref Injector) (interface : String)
    (e : Option String × Ref DefinitionCell) : Action Value := do
  note (.requested (.text interface) (Value.optional e.1) .empty .empty)
  (s₀.handed r ⟨interface, e.1⟩).elim (buildOwn s₀ other r ⟨interface, e.1⟩ e.2) look

theorem Exclusions.along_singleton (k : DefinitionKey) : Exclusions.empty.along [k] = ⟨[k]⟩ := by
  show Exclusions.empty.insert k = _
  simp [insert, empty]

/-- In a store that grew, a definition is built under its own key if nothing else is under
construction. -/
theorem run_build_own {s₀ u : Store} (hr : s₀.Ready r) (hu : s₀.Grows u)
    (he : e ∈ s₀.entriesOf r interface) :
    (build (answerInside s₀ other ⟨interface, e.1⟩) r interface e.2 .empty none).run u
      = (buildOwn s₀ other r ⟨interface, e.1⟩ e.2).run u := by
  obtain ⟨hheld, hidentifier⟩ := hr.keyed.entries _ _ (find?_of_mem_entriesOf he)
  have hcell : (Stored.cells u).get e.2 = s₀.definitions.get e.2 := hu.definitions.get hheld
  have hinserted : Exclusions.empty.insert ⟨interface, e.1⟩ = ⟨[⟨interface, e.1⟩]⟩ :=
    Exclusions.along_singleton _
  unfold build buildOwn
  rw [run_bind_ok (run_read e.2 u), hcell, hidentifier]
  dsimp only
  rw [hinserted]

/-- An answer from the start is that of the entry. -/
theorem run_answerFrom_own {s₀ u : Store} (hr : s₀.Ready r) (hu : s₀.Grows u)
    (hinterface : interface ≠ "") (he : e ∈ s₀.entriesOf r interface) (hnamed : e.1 ≠ some "") :
    (answerFrom s₀ .empty other s₀.depth [] r (ownRequest interface e.1) none).run u
      = (answerOwn s₀ other r interface e).run u := by
  obtain ⟨-, hidentifier⟩ := hr.keyed.entries _ _ (find?_of_mem_entriesOf he)
  rw [depth_eq s₀]
  show (stepFrom s₀ .empty [] _ r _ none).run u = _
  unfold stepFrom answerOwn
  rw [run_bind_ok (run_note _ _), run_bind_ok (run_note _ _), key?_ownRequest hinterface hnamed,
    Work.lift_ok_bind]
  -- Nothing is excluded, so an object that was set answers for the default one too.
  have hset : s₀.setFor r none ⟨interface, e.1⟩ (Exclusions.empty.along [])
      = s₀.handed r ⟨interface, e.1⟩ := by
    unfold Store.setFor
    simp [Exclusions.along, Exclusions.contains, Exclusions.empty, Store.handed]
  rw [hset]
  cases s₀.handed r ⟨interface, e.1⟩ with
  | some v => rfl
  | none =>
    have hgrown : s₀.Grows (u.asked (ownRequest interface e.1)) :=
      { hu with }
    refine Eq.trans ?_ (run_build_own hr hgrown he)
    rw [Option.elim_none]
    unfold buildFrom
    rw [hr.keyed.selectedAlong_own he, Work.lift_ok_bind]
    dsimp only
    rw [hidentifier]
    simp only [Exclusions.along_singleton]
    rfl

/-- An answer to the request for an entry is that of the entry, whatever was requested before. -/
theorem agrees_own (hr : s.Ready r) (hinterface : interface ≠ "") (he : e ∈ s.entriesOf r interface)
    (hnamed : e.1 ≠ some "") (other : Answering) :
    Agrees (Orderly s (s.keysOf r) .empty) []
      (answer s.depth r (ownRequest interface e.1) none)
      (answerOwn s other r interface e) := by
  have hfrom := agrees_answerFrom (E := .empty) hr other hr.missing_lt_depth
    (q := ownRequest interface e.1) (.outer rfl rfl) none
  refine hfrom.of_run fun u j hu => ?_
  have hgrown : s.Grows (u.withJournal j) := { hu.grows with }
  exact (run_answerFrom_own hr hgrown hinterface he hnamed).symm

/-! ### From entry to entry -/

/-- Some entries of an interface answer one after the other, each in the store that the one before
it left. -/
inductive Store.Gathered (s₀ : Store) (other : Answering) (r : Ref Injector) (interface : String) :
    Store → List (Option String × Ref DefinitionCell) → List (Option String × Value) → Store → Prop
  | nil {t : Store} : Gathered s₀ other r interface t [] [] t
  | cons {t u w : Store} {e : Option String × Ref DefinitionCell} {v : Value}
      {rest : List (Option String × Ref DefinitionCell)} {found : List (Option String × Value)}
      (hentry : (answerOwn s₀ other r interface e).run t = (.ok v, u))
      (hrest : Gathered s₀ other r interface u rest found w) :
      Gathered s₀ other r interface t (e :: rest) ((e.1, v) :: found) w

namespace Store.Gathered

variable {s₀ t u w : Store} {found : List (Option String × Value)}
  {before after : List (Option String × Ref DefinitionCell)}

/-- There is one answer for each entry, under its identifier. -/
theorem identifiers (h : s₀.Gathered other r interface t before found u) :
    found.map Prod.fst = before.map Prod.fst := by
  induction h with
  | nil => rfl
  | cons _ _ ih => rw [List.map_cons, List.map_cons, ih]

/-- What comes after some entries goes on in the store that they left. -/
theorem rest {early : List (Option String × Value)}
    (h : s₀.Gathered other r interface t (before ++ after) found w)
    (hbefore : s₀.Gathered other r interface t before early u) :
    ∃ late, s₀.Gathered other r interface u after late w := by
  induction hbefore generalizing found with
  | nil => exact ⟨found, h⟩
  | cons hentry _ ih =>
    cases h with
    | cons hentry' hrest =>
      rw [hentry] at hentry'
      cases hentry'
      exact ih hrest

theorem unique {found' : List (Option String × Value)}
    (h : s₀.Gathered other r interface t before found u)
    (h' : s₀.Gathered other r interface t before found' w) : found = found' ∧ u = w := by
  induction h generalizing found' with
  | nil =>
    cases h'
    exact ⟨rfl, rfl⟩
  | cons hentry _ ih =>
    cases h' with
    | cons hentry' hrest =>
      rw [hentry] at hentry'
      cases hentry'
      obtain ⟨rfl, rfl⟩ := ih hrest
      exact ⟨rfl, rfl⟩

end Store.Gathered

/-- An entry has its turn in a store: those before it answered, and the last one of them left the
store. -/
def Store.Reached (s₀ : Store) (other : Answering) (r : Ref Injector) (interface : String)
    (t : Store) (entries : List (Option String × Ref DefinitionCell))
    (e : Option String × Ref DefinitionCell) (u : Store) : Prop :=
  ∃ before after found, entries = before ++ e :: after ∧
    s₀.Gathered other r interface t before found u

namespace Store.Reached

variable {s₀ t u w : Store} {entries : List (Option String × Ref DefinitionCell)}

theorem not_nil : ¬ s₀.Reached other r interface t [] e u := by
  rintro ⟨before, after, found, hsplit, -⟩
  cases before <;> cases hsplit

/-- The first entry has its turn at once, and the others have theirs if it answers. -/
theorem cons_iff {first : Option String × Ref DefinitionCell} :
    s₀.Reached other r interface t (first :: entries) e u ↔
      (first = e ∧ u = t) ∨
      ∃ v x, (answerOwn s₀ other r interface first).run t = (.ok v, x) ∧
        s₀.Reached other r interface x entries e u := by
  constructor
  · rintro ⟨before, after, found, hsplit, hbefore⟩
    cases before with
    | nil =>
      cases hsplit
      cases hbefore
      exact .inl ⟨rfl, rfl⟩
    | cons x before =>
      cases hsplit
      cases hbefore with
      | cons hentry hrest => exact .inr ⟨_, _, hentry, before, after, _, rfl, hrest⟩
  · rintro (⟨rfl, rfl⟩ | ⟨v, x, hentry, before, after, found, rfl, hbefore⟩)
    · exact ⟨[], entries, [], rfl, .nil⟩
    · exact ⟨first :: before, after, _, rfl, .cons hentry hbefore⟩

/-- If all entries answer, so does each one in its turn. -/
theorem answers (h : s₀.Reached other r interface t entries e u)
    {found : List (Option String × Value)}
    (hall : s₀.Gathered other r interface t entries found w) :
    ∃ v x, (answerOwn s₀ other r interface e).run u = (.ok v, x) := by
  obtain ⟨before, after, early, rfl, hbefore⟩ := h
  obtain ⟨late, hlate⟩ := hall.rest hbefore
  cases hlate with
  | cons hentry _ => exact ⟨_, _, hentry⟩

theorem mem (h : s₀.Reached other r interface t entries e u) : e ∈ entries := by
  obtain ⟨before, after, found, rfl, -⟩ := h
  exact List.mem_append_right before List.mem_cons_self

end Store.Reached

theorem answerEach_cons (answer : Answering) (r : Ref Injector) (interface : String)
    (i : Option String) (rest : List (Option String)) :
    answerEach answer r interface (i :: rest)
      = answer r (ownRequest interface i) none >>= fun v =>
        (answerEach answer r interface rest >>= fun more => pure ((i, v) :: more)) := rfl

/-- What is undisturbed in the end was so before, since what was disturbed would stay so. -/
theorem undisturbed_of_answerEach {n : Nat} {identifiers : List (Option String)} {u w : Store}
    {outcome : Except Fault (List (Option String × Value))}
    (hrun : (answerEach (answer n) r interface identifiers).run u = (outcome, w))
    (hundisturbed : Undisturbed w.journal) : Undisturbed u.journal := by
  by_contra hdisturbed
  have hself := conforms_answerEach (C := .same True) (O := [])
    (fun q => disturbed_answer n r q none) interface identifiers
  have hend := hself.disturbed u hdisturbed
  rw [hrun] at hend
  exact hend hundisturbed

/-- Entries come to their end in one of two ways: all of them answer, or one fails in its turn.
Whenever one has its turn, all that was set and defined is still there. -/
theorem run_answerEach (hr : s.Ready r) (hinterface : interface ≠ "") (other : Answering)
    {entries : List (Option String × Ref DefinitionCell)}
    (hentries : ∀ e ∈ entries, e ∈ s.entriesOf r interface ∧ e.1 ≠ some "") {t w : Store}
    {outcome : Except Fault (List (Option String × Value))}
    (ht : Orderly s (s.keysOf r) .empty t) (hO : underConstruction t.journal = [])
    (hrun : (answerEach (answer s.depth) r interface (entries.map Prod.fst)).run t = (outcome, w))
    (hundisturbed : Undisturbed w.journal) :
    s.Grows w ∧
    (∀ e u, s.Reached other r interface t entries e u → s.Grows u) ∧
    ((∃ found, outcome = .ok found ∧ s.Gathered other r interface t entries found w) ∨
      ∃ fault e u, outcome = .error fault ∧ s.Reached other r interface t entries e u ∧
        (answerOwn s other r interface e).run u = (.error fault, w)) := by
  -- By induction on the entries. Each answer leaves the store in good order, with nothing under
  -- construction, and that is where the next one begins.
  induction entries generalizing t w outcome with
  | nil =>
    cases hrun
    exact ⟨ht.grows, fun _ _ h => absurd h Reached.not_nil, .inl ⟨[], rfl, .nil⟩⟩
  | cons e rest ih =>
    obtain ⟨he, hnamed⟩ := hentries e List.mem_cons_self
    have hagrees := (agrees_own hr hinterface he hnamed other).agrees t ht hO
    rw [List.map_cons, answerEach_cons] at hrun
    cases hfirst : (answer s.depth r (ownRequest interface e.1) none).run t with
    | mk result u =>
      rw [hfirst] at hagrees
      cases result with
      | error fault =>
        rw [run_bind_error hfirst] at hrun
        cases hrun
        obtain ⟨hentry, hw, -⟩ := hagrees hundisturbed
        refine ⟨hw.grows, fun x u hx => ?_,
          .inr ⟨fault, e, t, rfl, Reached.cons_iff.mpr (.inl ⟨rfl, rfl⟩), hentry⟩⟩
        rcases Reached.cons_iff.mp hx with ⟨rfl, rfl⟩ | ⟨v, y, hok, -⟩
        · exact ht.grows
        · rw [hentry] at hok
          cases hok
      | ok v =>
        rw [run_bind_ok hfirst, run_bind] at hrun
        cases hlast : (answerEach (answer s.depth) r interface (rest.map Prod.fst)).run u with
        | mk others x =>
          rw [hlast] at hrun
          have hsame : outcome = others.map ((e.1, v) :: ·) ∧ w = x := by
            cases others <;> (cases hrun; exact ⟨rfl, rfl⟩)
          obtain ⟨rfl, rfl⟩ := hsame
          have hbegun := undisturbed_of_answerEach hlast hundisturbed
          obtain ⟨hentry, hu, hopen⟩ := hagrees hbegun
          obtain ⟨hkept, hbetween, hends⟩ := ih
            (fun x hx => hentries x (List.mem_cons_of_mem _ hx)) hu (hopen v rfl) hlast hundisturbed
          refine ⟨hkept, fun x y hx => ?_, hends.imp ?_ ?_⟩
          · rcases Reached.cons_iff.mp hx with ⟨rfl, rfl⟩ | ⟨v', z, hok, hx⟩
            · exact ht.grows
            · rw [hentry] at hok
              cases hok
              exact hbetween x y hx
          · rintro ⟨found, rfl, hgathered⟩
            exact ⟨_, rfl, .cons hentry hgathered⟩
          · rintro ⟨fault, x, y, rfl, hreached, hfails⟩
            exact ⟨fault, x, y, rfl, Reached.cons_iff.mpr (.inr ⟨v, u, hentry, hreached⟩), hfails⟩

/-! ### All entries -/

/-- What fails in the build of a definition is reported with its names. -/
theorem resolution_of_buildOwn {s₀ u w : Store} {key : DefinitionKey} {d : Ref DefinitionCell}
    {fault : Fault} (h : (buildOwn s₀ other r key d).run u = (.error fault, w)) :
    ∃ site reason, fault = .resolution site reason ∧ site.interface = key.interface ∧
      site.identifier = (w.definitions.get d).identifier := by
  unfold buildOwn at h
  have h := bind_eq_error_of_ok (run_note _ _) h
  have h := bind_eq_error_of_ok (run_report _ _) h
  rcases bind_eq_error h with hassembled | ⟨_, _, _, hdone⟩
  · obtain ⟨site, reason, rfl, hsite⟩ := unbuilt_of_assemble hassembled
    cases hsite with
    | constructor _ _ => exact ⟨_, _, rfl, rfl, rfl⟩
    | call _ _ _ => exact ⟨_, _, rfl, rfl, rfl⟩
  · cases hdone

theorem run_answerOwn (s₀ : Store) (other : Answering) (r : Ref Injector) (interface : String)
    (e : Option String × Ref DefinitionCell) (u : Store) :
    (answerOwn s₀ other r interface e).run u
      = ((s₀.handed r ⟨interface, e.1⟩).elim (buildOwn s₀ other r ⟨interface, e.1⟩ e.2) look).run
          (u.asked (ownRequest interface e.1)) :=
  run_bind_ok (run_note _ _)

/-- An entry answers if an object was set for it or its definition can be built. -/
theorem isOk_answerOwn_iff {s₀ u : Store} :
    ((answerOwn s₀ other r interface e).run u).1.isOk = true ↔
      (s₀.handed r ⟨interface, e.1⟩).isSome = true ∨
      ((buildOwn s₀ other r ⟨interface, e.1⟩ e.2).run
        (u.asked (ownRequest interface e.1))).1.isOk = true := by
  rw [run_answerOwn]
  cases s₀.handed r ⟨interface, e.1⟩ with
  | some v => exact ⟨fun _ => .inl rfl, fun _ => rfl⟩
  | none => exact ⟨.inr, fun h => h.resolve_left Bool.false_ne_true⟩

/-- An entry that fails has no object that was set for it, and its definition cannot be built. -/
theorem answerOwn_eq_error {s₀ u w : Store} {fault : Fault}
    (h : (answerOwn s₀ other r interface e).run u = (.error fault, w)) :
    s₀.handed r ⟨interface, e.1⟩ = none ∧
      (buildOwn s₀ other r ⟨interface, e.1⟩ e.2).run (u.asked (ownRequest interface e.1))
        = (.error fault, w) := by
  rw [run_answerOwn] at h
  cases hset : s₀.handed r ⟨interface, e.1⟩ with
  | some v =>
    rw [hset] at h
    cases h
  | none =>
    rw [hset] at h
    exact ⟨rfl, h⟩

/-- A request for all objects of an interface goes through its entries. -/
theorem requestAll_ends (hr : s.Ready r) (hinterface : interface ≠ "")
    (hnamed : ∀ e ∈ s.entriesOf r interface, e.1 ≠ some "") (other : Answering) {w : Store}
    {outcome : Except Fault (List (Option String × Value))}
    (hrun : (requestAll r (.text interface)).run (s.withJournal []) = (outcome, w))
    (hundisturbed : Undisturbed w.journal) :
    s.Grows w ∧
    (∀ e u, s.Reached other r interface (s.withJournal []) (s.entriesOf r interface) e u →
      s.Grows u) ∧
    ((∃ found, outcome = .ok found ∧
        s.Gathered other r interface (s.withJournal []) (s.entriesOf r interface) found w) ∨
      ∃ fault e u, outcome = .error fault ∧
        s.Reached other r interface (s.withJournal []) (s.entriesOf r interface) e u ∧
        (answerOwn s other r interface e).run u = (.error fault, w)) := by
  have hlisted : (s.withJournal []).listed r (.text interface)
      = .ok ((s.entriesOf r interface).map Prod.fst) := by
    have hname : (Value.text interface).name? = some interface := if_neg hinterface
    unfold Store.listed Container.checkInterface
    rw [hname]
    rfl
  have hstart : Orderly s (s.keysOf r) .empty (s.withJournal []) :=
    ⟨{ Grows.refl s with }, (orderly_start s (s.keysOf r) .empty).moments⟩
  rw [run_requestAll, answerAll_eq, run_bind_ok (run_get _), hlisted, Work.lift_ok_bind] at hrun
  exact run_answerEach hr hinterface other (fun e he => ⟨he, hnamed e he⟩) hstart rfl hrun
    hundisturbed

/-- A request for all objects of an interface has an answer if and only if each definition, in its
turn, has an object that was set for it or can be built. The answer holds one object for each
definition, under its identifier and in their order, and each definition answered for itself. A
request that fails does so at the first definition that has neither, and its fault names that one.

All that was set and defined is still there whenever an entry has its turn. `other` would answer
what is not nested in the build of an entry, and it can be anything: an entry, and what is requested
inside of it, is answered by what was set and defined before the request. -/
theorem requestAll_gathers (hr : s.Ready r) (hinterface : interface ≠ "")
    (hnamed : ∀ e ∈ s.entriesOf r interface, e.1 ≠ some "") (other : Answering)
    (hundisturbed :
      Undisturbed ((requestAll r (.text interface)).run (s.withJournal [])).2.journal) :
    (∀ found w, (requestAll r (.text interface)).run (s.withJournal []) = (.ok found, w) ↔
      s.Gathered other r interface (s.withJournal []) (s.entriesOf r interface) found w) ∧
    (∀ found w, (requestAll r (.text interface)).run (s.withJournal []) = (.ok found, w) →
      found.map Prod.fst = (s.entriesOf r interface).map Prod.fst) ∧
    (((requestAll r (.text interface)).run (s.withJournal [])).1.isOk = true ↔
      ∀ e u, s.Reached other r interface (s.withJournal []) (s.entriesOf r interface) e u →
        (s.handed r ⟨interface, e.1⟩).isSome = true ∨
        ((buildOwn s other r ⟨interface, e.1⟩ e.2).run
          (u.asked (ownRequest interface e.1))).1.isOk = true) ∧
    (∀ fault w, (requestAll r (.text interface)).run (s.withJournal []) = (.error fault, w) →
      ∃ e u, s.Reached other r interface (s.withJournal []) (s.entriesOf r interface) e u ∧
        s.handed r ⟨interface, e.1⟩ = none ∧
        (buildOwn s other r ⟨interface, e.1⟩ e.2).run (u.asked (ownRequest interface e.1))
          = (.error fault, w) ∧
        ∃ site reason, fault = .resolution site reason ∧ site.interface = interface ∧
          site.identifier = e.1) ∧
    (∀ e u, s.Reached other r interface (s.withJournal []) (s.entriesOf r interface) e u →
      s.Grows u) := by
  cases hrun : (requestAll r (.text interface)).run (s.withJournal []) with
  | mk outcome w =>
    rw [hrun] at hundisturbed
    obtain ⟨hkept, hbetween, hends⟩ := requestAll_ends hr hinterface hnamed other hrun hundisturbed
    rcases hends with ⟨found, rfl, hall⟩ | ⟨fault, e, u, rfl, hreached, hfails⟩
    · refine ⟨fun found' w' => ⟨fun h => ?_, fun h => ?_⟩, fun found' w' h => ?_,
        ⟨fun _ e u hreached => ?_, fun _ => rfl⟩, nofun, hbetween⟩
      · cases h
        exact hall
      · obtain ⟨rfl, rfl⟩ := hall.unique h
        rfl
      · cases h
        exact hall.identifiers
      · obtain ⟨v, x, hentry⟩ := hreached.answers hall
        exact isOk_answerOwn_iff.mp (by rw [hentry]; rfl)
    -- One that fails in its turn would have to answer in it.
    · obtain ⟨hunset, hunbuilt⟩ := answerOwn_eq_error hfails
      refine ⟨fun found w' => ⟨nofun, fun h => ?_⟩, nofun, ⟨nofun, fun h => ?_⟩,
        fun fault' w' h => ?_, hbetween⟩
      · obtain ⟨v, x, hentry⟩ := hreached.answers h
        rw [hfails] at hentry
        cases hentry
      · have hok := isOk_answerOwn_iff.mpr (h e u hreached)
        rw [hfails] at hok
        cases hok
      · cases h
        obtain ⟨site, reason, hfault, hsite, hidentifier⟩ := resolution_of_buildOwn hunbuilt
        obtain ⟨hheld, hkey⟩ := hr.keyed.entries _ _ (find?_of_mem_entriesOf hreached.mem)
        rw [hkept.definitions.get hheld, hkey] at hidentifier
        exact ⟨e, u, hreached, hunset, hunbuilt, site, reason, hfault, hsite, hidentifier⟩

/-- The ring with its default definition behind the other one, for which an object was set. -/
def lateStore : Store :=
  { ringStore with
    containers := ⟨[((Container.empty.addOne "A" (some "end") ⟨2⟩).addOne "B" (some "back")
      ⟨1⟩).addOne "A" none ⟨0⟩]⟩
    injectors := ⟨[⟨⟨0⟩, ⟨0⟩, none, Parser.standard,
      OrderedMap.ofList [(⟨"A", some "end"⟩, .int 7)]⟩]⟩ }

/-- There the set object answers first, and then the default definition is built. -/
theorem requestAll_gathers_late :
    lateStore.Ready ⟨0⟩ ∧ "A" ≠ "" ∧ (∀ e ∈ lateStore.entriesOf ⟨0⟩ "A", e.1 ≠ some "") ∧
    Undisturbed ((requestAll ⟨0⟩ (.text "A")).run (lateStore.withJournal [])).2.journal ∧
    lateStore.handed ⟨0⟩ ⟨"A", some "end"⟩ = some (.int 7) ∧
    ∃ found w, (requestAll ⟨0⟩ (.text "A")).run (lateStore.withJournal []) = (.ok found, w) ∧
      found.map Prod.fst = [some "end", none] ∧
      ∀ other, lateStore.Gathered other ⟨0⟩ "A" (lateStore.withJournal [])
        [(some "end", ⟨2⟩), (none, ⟨0⟩)] found w := by
  have hentries : ∀ e ∈ (lateStore.containers.get ⟨0⟩).entries,
      e.2.index < 3 ∧ (lateStore.definitions.get e.2).identifier = e.1.identifier := by
    decide +kernel
  have hready : lateStore.Ready ⟨0⟩ := ⟨Nat.zero_lt_one, Nat.zero_lt_one, fun k d h =>
    hentries (k, d) (Container.mem_entries_iff.mpr h)⟩
  have hnamed : ∀ e ∈ lateStore.entriesOf ⟨0⟩ "A", e.1 ≠ some "" := by decide +kernel
  have hundisturbed : Undisturbed
      ((requestAll ⟨0⟩ (.text "A")).run (lateStore.withJournal [])).2.journal := by
    decide +kernel
  have hok : ((requestAll ⟨0⟩ (.text "A")).run (lateStore.withJournal [])).1.isOk = true := by
    decide +kernel
  refine ⟨hready, by decide, hnamed, hundisturbed, rfl, ?_⟩
  cases hrun : (requestAll ⟨0⟩ (.text "A")).run (lateStore.withJournal []) with
  | mk outcome w =>
    rw [hrun] at hok
    cases outcome with
    | error fault => cases hok
    | ok found =>
      refine ⟨found, w, rfl, ?_, fun other => ?_⟩
      · exact (requestAll_gathers hready (by decide) hnamed exhausted hundisturbed).2.1 found w hrun
      · exact ((requestAll_gathers hready (by decide) hnamed other hundisturbed).1 found w).mp hrun

/-! ### What an entry leaves behind -/

/-- Two definitions with an argument that calls a method of an object that was set. -/
def poppingStore (method : String) (set : Value) : Store :=
  { Store.empty nodeProgram with
    collections := [.map [(.text "k", .int 1)]]
    arguments := ⟨[⟨"next", "call",
      [(.text "interface", .text "I"), (.text "method", .text method)]⟩]⟩
    calls := ⟨[⟨"__construct", none, [⟨0⟩]⟩]⟩
    definitions := ⟨[⟨"Node", some "first", ["A"], some ⟨0⟩, .empty⟩,
      ⟨"Node", some "second", ["A"], some ⟨0⟩, .empty⟩]⟩
    containers := ⟨[(Container.empty.addOne "A" (some "first") ⟨0⟩).addOne "A" (some "second") ⟨1⟩]⟩
    registries := ⟨[Registry.empty.register nodeProgram (.declared 0) (some "Node")]⟩
    injectors := ⟨[⟨⟨0⟩, ⟨0⟩, none, Parser.standard, OrderedMap.ofList [(⟨"I", none⟩, set)]⟩]⟩ }

/-- Where the first one that is built takes the only entry out of the mapping. -/
def emptiedStore : Store := poppingStore "popitem" (.map (some 0) [(.text "k", .int 1)])

/-- Where the first one that is built empties the container. -/
def clearedStore : Store := poppingStore "__init__" (Component.mk .container 0).value

/-- Each of the two definitions can be built alone, and yet the second one fails behind the first
one: it finds the mapping empty, or it is no longer in the container. -/
theorem poppingStore_differs :
    emptiedStore.Ready ⟨0⟩ ∧
    (∀ e ∈ emptiedStore.entriesOf ⟨0⟩ "A",
      (emptiedStore.resolve ⟨0⟩ (ownRequest "A" e.1) none).1.isOk = true) ∧
    Undisturbed ((requestAll ⟨0⟩ (.text "A")).run emptiedStore).2.journal ∧
    ((requestAll ⟨0⟩ (.text "A")).run emptiedStore).1.isOk = false ∧
    clearedStore.Ready ⟨0⟩ ∧
    (∀ e ∈ clearedStore.entriesOf ⟨0⟩ "A",
      (clearedStore.resolve ⟨0⟩ (ownRequest "A" e.1) none).1.isOk = true) ∧
    ((requestAll ⟨0⟩ (.text "A")).run clearedStore).1.isOk = false := by
  have hready : ∀ method set, (poppingStore method set).Ready ⟨0⟩ := by
    intro method set
    have hentries : ∀ e ∈ ((poppingStore "" .null).containers.get ⟨0⟩).entries, e.2.index < 2 ∧
        ((poppingStore "" .null).definitions.get e.2).identifier = e.1.identifier := by
      decide +kernel
    exact ⟨Nat.zero_lt_one, Nat.zero_lt_one, fun k d h =>
      hentries (k, d) (Container.mem_entries_iff.mpr h)⟩
  exact ⟨hready _ _, by decide +kernel, by decide +kernel, by decide +kernel, hready _ _,
    by decide +kernel, by decide +kernel⟩

end Wiring
