import Wiring.Proofs.Cells
import Wiring.Proofs.Faults
import Wiring.Store.Objects

/-!
# `Wiring.Proofs.Growth`: what making things leaves alone

Requests are answered from declarations, containers, registries, configurations and injectors.
`Grows s t` says that from `s` to `t` such cells were only made, that the objects kept their class
and their part, and that the browsers kept their directories. It says nothing about the collections,
the files and the records of calls, which the code of the program may change.

`Keeps I w` says that work keeps an invariant `I` of stores, writes nothing into the journal and
fails with no fault that tells of a build. The invariant is mostly `s₀.Grows`, where `s₀` is the
store from before some larger piece of work, so that a cell made in the meantime may still be
changed.
-/

set_option autoImplicit false

namespace Wiring

open Wiring.Files

namespace Cells

variable {α : Type} {c c' : Cells α} {r : Ref α}

/-- The next cell is none of the first ones. -/
theorem Extends.not_holds_next (h : c.Extends c') : ¬ c.Holds c'.next := by
  intro hr
  exact absurd (Nat.lt_of_lt_of_le hr h.length_le) (Nat.lt_irrefl _)

/-- A change of a new cell leaves the first ones alone. -/
theorem Extends.modify (h : c.Extends c') (hr : ¬ c.Holds r) (f : α → α) :
    c.Extends (c'.modify r f) := by
  have hlen : c.items.length ≤ r.index := Nat.le_of_not_lt hr
  have htake : (c'.items.modify r.index f).take c.items.length = c.items := by
    rw [List.take_modify, ← List.prefix_iff_eq_take.mp h, List.modify_eq_self hlen]
  exact List.prefix_iff_eq_take.mpr htake.symm

end Cells

/-- What an object is, apart from what it records. -/
def Object.kept (o : Object) : ClassRef × Option Value := (o.cls, o.part)

namespace Store

/-- From one store to the other, cells that requests are answered from were only made, and objects
and browsers kept what they are. -/
structure Grows (s t : Store) : Prop where
  program : t.program = s.program
  arguments : s.arguments.Extends t.arguments
  calls : s.calls.Extends t.calls
  definitions : s.definitions.Extends t.definitions
  containers : s.containers.Extends t.containers
  configs : s.configs.Extends t.configs
  registries : s.registries.Extends t.registries
  sources : s.sources.Extends t.sources
  contexts : s.contexts.Extends t.contexts
  injectors : s.injectors.Extends t.injectors
  settings : s.settings.Extends t.settings
  cores : s.cores.Extends t.cores
  objects : s.objects.map Object.kept <+: t.objects.map Object.kept
  browsers : s.browsers.items.map Browser.reset <+: t.browsers.items.map Browser.reset

variable {s s₀ t u : Store}

theorem Grows.refl (s : Store) : s.Grows s :=
  ⟨rfl, .refl _, .refl _, .refl _, .refl _, .refl _, .refl _, .refl _, .refl _, .refl _, .refl _,
    .refl _, List.prefix_refl _, List.prefix_refl _⟩

theorem Grows.trans (h : s.Grows t) (h' : t.Grows u) : s.Grows u where
  program := h'.program.trans h.program
  arguments := h.arguments.trans h'.arguments
  calls := h.calls.trans h'.calls
  definitions := h.definitions.trans h'.definitions
  containers := h.containers.trans h'.containers
  configs := h.configs.trans h'.configs
  registries := h.registries.trans h'.registries
  sources := h.sources.trans h'.sources
  contexts := h.contexts.trans h'.contexts
  injectors := h.injectors.trans h'.injectors
  settings := h.settings.trans h'.settings
  cores := h.cores.trans h'.cores
  objects := h.objects.trans h'.objects
  browsers := h.browsers.trans h'.browsers

/-- An object stays there with its class and its part. -/
theorem Grows.object (h : s.Grows t) {id : Nat} {o : Object} (ho : s.objects[id]? = some o) :
    ∃ o', t.objects[id]? = some o' ∧ o'.kept = o.kept := by
  obtain ⟨more, hmore⟩ := h.objects
  have hkept : (t.objects.map Object.kept)[id]? = some o.kept := by
    rw [← hmore, List.getElem?_append_left, List.getElem?_map, ho]
    · rfl
    · rw [List.length_map]
      exact (List.getElem?_eq_some_iff.mp ho).1
  rwa [List.getElem?_map, Option.map_eq_some_iff] at hkept

/-! ### Stores that show the same -/

/-- Two stores that differ in nothing that a value or a container shows. -/
structure Matches (s t : Store) : Prop where
  collections : t.collections = s.collections
  arguments : t.arguments = s.arguments
  calls : t.calls = s.calls
  definitions : t.definitions = s.definitions
  containers : t.containers = s.containers
  settings : t.settings = s.settings
  contexts : t.contexts = s.contexts

namespace Matches

variable {s t : Store}

theorem partsOf (h : s.Matches t) : t.partsOf = s.partsOf := by
  funext c
  unfold Store.partsOf
  rw [h.arguments, h.calls, h.definitions, h.containers, h.settings, h.contexts]

theorem lookAt (h : s.Matches t) (n : Nat) : t.lookAt n = s.lookAt n := by
  induction n with
  | zero => rfl
  | succ n ih =>
    funext way around v
    cases v with
    | list p items => rw [Store.lookAt, Store.lookAt, ih, itemsAt, h.collections, ← itemsAt]
    | map p entries => rw [Store.lookAt, Store.lookAt, ih, entriesAt, h.collections, ← entriesAt]
    | component c parts => rw [Store.lookAt, Store.lookAt, ih, h.partsOf]
    | _ => rfl

theorem current (h : s.Matches t) (v : Value) : t.current v = s.current v := by
  unfold Store.current nesting
  rw [h.lookAt, h.collections, h.arguments, h.calls, h.definitions, h.containers, h.settings]

theorem argument (h : s.Matches t) : t.argument = s.argument := by
  funext r
  unfold Store.argument
  rw [h.arguments]
  simp only [h.current]

theorem container (h : s.Matches t) (r : Ref ContainerCell) : t.container r = s.container r := by
  have hcall : t.call = s.call := by
    funext r
    unfold call
    rw [h.calls, h.argument]
  have hdefinition : t.definition = s.definition := by
    funext r
    unfold definition
    rw [h.definitions, hcall]
  unfold Store.container
  rw [h.containers, hdefinition]

end Matches

/-! ### Other journals -/

/-- A store with another journal. -/
def withJournal (s : Store) (j : List JournalEntry) : Store := { s with journal := j }

/-- What a store shows does not depend on the journal. -/
theorem matches_withJournal (s : Store) (j : List JournalEntry) : s.Matches (s.withJournal j) :=
  ⟨rfl, rfl, rfl, rfl, rfl, rfl, rfl⟩

@[simp] theorem current_withJournal (s : Store) (j : List JournalEntry) (v : Value) :
    (s.withJournal j).current v = s.current v := (s.matches_withJournal j).current v

@[simp] theorem currentAll_withJournal (s : Store) (j : List JournalEntry)
    (vs : List (String × Value)) : (s.withJournal j).currentAll vs = s.currentAll vs := by
  simp [currentAll]

@[simp] theorem content_withJournal (s : Store) (j : List JournalEntry) (v : Value) :
    (s.withJournal j).content v = s.content v := by
  cases v with
  | object id =>
    simp only [content, current_withJournal]
    rfl
  | _ => rfl

@[simp] theorem argument_withJournal (s : Store) (j : List JournalEntry) (r : Ref Argument) :
    (s.withJournal j).argument r = s.argument r := congrFun (s.matches_withJournal j).argument r

@[simp] theorem container_withJournal (s : Store) (j : List JournalEntry)
    (r : Ref ContainerCell) : (s.withJournal j).container r = s.container r :=
  (s.matches_withJournal j).container r

/-! ### Kinds of cells -/

/-- A kind of cells that do not stand in the journal. -/
class Stowed (α : Type) [Stored α] : Prop where
  cells : ∀ (s : Store) (j : List JournalEntry),
    (Stored.cells (s.withJournal j) : Cells α) = Stored.cells s
  setCells : ∀ (s : Store) (j : List JournalEntry) (c : Cells α),
    Stored.setCells (s.withJournal j) c = (Stored.setCells s c).withJournal j

instance : Stowed Argument := ⟨fun _ _ => rfl, fun _ _ _ => rfl⟩

instance : Stowed CallCell := ⟨fun _ _ => rfl, fun _ _ _ => rfl⟩

instance : Stowed DefinitionCell := ⟨fun _ _ => rfl, fun _ _ _ => rfl⟩

instance : Stowed ContainerCell := ⟨fun _ _ => rfl, fun _ _ _ => rfl⟩

instance : Stowed Config := ⟨fun _ _ => rfl, fun _ _ _ => rfl⟩

instance : Stowed Registry := ⟨fun _ _ => rfl, fun _ _ _ => rfl⟩

instance : Stowed Browser := ⟨fun _ _ => rfl, fun _ _ _ => rfl⟩

instance : Stowed Counter := ⟨fun _ _ => rfl, fun _ _ _ => rfl⟩

instance : Stowed Source := ⟨fun _ _ => rfl, fun _ _ _ => rfl⟩

instance : Stowed Exclusions := ⟨fun _ _ => rfl, fun _ _ _ => rfl⟩

instance : Stowed Injector := ⟨fun _ _ => rfl, fun _ _ _ => rfl⟩

instance : Stowed Settings := ⟨fun _ _ => rfl, fun _ _ _ => rfl⟩

instance : Stowed Core := ⟨fun _ _ => rfl, fun _ _ _ => rfl⟩

instance : Stowed CacheControl := ⟨fun _ _ => rfl, fun _ _ _ => rfl⟩

/-- A kind of cells to which adding one is growth. -/
class Growing (α : Type) [Stored α] extends Stowed α where
  grows : ∀ (s : Store) (a : α), s.Grows (Stored.setCells s ((Stored.cells s).add a))

instance : Growing Argument where
  grows s a := { Grows.refl s with arguments := Cells.extends_add _ a }

instance : Growing CallCell where
  grows s a := { Grows.refl s with calls := Cells.extends_add _ a }

instance : Growing DefinitionCell where
  grows s a := { Grows.refl s with definitions := Cells.extends_add _ a }

instance : Growing ContainerCell where
  grows s a := { Grows.refl s with containers := Cells.extends_add _ a }

instance : Growing Config where
  grows s a := { Grows.refl s with configs := Cells.extends_add _ a }

instance : Growing Registry where
  grows s a := { Grows.refl s with registries := Cells.extends_add _ a }

instance : Growing Injector where
  grows s a := { Grows.refl s with injectors := Cells.extends_add _ a }

instance : Growing Source where
  grows s a := { Grows.refl s with sources := Cells.extends_add _ a }

instance : Growing Exclusions where
  grows s a := { Grows.refl s with contexts := Cells.extends_add _ a }

instance : Growing Settings where
  grows s a := { Grows.refl s with settings := Cells.extends_add _ a }

instance : Growing Core where
  grows s a := { Grows.refl s with cores := Cells.extends_add _ a }

instance : Growing Browser where
  grows s a := { Grows.refl s with
    browsers := List.IsPrefix.map Browser.reset (Cells.extends_add s.browsers a) }

/-- A kind of cells of which growth does not speak. -/
class Apart (α : Type) [Stored α] extends Stowed α where
  grows : ∀ (s : Store) (c : Cells α), s.Grows (Stored.setCells s c)

instance : Apart Counter where
  grows s _ := { Grows.refl s with }

instance : Apart CacheControl where
  grows s _ := { Grows.refl s with }

instance {α : Type} [Stored α] [Apart α] : Growing α where
  grows s _ := Apart.grows s _

end Store

/-! ### Work that keeps an invariant -/

namespace Work

variable {ε ε' α β : Type} [Telling ε] [Telling ε'] {I : Store → Prop}

/-- Work does well in a store: it keeps an invariant, writes nothing into the journal and does not
depend on what it holds. If it fails, it tells of no build. -/
structure Kept (I : Store → Prop) (w : Work ε α) (s : Store) : Prop where
  holds : I (w.run s).2
  journal : (w.run s).2.journal = s.journal
  direct : Direct (w.run s).1
  oblivious : ∀ j, w.run (s.withJournal j) = ((w.run s).1, (w.run s).2.withJournal j)

/-- Work does well in every store of an invariant. -/
def Keeps (I : Store → Prop) (w : Work ε α) : Prop := ∀ s, I s → Kept I w s

/-- Every answer of work satisfies a condition. -/
def Returns (I : Store → Prop) (P : α → Prop) (w : Work ε α) : Prop :=
  ∀ s a, I s → (w.run s).1 = .ok a → P a

/-- Work whose run is known in every store. -/
theorem keeps_of_run {w : Work ε α} {f : Store → Except ε α × Store} (hrun : ∀ s, w.run s = f s)
    (hI : ∀ s, I s → I (f s).2) (hd : ∀ s, Direct (f s).1)
    (hj : ∀ s j, f (s.withJournal j) = ((f s).1, (f s).2.withJournal j)) : Keeps I w := by
  intro s hs
  refine ⟨?_, ?_, ?_, fun j => ?_⟩
  · rw [hrun s]
    exact hI s hs
  · rw [hrun s]
    exact congrArg (fun x => x.2.journal) (hj s s.journal)
  · rw [hrun s]
    exact hd s
  · rw [hrun s, hrun (s.withJournal j), hj s j]

/-- Work that tells the same in every store and changes none. -/
theorem keeps_of_const {w : Work ε α} {x : Except ε α} (h : ∀ s, w.run s = (x, s))
    (hd : Direct x) : Keeps I w :=
  keeps_of_run h (fun _ hs => hs) (fun _ => hd) fun _ _ => rfl

theorem keeps_pure (a : α) : Keeps I (pure a : Work ε α) :=
  keeps_of_const (fun _ => rfl) (direct_ok a)

theorem keeps_throw (e : ε) (h : builds e = []) : Keeps I (throw e : Work ε α) :=
  keeps_of_const (fun _ => rfl) (direct_error h)

theorem keeps_foreign (k : ForeignKind) : Keeps I (foreign k : Work Fault α) :=
  keeps_throw _ rfl

theorem keeps_lift {x : Except ε α} (h : Direct x) : Keeps I (lift x) :=
  keeps_of_const (fun _ => rfl) h

/-- A fault that is renamed on the way out to one that tells of no build. -/
theorem keeps_lift_mapError {ε'' : Type} {f : ε'' → ε} (hf : ∀ e, builds (f e) = [])
    (x : Except ε'' α) : Keeps I (lift (x.mapError f)) :=
  keeps_lift (direct_mapError hf x)

theorem keeps_modifyGet {f : Store → α × Store} (hf : ∀ s, I s → I (f s).2)
    (hj : ∀ s j, f (s.withJournal j) = ((f s).1, (f s).2.withJournal j)) :
    Keeps I (modifyGet f : Work ε α) := by
  refine keeps_of_run (fun s => run_modifyGet f s) hf (fun _ => direct_ok _) fun s j => ?_
  rw [hj s j]

theorem keeps_modify {f : Store → Store} (hf : ∀ s, I s → I (f s))
    (hj : ∀ s j, f (s.withJournal j) = (f s).withJournal j) :
    Keeps I (modify f : Work ε PUnit) := by
  refine keeps_of_run (fun s => run_modify f s) hf (fun _ => direct_ok _) fun s j => ?_
  rw [hj s j]

/-- Going on with something that keeps the invariant for the answers that the first piece gives. -/
theorem Keeps.bind_of {w : Work ε α} {f : α → Work ε β} {P : α → Prop} (hw : Keeps I w)
    (hP : Returns I P w) (hf : ∀ a, P a → Keeps I (f a)) : Keeps I (w >>= f) := by
  intro s hs
  have hw' := hw s hs
  have hP' := hP s
  cases hrun : w.run s with
  | mk result t =>
    obtain ⟨hI, hj, hd, hoblivious⟩ := hw'
    rw [hrun] at hI hj hd hoblivious hP'
    cases result with
    | error e =>
      have hfails := run_bind_error (f := f) hrun
      refine ⟨?_, ?_, ?_, fun j => ?_⟩
      · rw [hfails]
        exact hI
      · rw [hfails]
        exact hj
      · rw [hfails]
        exact direct_error (hd e rfl)
      · rw [hfails]
        exact run_bind_error (hoblivious j)
    | ok a =>
      have hgoes := run_bind_ok (f := f) hrun
      obtain ⟨hI', hj', hd', hoblivious'⟩ := hf a (hP' a hs rfl) t hI
      refine ⟨?_, ?_, ?_, fun j => ?_⟩
      · rw [hgoes]
        exact hI'
      · rw [hgoes]
        exact hj'.trans hj
      · rw [hgoes]
        exact hd'
      · rw [hgoes, run_bind_ok (hoblivious j)]
        exact hoblivious' j

theorem Keeps.bind {w : Work ε α} {f : α → Work ε β} (hw : Keeps I w)
    (hf : ∀ a, Keeps I (f a)) : Keeps I (w >>= f) :=
  hw.bind_of (P := fun _ => True) (fun _ _ _ _ => trivial) fun a _ => hf a

/-- Going on behind a check. -/
theorem Keeps.guarding {c : Prop} [Decidable c] {check : Work ε PUnit} {rest : Work ε α}
    (hcheck : Keeps I check) (hrest : Keeps I rest) :
    Keeps I (if c then check >>= fun _ => rest else rest) := by
  split
  · exact hcheck.bind fun _ => hrest
  · exact hrest

/-- Work that depends on the store, though not on its journal, keeps an invariant if it does so
whatever it depends on. -/
theorem keeps_get_bind {f : Store → Work ε α} (hj : ∀ s j, f (s.withJournal j) = f s)
    (hf : ∀ s, Keeps I (f s)) : Keeps I (get >>= f) := by
  intro s hs
  obtain ⟨hI, hjournal, hd, hoblivious⟩ := hf s s hs
  refine ⟨hI, hjournal, hd, fun j => ?_⟩
  rw [run_bind_ok (run_get _), run_bind_ok (run_get _), hj s j]
  exact hoblivious j

theorem Keeps.map {w : Work ε α} (hw : Keeps I w) (f : α → β) : Keeps I (f <$> w) := by
  rw [map_eq_pure_bind]
  exact hw.bind fun a => keeps_pure (f a)

theorem keeps_mapM {f : α → Work ε β} (hf : ∀ a, Keeps I (f a)) (xs : List α) :
    Keeps I (xs.mapM f) := by
  induction xs with
  | nil => exact keeps_pure _
  | cons x rest ih =>
    rw [List.mapM_cons]
    exact (hf x).bind fun _ => ih.bind fun _ => keeps_pure _

theorem keeps_forM {f : α → Work ε PUnit} (hf : ∀ a, Keeps I (f a)) (xs : List α) :
    Keeps I (xs.forM f) := by
  induction xs with
  | nil => exact keeps_pure _
  | cons x rest ih => exact (hf x).bind fun _ => ih

theorem keeps_mapM? {f : α → Work ε β} (hf : ∀ a, Keeps I (f a)) (x : Option α) :
    Keeps I (x.mapM f) := by
  cases x with
  | none => exact keeps_pure _
  | some x => exact (hf x).bind fun _ => keeps_pure _

/-- The answer of the last piece counts. -/
theorem Returns.bind {P : β → Prop} {w : Work ε α} {f : α → Work ε β} (hw : Keeps I w)
    (hf : ∀ a, Returns I P (f a)) : Returns I P (w >>= f) := by
  intro s b hs hb
  rw [run_bind] at hb
  have hI := (hw s hs).holds
  cases hrun : w.run s with
  | mk result t =>
    rw [hrun] at hb hI
    cases result with
    | ok a => exact hf a t b hI hb
    | error e => cases hb

end Work

namespace Store

open Work

variable {ε α : Type} [Telling ε] {I : Store → Prop} {s₀ : Store}

/-! ### Cells -/

theorem keeps_read [Stored α] [Stowed α] (r : Ref α) : Keeps I (read r : Work ε α) :=
  keeps_get_bind (fun s j => by rw [Stowed.cells s j]) fun _ => keeps_pure _

theorem keeps_make [Stored α] [Growing α] (a : α) : Keeps s₀.Grows (make a : Work ε (Ref α)) :=
  keeps_modifyGet (fun s hs => hs.trans (Growing.grows s a)) fun s j => by
    rw [Stowed.cells s j, Stowed.setCells]

theorem keeps_change [Stored α] [Apart α] (r : Ref α) (f : α → α) :
    Keeps s₀.Grows (change r f : Work ε Unit) :=
  keeps_modify (fun s hs => hs.trans (Apart.grows (α := α) s _)) fun s j => by
    rw [Stowed.cells s j, Stowed.setCells]

/-- An invariant that outlasts looking at the files: the log is written, and browsers remember what
they found. -/
class Looking (I : Store → Prop) : Prop where
  reported : ∀ (s : Store) (events : List LogEvent), I s → I { s with log := s.log ++ events }
  looked : ∀ (s : Store) (r : Ref Browser) (f : Browser → Browser), (∀ b, (f b).reset = b.reset) →
    I s → I { s with browsers := s.browsers.modify r f }

instance : Looking s₀.Grows where
  reported _ _ hs := { hs with }
  looked s r f hf hs := by
    refine { hs with browsers := ?_ }
    have hsame : (s.browsers.modify r f).items.map Browser.reset
        = s.browsers.items.map Browser.reset := map_modify_of_eq hf _ _
    exact hsame ▸ hs.browsers

/-- What a browser remembers may change. -/
theorem keeps_change_browser [Looking I] (r : Ref Browser) {f : Browser → Browser}
    (hf : ∀ b, (f b).reset = b.reset) : Keeps I (change r f : Work ε Unit) :=
  keeps_modify (fun s hs => Looking.looked s r f hf hs) fun _ _ => rfl

theorem keeps_report [Looking I] (events : List LogEvent) : Keeps I (report events : Work ε Unit) :=
  keeps_modify (fun s hs => Looking.reported s events hs) fun _ _ => rfl

omit [Telling ε] in
/-- A new definition is none of those that were there. -/
theorem returns_make_definition (d : DefinitionCell) :
    Returns s₀.Grows (fun r => ¬ s₀.definitions.Holds r)
      (make d : Work ε (Ref DefinitionCell)) := by
  intro s r hs hr
  cases hr
  exact hs.definitions.not_holds_next

omit [Telling ε] in
/-- A new injector is none of those that were there. -/
theorem returns_make_injector (i : Injector) :
    Returns s₀.Grows (fun r => ¬ s₀.injectors.Holds r) (make i : Work ε (Ref Injector)) := by
  intro s r hs hr
  cases hr
  exact hs.injectors.not_holds_next

/-- What was not there may be changed. -/
theorem keeps_change_definition {r : Ref DefinitionCell} (hr : ¬ s₀.definitions.Holds r)
    (f : DefinitionCell → DefinitionCell) : Keeps s₀.Grows (change r f : Work ε Unit) :=
  keeps_modify (fun _ hs => { hs with definitions := hs.definitions.modify hr f }) fun _ _ => rfl

theorem keeps_change_injector {r : Ref Injector} (hr : ¬ s₀.injectors.Holds r)
    (f : Injector → Injector) : Keeps s₀.Grows (change r f : Work ε Unit) :=
  keeps_modify (fun _ hs => { hs with injectors := hs.injectors.modify hr f }) fun _ _ => rfl

end Store

end Wiring
