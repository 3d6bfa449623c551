import Wiring.Proofs.Hosting
import Wiring.Proofs.Selection
import Wiring.Resolution.Engine

/-!
# `Wiring.Proofs.Building`: what is under construction while a request is answered

The journal tells at every moment of a run which definitions are under construction: those whose
building began and did not end. `Moment` states what holds at each of these moments, as long as no
member of a component is run: no definition is under construction twice, all of them stand in the
container, and a nested request knows exactly which they are.

`Work.Conforms` is the invariant of the resolution. It says of a piece of work that it goes through
such moments only, that it comes back with the same definitions under construction, and that other
work does just the same. The other work answers nested requests in another way, so that the
invariant also tells when these are never asked. The lemmas go through the engine from the binding
of arguments up to the answer to a request.
-/

set_option autoImplicit false

namespace Wiring

/-! ### Reading the journal -/

/-- The keys of the definitions whose building began and did not end, the innermost one first. -/
def underConstruction : List JournalEntry → List DefinitionKey
  | [] => []
  | .opened k _ _ :: earlier => k :: underConstruction earlier
  | .closed k _ :: earlier => (underConstruction earlier).erase k
  | .requested _ _ _ _ :: earlier => underConstruction earlier
  | .ran _ :: earlier => underConstruction earlier
  | .left _ _ :: earlier => underConstruction earlier

/-- Whether an entry tells that a member of a component was run. -/
def JournalEntry.disturbs : JournalEntry → Bool
  | .left c _ => c.isOwn
  | _ => false

/-- No member of a component was run. -/
def Undisturbed (j : List JournalEntry) : Prop := ∀ e ∈ j, e.disturbs = false

instance (j : List JournalEntry) : Decidable (Undisturbed j) :=
  inferInstanceAs (Decidable (∀ e ∈ j, e.disturbs = false))

/-- A set of keys holds those of another one and some more. -/
def Exclusions.Extended (E : Exclusions) (more : List DefinitionKey) (b : Exclusions) : Prop :=
  ∀ k, k ∈ b.keys ↔ k ∈ E.keys ∨ k ∈ more

/-- What holds at a moment of the answer to a request with exclusions `E`, over a container with
some keys. A nested request without identifier excludes what is being built. -/
structure Moment (keys : List DefinitionKey) (E : Exclusions) (j : List JournalEntry) : Prop where
  nodup : (underConstruction j).Nodup
  known : ∀ k ∈ underConstruction j, k ∈ keys
  requested : ∀ i id x b earlier, j = .requested i id x b :: earlier →
    E.Extended (underConstruction earlier) b ∧
      (underConstruction earlier = [] ∨ id.truthy = true ∨ x = b)

/-- A store that grew from another one through such moments. -/
structure Orderly (s₀ : Store) (keys : List DefinitionKey) (E : Exclusions) (s : Store) :
    Prop where
  grows : s₀.Grows s
  moments : ∀ j, j <:+ s.journal → Moment keys E j

variable {s₀ s : Store} {keys O : List DefinitionKey} {E : Exclusions}

theorem Orderly.now (h : Orderly s₀ keys E s) : Moment keys E s.journal :=
  h.moments _ (List.suffix_refl _)

/-- Growth that leaves the journal alone stays orderly. -/
theorem Orderly.grown {t : Store} (h : Orderly s₀ keys E s) (hg : s₀.Grows t)
    (hj : t.journal = s.journal) : Orderly s₀ keys E t :=
  ⟨hg, fun j hsuffix => h.moments j (hj ▸ hsuffix)⟩

/-- Writing into the journal adds one moment. -/
theorem Orderly.noted (h : Orderly s₀ keys E s) {e : JournalEntry}
    (hm : Moment keys E (e :: s.journal)) :
    Orderly s₀ keys E { s with journal := e :: s.journal } := by
  refine ⟨{ h.grows with }, fun j hsuffix => ?_⟩
  rcases List.suffix_cons_iff.mp hsuffix with rfl | hj
  · exact hm
  · exact h.moments j hj

/-- Running code changes nothing of what is under construction. -/
theorem Moment.ran {j : List JournalEntry} (h : Moment keys E j) (c : Callable) :
    Moment keys E (.ran c :: j) :=
  ⟨h.nodup, h.known, fun _ _ _ _ _ he => by cases he⟩

theorem Moment.left {j : List JournalEntry} (h : Moment keys E j) (c : Callable)
    (failed : Bool) : Moment keys E (.left c failed :: j) :=
  ⟨h.nodup, h.known, fun _ _ _ _ _ he => by cases he⟩

/-- A request that knows what is under construction. -/
theorem Moment.asked {j : List JournalEntry} (h : Moment keys E j) {i id : Value}
    {x b : Exclusions} (hb : E.Extended (underConstruction j) b)
    (hx : underConstruction j = [] ∨ id.truthy = true ∨ x = b) :
    Moment keys E (.requested i id x b :: j) := by
  refine ⟨h.nodup, h.known, fun _ _ _ _ _ he => ?_⟩
  cases he
  exact ⟨hb, hx⟩

/-- A definition that was not under construction. -/
theorem Moment.opened {j : List JournalEntry} (h : Moment keys E j) {k : DefinitionKey}
    (hk : k ∈ keys) (hfree : k ∉ underConstruction j) (ident : Nat) (className : String) :
    Moment keys E (.opened k ident className :: j) := by
  refine ⟨List.nodup_cons.mpr ⟨hfree, h.nodup⟩, ?_, fun _ _ _ _ _ he => by cases he⟩
  intro q hq
  rcases List.mem_cons.mp hq with rfl | hq
  · exact hk
  · exact h.known q hq

theorem Moment.closed {j : List JournalEntry} (h : Moment keys E j) (k : DefinitionKey)
    (ident : Nat) : Moment keys E (.closed k ident :: j) :=
  ⟨h.nodup.erase k, fun q hq => h.known q (List.mem_of_mem_erase hq),
    fun _ _ _ _ _ he => by cases he⟩

/-! ### The invariant of the resolution -/

/-- An invariant that growth and the running of code keep. -/
class Steady (I : Store → Prop) : Prop where
  grown : ∀ s t : Store, I s → s.Grows t → t.journal = s.journal → I t
  ran : ∀ (s : Store) (c : Callable), I s → I { s with journal := .ran c :: s.journal }
  left : ∀ (s : Store) (c : Callable) (failed : Bool), I s →
    I { s with journal := .left c failed :: s.journal }

instance : Steady s₀.Grows where
  grown _ _ h hg _ := h.trans hg
  ran _ _ h := { h with }
  left _ _ _ h := { h with }

instance : Steady (Orderly s₀ keys E) where
  grown _ _ h hg hj := h.grown (h.grows.trans hg) hj
  ran _ c h := h.noted (h.now.ran c)
  left _ c failed h := h.noted (h.now.left c failed)

/-- No store at all. -/
instance : Steady fun _ => False := ⟨fun _ _ h => h.elim, fun _ _ h => h, fun _ _ _ h => h⟩

/-- A fault while arguments are found tells of what its fault tells of. -/
instance : Telling Failure := ⟨fun f => f.fault.builds⟩

/-! ### Two runs side by side -/

/-- Two outcomes that are related answers or the same fault. -/
inductive Except.Alike {ε α α' : Type} (R : α → α' → Prop) : Except ε α → Except ε α' → Prop
  | ok {a : α} {a' : α'} (h : R a a') : Except.Alike R (.ok a) (.ok a')
  | error (e : ε) : Except.Alike R (.error e) (.error e)

theorem Except.Alike.mono {ε α α' : Type} {R S : α → α' → Prop} {x : Except ε α} {x' : Except ε α'}
    (h : Except.Alike R x x') (hle : ∀ a a', R a a' → S a a') : Except.Alike S x x' := by
  cases h with
  | ok h => exact .ok (hle _ _ h)
  | error e => exact .error e

/-- Two outcomes that are both like a third one. -/
theorem Except.Alike.along {ε α β γ : Type} {R : α → β → Prop} {S : α → γ → Prop} {x : Except ε α}
    {y : Except ε β} {z : Except ε γ} (h : Except.Alike R x y) (h' : Except.Alike S x z) :
    Except.Alike (fun b c => ∃ a, R a b ∧ S a c) y z := by
  cases h with
  | ok h =>
    cases h' with
    | ok h' => exact .ok ⟨_, h, h'⟩
  | error e =>
    cases h'
    exact .error e

theorem Except.Alike.of_eq {ε α : Type} {x x' : Except ε α} (h : x' = x) :
    Except.Alike Eq x x' := by
  subst h
  cases x' with
  | ok a => exact .ok rfl
  | error e => exact .error e

/-- How two runs are compared. -/
structure Comparison where
  /-- Whether runs that fail count too. Where they do not, nothing is said of them, and the other
  run may do better. -/
  failures : Prop
  /-- Which entries of the first journal tell of something that the comparison does not reach. -/
  disturbs : JournalEntry → Bool
  /-- Which entries of the two journals tell of the same. -/
  alike : JournalEntry → JournalEntry → Prop
  own : ∀ c failed, c.isOwn = true → disturbs (.left c failed) = true
  ran : ∀ c, alike (.ran c) (.ran c)
  left : ∀ c failed, alike (.left c failed) (.left c failed)
  requested : ∀ i id x b, alike (.requested i id x b) (.requested i id x b)

namespace Comparison

/-- The comparison of runs that write the same into the journal. -/
def same (F : Prop) : Comparison where
  failures := F
  disturbs := JournalEntry.disturbs
  alike := Eq
  own _ _ h := h
  ran _ := rfl
  left _ _ := rfl
  requested _ _ _ _ := rfl

/-- Nothing in a journal is out of the reach of a comparison. -/
def Undisturbed (C : Comparison) (j : List JournalEntry) : Prop := ∀ e ∈ j, C.disturbs e = false

/-- Two journals that tell of the same. -/
def Alike (C : Comparison) (j j' : List JournalEntry) : Prop := List.Forall₂ C.alike j j'

variable {C : Comparison} {j j' : List JournalEntry}

theorem Undisturbed.of_cons {e : JournalEntry} (h : C.Undisturbed (e :: j)) : C.Undisturbed j :=
  fun x hx => h x (List.mem_cons_of_mem _ hx)

/-- Nothing but an undisturbed run of something that can be called is no member of a component. -/
theorem Undisturbed.not_own {c : Callable} {failed : Bool}
    (h : C.Undisturbed (.left c failed :: j)) : c.isOwn = false := by
  have hleft := h _ List.mem_cons_self
  cases hown : c.isOwn with
  | false => rfl
  | true =>
    rw [C.own c failed hown] at hleft
    cases hleft

theorem alike_same_iff {F : Prop} : (same F).Alike j j' ↔ j' = j := by
  unfold Alike same
  rw [List.forall₂_eq_eq_eq]
  exact eq_comm

end Comparison

namespace Work

variable {ε ε' α β : Type} [Telling ε] [Telling ε'] {C : Comparison} {I : Store → Prop}
  {P P' : List DefinitionKey}

/-- From every store of an invariant with some definitions under construction, work that is not
disturbed keeps the invariant and leaves the same definitions under construction. If it fails, those
that its fault tells of are under construction on top of the definitions `P`. Other work does just
the same from a store with a journal that tells of the same, and its journal tells of the same
again. What was disturbed stays disturbed, from any store. -/
structure Conforms (C : Comparison) (I : Store → Prop) (O P : List DefinitionKey)
    (w w' : Work ε α) : Prop where
  disturbed : ∀ s, ¬ C.Undisturbed s.journal → ¬ C.Undisturbed (w.run s).2.journal
  conforms : ∀ s j, I s → C.Alike s.journal j → underConstruction s.journal = O →
    C.Undisturbed (w.run s).2.journal → C.failures ∨ (w.run s).1.isOk = true →
    (∃ j', w'.run (s.withJournal j) = ((w.run s).1, (w.run s).2.withJournal j') ∧
      C.Alike (w.run s).2.journal j') ∧ I (w.run s).2 ∧
      (∀ a, (w.run s).1 = .ok a → underConstruction (w.run s).2.journal = O) ∧
      ∀ e, (w.run s).1 = .error e → underConstruction (w.run s).2.journal = builds e ++ P

/-- Runs that write the same into the journal are the same. -/
theorem Conforms.same {F : Prop} {w w' : Work ε α} (h : Conforms (.same F) I O P w w') (s : Store)
    (hs : I s) (hO : underConstruction s.journal = O) (hu : Undisturbed (w.run s).2.journal)
    (hcounts : F ∨ (w.run s).1.isOk = true) :
    w'.run s = w.run s ∧ I (w.run s).2 ∧
      (∀ a, (w.run s).1 = .ok a → underConstruction (w.run s).2.journal = O) ∧
      ∀ e, (w.run s).1 = .error e → underConstruction (w.run s).2.journal = builds e ++ P := by
  obtain ⟨⟨j', hrun, hj'⟩, hrest⟩ :=
    h.conforms s s.journal hs (Comparison.alike_same_iff.mpr rfl) hO hu hcounts
  obtain rfl := Comparison.alike_same_iff.mp hj'
  exact ⟨hrun, hrest⟩

/-- Work agrees with other work if it conforms to it on the runs that fail too, and writes the same
into the journal. -/
abbrev Agrees (I : Store → Prop) (O : List DefinitionKey) (w w' : Work ε α) : Prop :=
  Conforms (.same True) I O O w w'

theorem Agrees.agrees {w w' : Work ε α} (h : Agrees I O w w') (s : Store) (hs : I s)
    (hO : underConstruction s.journal = O) (hu : Undisturbed (w.run s).2.journal) :
    w'.run s = w.run s ∧ I (w.run s).2 ∧
      ∀ a, (w.run s).1 = .ok a → underConstruction (w.run s).2.journal = O :=
  let ⟨hsame, hI, hopen, _⟩ := h.same s hs hO hu (Or.inl trivial)
  ⟨hsame, hI, hopen⟩

/-- Work that keeps what is there, writes nothing into the journal and does not read it conforms to
itself. -/
theorem Conforms.of_keeps [Steady I] {w : Work ε α} (h : ∀ s₀ : Store, Keeps s₀.Grows w) :
    Conforms C I O O w w := by
  refine ⟨fun s hs => ?_, fun s j hs halike hO _ _ => ?_⟩
  · rw [(h s s (.refl s)).journal]
    exact hs
  · obtain ⟨hg, hj, hdirect, hoblivious⟩ := h s s (.refl s)
    have hopen : underConstruction (w.run s).2.journal = O := hj ▸ hO
    refine ⟨⟨j, hoblivious j, hj ▸ halike⟩, Steady.grown s _ hs hg hj, fun _ _ => hopen,
      fun e he => ?_⟩
    rw [hdirect e he]
    exact hopen

/-- The same for work that never fails. -/
theorem Conforms.of_keeps_ok [Steady I] {w : Work ε α} (h : ∀ s₀ : Store, Keeps s₀.Grows w)
    (hok : ∀ s, (w.run s).1.isOk = true) : Conforms C I O P w w := by
  have hself : Conforms C I O O w w := .of_keeps h
  refine ⟨hself.disturbed, fun s j hs halike hO hu hcounts => ?_⟩
  obtain ⟨hsame, hI, hopen, -⟩ := hself.conforms s j hs halike hO hu hcounts
  refine ⟨hsame, hI, hopen, fun e he => ?_⟩
  have := hok s
  rw [he] at this
  cases this

/-- Other work that does the same from the stores of the invariant may take its place. -/
theorem Conforms.of_run {w w' w'' : Work ε α} (h : Conforms C I O P w w')
    (hsame : ∀ s j, I s → w''.run (s.withJournal j) = w'.run (s.withJournal j)) :
    Conforms C I O P w w'' :=
  ⟨h.disturbed, fun s j hs halike hO hu hcounts =>
    hsame s j hs ▸ h.conforms s j hs halike hO hu hcounts⟩

/-- Work that does what other work does from the stores of the invariant may take its place. -/
theorem Conforms.of_left {w v w' : Work ε α} (h : Conforms C I O P v w')
    (hd : Conforms C (fun _ => False) O P w w) (hsame : ∀ s, I s → w.run s = v.run s) :
    Conforms C I O P w w' :=
  ⟨hd.disturbed, fun s j hs => hsame s hs ▸ h.conforms s j hs⟩

/-- Where failures do not count, nothing is said of work that only fails. -/
theorem Conforms.of_failing {w w' : Work ε α} (hF : ¬ C.failures)
    (hd : Conforms C (fun _ => False) O P w w)
    (hw : ∀ s, I s → underConstruction s.journal = O → C.Undisturbed (w.run s).2.journal →
      (w.run s).1.isOk = false) : Conforms C I O P w w' := by
  refine ⟨hd.disturbed, fun s j hs _ hO hu hcounts => ?_⟩
  rw [hw s hs hO hu] at hcounts
  exact absurd (hcounts.resolve_left hF) Bool.false_ne_true

theorem conforms_pure [Steady I] (a : α) : Conforms C I O P (pure a : Work ε α) (pure a) :=
  .of_keeps_ok (fun _ => keeps_pure a) fun _ => rfl

theorem conforms_throw [Steady I] {e : ε} (h : builds e = []) :
    Conforms C I O O (throw e : Work ε α) (throw e) :=
  .of_keeps fun _ => keeps_throw e h

theorem conforms_foreign [Steady I] (k : ForeignKind) :
    Conforms C I O O (foreign k : Action α) (foreign k) :=
  .of_keeps fun _ => keeps_foreign k

theorem conforms_lift [Steady I] {x : Except ε α} (h : Direct x) :
    Conforms C I O O (lift x : Work ε α) (lift x) :=
  .of_keeps fun _ => keeps_lift h

theorem conforms_read [Steady I] [Stored α] [Store.Stowed α] (r : Ref α) :
    Conforms C I O P (Store.read r : Work ε α) (Store.read r) :=
  .of_keeps_ok (fun _ => Store.keeps_read r) fun _ => rfl

/-- What stays disturbed does so whatever is under construction, and whatever it is compared
with. -/
theorem Conforms.disturbance {O' P' : List DefinitionKey} {w w' : Work ε α}
    (h : Conforms C I O P w w') : Conforms C (fun _ => False) O' P' w w :=
  ⟨h.disturbed, fun _ _ hs => hs.elim⟩

/-- One piece of work after the other. The second one may rely on what the first one left, by an
invariant of its own. -/
theorem Conforms.bind_from {w w' : Work ε α} {f f' : α → Work ε β}
    (hw : Conforms C I O P w w') (hd : ∀ a, Conforms C (fun _ => False) O P (f a) (f a))
    (hf : ∀ s a t, I s → underConstruction s.journal = O → w.run s = (.ok a, t) →
      C.Undisturbed t.journal → I t → ∃ J : Store → Prop, J t ∧ (∀ u, J u → I u) ∧
        Conforms C J O P (f a) (f' a)) : Conforms C I O P (w >>= f) (w' >>= f') := by
  refine ⟨fun s hs => ?_, fun s j hs halike hO hu hcounts => ?_⟩
  · have hfirst := hw.disturbed s hs
    rw [run_bind]
    cases hrun : w.run s with
    | mk result t =>
      rw [hrun] at hfirst
      cases result with
      | ok a => exact (hd a).disturbed t hfirst
      | error e => exact hfirst
  · have hfirst := hw.conforms s j hs halike hO
    cases hrun : w.run s with
    | mk result t =>
      rw [hrun] at hfirst
      cases result with
      | error e =>
        have hfails : (w >>= f).run s = (.error e, t) := run_bind_error hrun
        rw [hfails] at hu hcounts ⊢
        obtain ⟨⟨j', hsame, hj'⟩, hI, -, hbuilds⟩ := hfirst hu hcounts
        refine ⟨⟨j', run_bind_error hsame, hj'⟩, hI, (fun b h => by cases h), fun e' h => ?_⟩
        cases h
        exact hbuilds e rfl
      | ok a =>
        have hgoes : (w >>= f).run s = (f a).run t := run_bind_ok hrun
        rw [hgoes] at hu hcounts ⊢
        -- What was disturbed would stay so, and the whole run is undisturbed.
        have ht : C.Undisturbed t.journal := by
          by_contra hdisturbed
          exact (hd a).disturbed t hdisturbed hu
        obtain ⟨⟨j', hsame, hj'⟩, hI, hopen, -⟩ := hfirst ht (Or.inr rfl)
        obtain ⟨J, hJ, hJI, hrest⟩ := hf s a t hs hO hrun ht hI
        rw [run_bind_ok hsame]
        obtain ⟨hother, hJ', hends⟩ := hrest.conforms t j' hJ hj' (hopen a rfl) hu hcounts
        exact ⟨hother, hJI _ hJ', hends⟩

/-- One piece of work after the other. -/
theorem Conforms.bind {w w' : Work ε α} {f f' : α → Work ε β}
    (hw : Conforms C I O P w w') (hf : ∀ a, Conforms C I O P (f a) (f' a)) :
    Conforms C I O P (w >>= f) (w' >>= f') :=
  hw.bind_from (fun a => (hf a).disturbance)
    fun _ a _ _ _ _ _ ht => ⟨I, ht, fun _ h => h, hf a⟩

/-- A store halfway keeps the invariant, if nothing is disturbed up to the end. -/
theorem Conforms.halfway (hC : ∀ e, C.alike e e) {w w' : Work ε α} {f : α → Work ε β} {a : α}
    {s t : Store} (hw : Conforms C I O P w w') (hd : Conforms C (fun _ => False) O P (f a) (f a))
    (hs : I s) (hO : underConstruction s.journal = O) (hrun : w.run s = (.ok a, t))
    (hu : C.Undisturbed ((w >>= f).run s).2.journal) : I t := by
  rw [run_bind_ok hrun] at hu
  have ht : C.Undisturbed t.journal := by
    by_contra hdisturbed
    exact hd.disturbed t hdisturbed hu
  have hkept := (hw.conforms s s.journal hs (List.forall₂_same.mpr fun e _ => hC e) hO
    (by rwa [hrun]) (.inr (by rw [hrun]; rfl))).2.1
  rwa [hrun] at hkept

/-- Going on behind a check. -/
theorem Conforms.guarding {c : Prop} [Decidable c] {check check' : Work ε PUnit}
    {rest rest' : Work ε α} (hcheck : Conforms C I O P check check')
    (hrest : Conforms C I O P rest rest') :
    Conforms C I O P (if c then check >>= fun _ => rest else rest)
      (if c then check' >>= fun _ => rest' else rest') := by
  split
  · exact hcheck.bind fun _ => hrest
  · exact hrest

/-- What can be told without the store is told alike where that counts: the same fault, or answers
with which the work goes on in the same way. -/
theorem conforms_lift_bind {α' : Type} {x : Except ε α} {x' : Except ε α'} {f : α → Work ε β}
    {f' : α' → Work ε β} {R : α → α' → Prop} (hd : Direct x)
    (hx : C.failures ∨ x.isOk = true → Except.Alike R x x')
    (hf : ∀ a a', x = .ok a → R a a' → Conforms C I O O (f a) (f' a')) :
    Conforms C I O O (lift x >>= f) (lift x' >>= f') := by
  cases x with
  | error e =>
    refine ⟨fun s hs => hs, fun s j hs halike hO hu hcounts => ?_⟩
    cases hx hcounts
    refine ⟨⟨j, rfl, halike⟩, hs, (fun b h => by cases h), fun e' h => ?_⟩
    cases h
    rw [hd e rfl]
    exact hO
  | ok a =>
    cases hx (Or.inr rfl) with
    | ok hR => exact hf a _ rfl hR

/-- Work that depends on the store, though not on its journal, needs to conform on the stores of the
invariant only. -/
theorem conforms_get_bind_of {f f' : Store → Work ε β}
    (hj : ∀ s j, f' (s.withJournal j) = f' s)
    (hdisturbed : ∀ s, Conforms C (fun _ => False) O P (f s) (f s))
    (hf : ∀ s, I s → Conforms C I O P (f s) (f' s)) :
    Conforms C I O P (get >>= f) (get >>= f') := by
  refine ⟨fun s => (hdisturbed s).disturbed s, fun s j hs => ?_⟩
  rw [run_bind_ok (run_get _), run_bind_ok (run_get _), hj s j]
  exact (hf s hs).conforms s j hs

/-- Work that depends on the store, though not on its journal, conforms if it does so whatever it
depends on. -/
theorem conforms_get_bind {f f' : Store → Work ε β} (hj : ∀ s j, f' (s.withJournal j) = f' s)
    (hf : ∀ s, Conforms C I O P (f s) (f' s)) :
    Conforms C I O P (get >>= f) (get >>= f') := by
  refine ⟨fun s => (hf s).disturbed s, fun s j hs => ?_⟩
  rw [run_bind_ok (run_get _), run_bind_ok (run_get _), hj s j]
  exact (hf s).conforms s j hs

/-- Work that does what other work does, and changes only its outcome. -/
theorem Conforms.mapOutcome {w w' : Work ε α} {v v' : Work ε' β}
    (h : Conforms C I O P w w') (f f' : Except ε α → Store → Except ε' β)
    (hv : ∀ s, v.run s = (f (w.run s).1 (w.run s).2, (w.run s).2))
    (hv' : ∀ s, v'.run s = (f' (w'.run s).1 (w'.run s).2, (w'.run s).2))
    (hsame : ∀ x s j, I s → f' x (s.withJournal j) = f x s)
    (hok : ∀ x s b, f x s = .ok b → ∃ a, x = .ok a)
    (herror : ∀ x s e', I s → f x s = .error e' →
      ∃ e, x = .error e ∧ builds e' ++ P' = builds e ++ P) : Conforms C I O P' v v' := by
  refine ⟨fun s hs => ?_, fun s j hs halike hO hu hcounts => ?_⟩
  · rw [hv s]
    exact h.disturbed s hs
  · rw [hv s] at hu hcounts
    have hcounted : C.failures ∨ (w.run s).1.isOk = true := by
      refine hcounts.imp_right fun hfound => ?_
      obtain ⟨b, hb⟩ := Except.isOk_iff.mp hfound
      obtain ⟨a, ha⟩ := hok _ _ b hb
      exact Except.isOk_iff.mpr ⟨a, ha⟩
    obtain ⟨⟨j', hrun, hj'⟩, hI, hopen, hbuilds⟩ := h.conforms s j hs halike hO hu hcounted
    rw [hv s]
    refine ⟨⟨j', ?_, hj'⟩, hI, fun b hb => ?_, fun e' he' => ?_⟩
    · rw [hv', hrun, hsame _ _ j' hI]
    · obtain ⟨a, ha⟩ := hok _ _ b hb
      exact hopen a ha
    · obtain ⟨e, he, hsum⟩ := herror _ _ e' hI he'
      rw [hsum]
      exact hbuilds e he

theorem Conforms.mapFault {w w' : Work ε α} (h : Conforms C I O P w w') {f : ε → ε'}
    (hf : ∀ e, builds (f e) = builds e) : Conforms C I O P (mapFault f w) (mapFault f w') := by
  refine h.mapOutcome (fun x _ => x.mapError f) (fun x _ => x.mapError f)
    (fun s => run_mapFault f w s) (fun s => run_mapFault f w' s) (fun _ _ _ _ => rfl)
    (fun _ _ _ hb => ⟨_, Except.mapError_eq_ok.mp hb⟩) fun x _ e' _ he' => ?_
  cases x with
  | ok a => cases he'
  | error e =>
    cases he'
    exact ⟨e, rfl, by rw [hf e]⟩

end Work

end Wiring
