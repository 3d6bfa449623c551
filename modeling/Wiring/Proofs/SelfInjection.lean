import Wiring.Proofs.Termination

/-!
# `Wiring.Proofs.SelfInjection`: definitions inside of themselves

A resolution tells by their keys which definitions are under construction, and a nested request
selects none of them. A definition that stands under several keys is not recognised under another
one of them, so that it may be injected into itself (`doubleStore_nested`). Where every definition
stands under one key only, this cannot happen at any depth: `definitionsUnderConstruction` lists the
definitions instead of their keys, and no definition is in this list twice
(`definitionsUnderConstruction_nodup`).
-/

set_option autoImplicit false

namespace Wiring

open Work Store

/-- The numbers of the definitions whose building began and did not end, the innermost one first. -/
def definitionsUnderConstruction : List JournalEntry → List Nat
  | [] => []
  | .opened _ ident _ :: earlier => ident :: definitionsUnderConstruction earlier
  | .closed _ ident :: earlier => (definitionsUnderConstruction earlier).erase ident
  | .requested _ _ _ _ :: earlier => definitionsUnderConstruction earlier
  | .ran _ :: earlier => definitionsUnderConstruction earlier
  | .left _ _ :: earlier => definitionsUnderConstruction earlier

/-- Each definition of a container stands under one key. -/
def Container.Single {δ : Type} (c : Container δ) : Prop :=
  ∀ k k' d, c.find? k = some d → c.find? k' = some d → k = k'

/-- An entry of the journal tells of a definition under its key. -/
def JournalEntry.Truthful (c : ContainerCell) : JournalEntry → Prop
  | .opened k ident _ => c.find? k = some ⟨ident⟩
  | .closed k ident => c.find? k = some ⟨ident⟩
  | _ => True

/-- A store that grew from another one while its journal told of definitions under their keys. -/
structure Truthfully (s₀ : Store) (c : ContainerCell) (s : Store) : Prop where
  grows : s₀.Grows s
  entries : ∀ e ∈ s.journal, e.Truthful c

variable {s₀ s : Store} {r : Ref Injector} {c : ContainerCell}

/-- Another truthful entry. -/
theorem Truthfully.noted (h : Truthfully s₀ c s) {e : JournalEntry} (he : e.Truthful c) :
    Truthfully s₀ c { s with journal := e :: s.journal } :=
  ⟨{ h.grows with }, List.forall_mem_cons.mpr ⟨he, h.entries⟩⟩

instance : Steady (Truthfully s₀ c) where
  grown _ _ h hg hj := ⟨h.grows.trans hg, hj ▸ h.entries⟩
  ran _ _ h := h.noted trivial
  left _ _ _ h := h.noted trivial

theorem recording_truthfully :
    Recording s₀ r (Truthfully s₀ (s₀.containers.get (s₀.injectors.get r).container)) where
  grows _ h := h.grows
  requested _ _ _ _ _ h := h.noted trivial
  opened _ _ _ _ hfound h := h.noted hfound
  closed _ _ _ hfound h := h.noted hfound

/-- A container has one number under each key, and one key for each number if its definitions stand
under one key. -/
theorem Container.Single.biUnique (h : c.Single) :
    Relator.BiUnique fun (k : DefinitionKey) (ident : Nat) => c.find? k = some ⟨ident⟩ := by
  refine ⟨fun k k' ident hk hk' => h k k' _ hk hk', fun k ident ident' hk hk' => ?_⟩
  have hsame := hk.symm.trans hk'
  injection hsame with hsame
  injection hsame

/-- Lists that are related one by one stay so when related elements are taken out of them, if each
element has one that it is related to. -/
theorem forall₂_erase {α β : Type} [DecidableEq α] [DecidableEq β] {R : α → β → Prop}
    (hR : Relator.BiUnique R) {as : List α} {bs : List β} (h : List.Forall₂ R as bs) {a : α} {b : β}
    (hab : R a b) : List.Forall₂ R (as.erase a) (bs.erase b) := by
  induction h with
  | nil => exact .nil
  | @cons x y as bs hxy hrest ih =>
    by_cases hx : x = a
    · subst hx
      obtain rfl := hR.2 hxy hab
      rw [List.erase_cons_head, List.erase_cons_head]
      exact hrest
    · have hy : y ≠ b := fun hy => hx (hR.1 (hy ▸ hxy) hab)
      rw [List.erase_cons_tail (by simpa using hx), List.erase_cons_tail (by simpa using hy)]
      exact .cons hxy ih

/-- The keys and the numbers of what is under construction belong to each other. -/
theorem forall₂_underConstruction (hsingle : c.Single) {j : List JournalEntry}
    (h : ∀ e ∈ j, e.Truthful c) :
    List.Forall₂ (fun k ident => c.find? k = some ⟨ident⟩) (underConstruction j)
      (definitionsUnderConstruction j) := by
  induction j with
  | nil => exact .nil
  | cons e earlier ih =>
    obtain ⟨he, hearlier⟩ := List.forall_mem_cons.mp h
    cases e with
    | opened k ident name => exact .cons he (ih hearlier)
    | closed k ident => exact forall₂_erase hsingle.biUnique (ih hearlier) he
    | requested i id x b => exact ih hearlier
    | ran callable => exact ih hearlier
    | left callable failed => exact ih hearlier

/-- No definition is injected into itself, at any depth, if each one stands under one key: at every
moment of the answer to a request, in which no member of a component is run, the definitions under
construction are pairwise distinct. -/
theorem definitionsUnderConstruction_nodup (hr : s.Ready r)
    (hsingle : (s.containers.get (s.injectors.get r).container).Single) (q : Request)
    (given : Given) (hundisturbed : Undisturbed (s.resolve r q given).2.journal) :
    ∀ j, j <:+ (s.resolve r q given).2.journal → (definitionsUnderConstruction j).Nodup := by
  intro j hj
  have hready : Store.Ready { s with journal := [] } r := hr.of_journal []
  have hstart : Truthfully { s with journal := [] }
      (s.containers.get (s.injectors.get r).container) { s with journal := [] } :=
    ⟨.refl _, fun _ he => (List.not_mem_nil he).elim⟩
  obtain ⟨-, htruthful, -⟩ := (conforms_answer (O := []) hready recording_truthfully s.depth q
    given).same { s with journal := [] } hstart rfl hundisturbed (Or.inl trivial)
  have hpaired := forall₂_underConstruction hsingle fun e he => htruthful.entries e (hj.mem he)
  exact (List.rel_nodup hsingle.biUnique hpaired).mp
    ((orderly_resolve hr q given hundisturbed).moments j hj).nodup

/-! ### One definition under two keys -/

/-- A definition of two interfaces, whose argument requests the second one, and another definition
of that interface. -/
def doubleStore : Store :=
  { Store.empty nodeProgram with
    arguments := ⟨[⟨"next", "dependency", [(.text "interface", .text "B")]⟩]⟩
    calls := ⟨[⟨"__construct", none, [⟨0⟩]⟩]⟩
    definitions := ⟨[⟨"Node", none, ["A", "B"], some ⟨0⟩, .empty⟩,
      ⟨"Node", some "other", ["B"], none, .empty⟩]⟩
    containers := ⟨[((Container.empty.addOne "A" none ⟨0⟩).addOne "B" none ⟨0⟩).addOne "B"
      (some "other") ⟨1⟩]⟩
    registries := ⟨[Registry.empty.register nodeProgram (.declared 0) (some "Node")]⟩
    injectors := ⟨[⟨⟨0⟩, ⟨0⟩, none, Parser.standard, .empty⟩]⟩ }

/-- The request for the first interface builds the definition inside of itself: it is under
construction twice at the moment when the second build begins. -/
theorem doubleStore_nested :
    doubleStore.Ready ⟨0⟩ ∧
    Undisturbed (doubleStore.resolve ⟨0⟩ (.plain (.text "A") .null) none).2.journal ∧
    ∃ j, j <:+ (doubleStore.resolve ⟨0⟩ (.plain (.text "A") .null) none).2.journal ∧
      definitionsUnderConstruction j = [0, 0] := by
  have hentries : ∀ e ∈ (doubleStore.containers.get ⟨0⟩).entries,
      e.2.index < 2 ∧ (doubleStore.definitions.get e.2).identifier = e.1.identifier := by
    decide +kernel
  refine ⟨⟨Nat.zero_lt_one, Nat.zero_lt_one, fun k d h =>
      hentries (k, d) (Container.mem_entries_iff.mpr h)⟩, by decide +kernel,
    (doubleStore.resolve ⟨0⟩ (.plain (.text "A") .null) none).2.journal.drop 11,
    List.drop_suffix _ _, by decide +kernel⟩

/-- In the ring each definition stands under one key. -/
theorem definitionsUnderConstruction_nodup_ring :
    ringStore.Ready ⟨0⟩ ∧
    (ringStore.containers.get (ringStore.injectors.get ⟨0⟩).container).Single ∧
    Undisturbed (ringStore.resolve ⟨0⟩ (.plain (.text "A") .null) none).2.journal ∧
    ∀ j, j <:+ (ringStore.resolve ⟨0⟩ (.plain (.text "A") .null) none).2.journal →
      (definitionsUnderConstruction j).Nodup := by
  have hsingle : (ringStore.containers.get (ringStore.injectors.get ⟨0⟩).container).Single := by
    have hentries : ∀ e ∈ (ringStore.containers.get ⟨0⟩).entries,
        ∀ e' ∈ (ringStore.containers.get ⟨0⟩).entries, e.2 = e'.2 → e.1 = e'.1 := by
      decide +kernel
    exact fun k k' d hk hk' => hentries (k, d) (Container.mem_entries_iff.mpr hk) (k', d)
      (Container.mem_entries_iff.mpr hk') rfl
  have hundisturbed :
      Undisturbed (ringStore.resolve ⟨0⟩ (.plain (.text "A") .null) none).2.journal := by
    decide +kernel
  exact ⟨ringStore_ready, hsingle, hundisturbed,
    definitionsUnderConstruction_nodup ringStore_ready hsingle _ none hundisturbed⟩

end Wiring
