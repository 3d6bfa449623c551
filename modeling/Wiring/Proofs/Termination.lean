import Wiring.Proofs.Resolving

/-!
# `Wiring.Proofs.Termination`: every request is answered

A definition that is asked for while it is built again and again would never come to an end. It does
not happen: each build inside of others adds to what is being built, which are entries of one
container. So the requests inside of each other are at most one more than these entries, and
whatever would answer a deeper one is never asked.

This takes that no member of a component is run, since such a member may begin a resolution of its
own, and that the entries stand under the identifiers of their definitions.
-/

set_option autoImplicit false

namespace Wiring

open Work Store

variable {s₀ s : Store} {r : Ref Injector} {O : List DefinitionKey} {E b : Exclusions}

/-- What answers below the last depth. -/
def exhausted : Answering := fun _ _ _ => Work.foreign .recursion

/-- Answers nested requests down to a depth, and leaves deeper ones to another way. -/
def answerOver (bottom : Answering) : Nat → Answering
  | 0 => bottom
  | depth + 1 => fun r q given => step (answerOver bottom depth) r q given

theorem answer_eq_answerOver (n : Nat) : answer n = answerOver exhausted n := by
  induction n with
  | zero => rfl
  | succ n ih =>
    show (fun r q given => step (answer n) r q given) = _
    rw [ih]
    rfl

/-- What is being built grows by the definition whose building begins. -/
theorem Exclusions.Extended.insert (h : E.Extended O b) (k : DefinitionKey) :
    E.Extended (k :: O) (b.insert k) := by
  intro q
  rw [Exclusions.mem_insert, h q, List.mem_cons]
  constructor
  · rintro (hq | hq | hq)
    · exact Or.inr (Or.inl hq)
    · exact Or.inl hq
    · exact Or.inr (Or.inr hq)
  · rintro (hq | hq | hq)
    · exact Or.inr (Or.inl hq)
    · exact Or.inl hq
    · exact Or.inr (Or.inr hq)

/-! ### The measure -/

/-- How many of some keys are not under construction. -/
def missing (keys O : List DefinitionKey) : Nat := (keys.filter fun k => k ∉ O).length

/-- Beginning to build one of the missing keys leaves fewer. -/
theorem missing_cons_lt {keys : List DefinitionKey} {k : DefinitionKey} (hk : k ∈ keys)
    (hfree : k ∉ O) : missing keys (k :: O) < missing keys O := by
  unfold missing
  have hsplit : (keys.filter fun q => q ∉ k :: O)
      = (keys.filter fun q => q ∉ O).filter fun q => q ≠ k := by
    rw [List.filter_filter]
    refine List.filter_congr fun q _ => ?_
    simp [List.mem_cons, not_or]
  rw [hsplit]
  refine List.length_filter_lt_length_iff_exists.mpr ⟨k, ?_, by simp⟩
  exact List.mem_filter.mpr ⟨hk, by simpa using hfree⟩

theorem missing_le (keys : List DefinitionKey) : missing keys O ≤ keys.length :=
  List.length_filter_le _ _

/-! ### Requests inside of requests -/

/-- Two depths below which enough requests can be nested give the same answers, whatever answers
below them. -/
theorem agrees_nested (hr : s₀.Ready r) {bottom : Answering} {n m : Nat} {q : Request}
    (hb : E.Extended O b) (hq : q.Nested b) (hn : missing (s₀.keysOf r) O < n)
    (hm : missing (s₀.keysOf r) O < m) :
    Agrees (Orderly s₀ (s₀.keysOf r) E) O (answer n r q none)
      (answerOver bottom m r q none) := by
  induction n generalizing m O b q with
  | zero => omega
  | succ n ih =>
    cases m with
    | zero => omega
    | succ m =>
      obtain ⟨rfl, _⟩ := id hq
      refine agrees_step (fun r q => disturbed_answer n r q none) hr hb (Or.inr hq)
        (fun k hk hfree q' hq' => ?_) none
      have hless := missing_cons_lt hk hfree
      exact ih (hb.insert k) hq' (by omega) (by omega)

/-- The depth of a store goes beyond the entries of each of its containers. -/
theorem size_lt_depth {c : Ref ContainerCell} (hc : s.containers.Holds c) :
    (s.containers.get c).size < s.depth := by
  have hmem : (s.containers.get c).size ∈ s.containers.items.map Container.size := by
    have hlt : c.index < s.containers.items.length := hc
    unfold Cells.get
    rw [List.getElem?_eq_getElem hlt, Option.getD_some]
    exact List.mem_map_of_mem (List.getElem_mem hlt)
  have hle := List.le_sum_of_mem hmem
  unfold depth
  rw [← List.sum_eq_foldl]
  nlinarith

/-- At first there is room for the nesting below the depth of a store. -/
theorem Store.Ready.missing_lt_depth (hr : s.Ready r) : missing (s.keysOf r) [] < s.depth := by
  have hle : missing (s.keysOf r) [] ≤ (s.keysOf r).length := missing_le _
  have hsize := size_lt_depth hr.keyed.held
  rw [Store.keysOf, List.length_map] at hle
  exact Nat.lt_of_le_of_lt hle hsize

/-- Before anything is done, nothing is under construction. -/
theorem orderly_start (s : Store) (keys : List DefinitionKey) (E : Exclusions) :
    Orderly { s with journal := [] } keys E { s with journal := [] } := by
  refine ⟨.refl _, fun j hj => ?_⟩
  obtain rfl := List.suffix_nil.mp hj
  exact ⟨List.nodup_nil, fun _ hk => (List.not_mem_nil hk).elim, fun _ _ _ _ _ he => by cases he⟩

/-- A request from outside goes through orderly moments only. -/
theorem orderly_resolve (hr : s.Ready r) (q : Request) (given : Given)
    (hundisturbed : Undisturbed (s.resolve r q given).2.journal) :
    Orderly { s with journal := [] } (s.keysOf r) q.building (s.resolve r q given).2 := by
  have hready : Store.Ready { s with journal := [] } r := hr.of_journal []
  have hroom := hr.missing_lt_depth
  obtain ⟨n, hn⟩ : ∃ n, s.depth = n + 1 := ⟨s.depth - 1, by omega⟩
  have hagrees : Agrees (Orderly { s with journal := [] } (s.keysOf r) q.building) []
      (answer (n + 1) r q given) (answer (n + 1) r q given) := by
    refine agrees_step (fun r q => disturbed_answer n r q none) hready (fun k => by simp)
      (Or.inl rfl) (fun k hk hfree q' hq' => ?_) given
    have hless : missing (s.keysOf r) [k] < missing (s.keysOf r) [] := missing_cons_lt hk hfree
    have hagrees : Agrees (Orderly { s with journal := [] } (s.keysOf r) q.building) [k]
        (answer n r q' none) (answerOver exhausted n r q' none) :=
      agrees_nested hready (Exclusions.Extended.insert (fun k => by simp) k) hq'
        (show missing (s.keysOf r) [k] < n by omega) (show missing (s.keysOf r) [k] < n by omega)
    rw [← answer_eq_answerOver] at hagrees
    exact hagrees
  unfold Store.resolve at hundisturbed ⊢
  rw [hn] at hundisturbed ⊢
  exact (hagrees.agrees { s with journal := [] } (orderly_start s _ _) rfl hundisturbed).2.1

/-- A class whose constructor takes one parameter. -/
def nodeClass : Class :=
  ⟨"app", "Node", none, some ⟨[.optional "next"], none, .literal (.value .null)⟩, [], []⟩

/-- The program that declares the class. -/
def nodeProgram : Program := ⟨[nodeClass], []⟩

/-- Two definitions that request each other by their interfaces, and a third one of the first
interface, which ends the ring. -/
def ringStore : Store :=
  { Store.empty nodeProgram with
    arguments := ⟨[⟨"next", "dependency", [(.text "interface", .text "B")]⟩,
      ⟨"next", "dependency", [(.text "interface", .text "A")]⟩]⟩
    calls := ⟨[⟨"__construct", none, [⟨0⟩]⟩, ⟨"__construct", none, [⟨1⟩]⟩]⟩
    definitions := ⟨[⟨"Node", none, ["A"], some ⟨0⟩, .empty⟩,
      ⟨"Node", some "back", ["B"], some ⟨1⟩, .empty⟩, ⟨"Node", some "end", ["A"], none, .empty⟩]⟩
    containers := ⟨[((Container.empty.addOne "A" none ⟨0⟩).addOne "B" (some "back") ⟨1⟩).addOne "A"
      (some "end") ⟨2⟩]⟩
    registries := ⟨[Registry.empty.register nodeProgram (.declared 0) (some "Node")]⟩
    injectors := ⟨[⟨⟨0⟩, ⟨0⟩, none, Parser.standard, .empty⟩]⟩ }

theorem ringStore_ready : ringStore.Ready ⟨0⟩ := by
  have hentries : ∀ e ∈ (ringStore.containers.get ⟨0⟩).entries,
      e.2.index < 3 ∧ (ringStore.definitions.get e.2).identifier = e.1.identifier := by
    decide +kernel
  exact ⟨Nat.zero_lt_one, ⟨Nat.zero_lt_one, fun k d h =>
    hentries (k, d) (Container.mem_entries_iff.mpr h)⟩⟩

end Wiring
