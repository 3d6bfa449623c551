import Wiring.Proofs.Loading
import Wiring.Proofs.Resolving

/-!
# `Wiring.Proofs.Mirroring`: the same definitions in other cells

Two containers may show the same definitions although no cell of the one is a cell of the other, and
although one of them shares a cell between two keys and the other one does not. Nothing of this is
seen by a request. `Store.Mirrored` says of two injectors that they are akin and that their
containers show the same, and `conforms_answer_mirrored` that they answer alike, whether they
succeed or fail.

The injectors may hold different objects under some interfaces of their own. What asks for one of
these is out of the reach of the comparison, and so is what runs a member of a component.
-/

set_option autoImplicit false

namespace Wiring

/-! ### Cells that show the same -/

section Shown

variable {α β γ : Type}

/-- Outcomes that are the same after a change are alike. -/
theorem Except.alike_of_map {ε : Type} {f : α → γ} {f' : β → γ} {R : α → β → Prop} {x : Except ε α}
    {x' : Except ε β} (h : x.map f = x'.map f')
    (hR : ∀ a a', x = .ok a → x' = .ok a' → f a = f' a' → R a a') : Except.Alike R x x' := by
  cases x with
  | error e =>
    cases x' with
    | error e' =>
      cases h
      exact .error e
    | ok a => cases h
  | ok a =>
    cases x' with
    | error e => cases h
    | ok a' => exact .ok (hR a a' rfl rfl (Except.ok.inj h))

/-- Lists that are the same after a change, item by item. -/
theorem List.forall₂_of_map {f : α → β} {R : α → α → Prop} {l l' : List α}
    (h : l.map f = l'.map f) (hR : ∀ a ∈ l, ∀ a' ∈ l', f a = f a' → R a a') :
    List.Forall₂ R l l' := by
  induction l generalizing l' with
  | nil =>
    cases List.map_eq_nil_iff.mp h.symm
    exact .nil
  | cons a rest ih =>
    cases l' with
    | nil => cases h
    | cons a' rest' =>
      obtain ⟨ha, hrest⟩ := List.cons.inj h
      exact .cons (hR a List.mem_cons_self a' List.mem_cons_self ha)
        (ih hrest fun b hb b' hb' => hR b (List.mem_cons_of_mem _ hb) b' (List.mem_cons_of_mem _ hb'))

end Shown

namespace Store

variable {s t : Store}

instance : Lasting Grows := ⟨.refl, .trans, (·.arguments), (·.calls), (·.definitions)⟩

/-- A container shows the same after the store grew. -/
theorem Shows.grown {r : Ref ContainerCell} {c : Container Definition} (h : Shows Grows s r c)
    (hg : s.Grows t) : Shows Grows t r c := by
  have hget := hg.containers.get h.held
  refine ⟨hg.containers.holds h.held, ?_, ?_⟩
  · intro e he
    rw [hget] at he
    exact ((h.entry e he).grown hg).1
  · rw [← h.view]
    unfold container
    rw [hget, Container.map_congr fun e he => ((h.entry e he).grown hg).2]

theorem argumentTwins_of_shown {a a' : Ref Argument} (ha : HasArgument Grows s a)
    (ha' : HasArgument Grows s a') (h : s.argument a = s.argument a') : ArgumentTwins s.Grows a a' :=
  fun _ hg => ((ha'.grown hg).2.trans h.symm).trans (ha.grown hg).2.symm

theorem callTwins_of_shown {c c' : Ref CallCell} (hc : HasCall Grows s c)
    (hc' : HasCall Grows s c') (h : s.call c = s.call c') : CallTwins s.Grows c c' where
  method t hg := by
    rw [hg.calls.get hc.1, hg.calls.get hc'.1]
    exact (congrArg CallOf.method h).symm
  arguments t hg := by
    rw [hg.calls.get hc.1, hg.calls.get hc'.1]
    exact List.forall₂_of_map (congrArg CallOf.arguments h) fun a ha a' ha' =>
      argumentTwins_of_shown (hc.2 a ha) (hc'.2 a' ha')

/-- Definition cells that show the same are twins. -/
theorem definitionTwins_of_shown {d d' : Ref DefinitionCell} (hd : HasDefinition Grows s d)
    (hd' : HasDefinition Grows s d') (h : s.definition d = s.definition d') :
    DefinitionTwins s.Grows d d' where
  className t hg := by
    rw [hg.definitions.get hd.1, hg.definitions.get hd'.1]
    exact (congrArg DefinitionOf.className h).symm
  identifier t hg := by
    rw [hg.definitions.get hd.1, hg.definitions.get hd'.1]
    exact (congrArg DefinitionOf.identifier h).symm
  constructor t hg := by
    rw [hg.definitions.get hd.1, hg.definitions.get hd'.1]
    have hsame : (s.definitions.get d).constructor.map s.call
        = (s.definitions.get d').constructor.map s.call := congrArg DefinitionOf.constructor h
    cases hc : (s.definitions.get d).constructor with
    | none =>
      rw [hc] at hsame
      rw [Option.map_eq_none_iff.mp hsame.symm]
      exact .none
    | some c =>
      rw [hc] at hsame
      obtain ⟨c', hc', hshown⟩ := Option.map_eq_some_iff.mp hsame.symm
      rw [hc']
      exact .some (callTwins_of_shown (hd.2.1 c hc) (hd'.2.1 c' hc') hshown.symm)
  calls t hg := by
    rw [hg.definitions.get hd.1, hg.definitions.get hd'.1]
    have hsame : (s.definitions.get d).callList.map s.call
        = (s.definitions.get d').callList.map s.call := by
      have hcalls := congrArg DefinitionOf.callList h
      unfold definition DefinitionOf.map DefinitionOf.callList OrderedMap.values OrderedMap.map
        at hcalls
      unfold DefinitionOf.callList OrderedMap.values
      rw [List.map_map, List.map_map] at hcalls ⊢
      exact hcalls
    refine List.forall₂_of_map hsame fun c hc c' hc' => callTwins_of_shown ?_ ?_
    · obtain ⟨e, he, rfl⟩ := List.mem_map.mp hc
      exact hd.2.2 e he
    · obtain ⟨e, he, rfl⟩ := List.mem_map.mp hc'
      exact hd'.2.2 e he

end Store

/-! ### The comparison -/

/-- An entry of the journal without the number of the definition's cell. -/
def JournalEntry.unnumbered : JournalEntry → JournalEntry
  | .opened k _ className => .opened k 0 className
  | .closed k _ => .closed k 0
  | e => e

/-- Whether an entry tells that one of some interfaces was asked for without an identifier. -/
def JournalEntry.asksFor (names : List String) : JournalEntry → Bool
  | .requested (.text n) .null _ _ => names.contains n
  | _ => false

/-- The comparison of runs over different cells, as far as they keep away from some interfaces. -/
def Comparison.apartFrom (names : List String) : Comparison where
  failures := True
  disturbs e := e.disturbs || e.asksFor names
  alike e e' := e.unnumbered = e'.unnumbered
  own c failed h := by simp [JournalEntry.disturbs, h]
  ran _ := rfl
  left _ _ := rfl
  requested _ _ _ _ := rfl

/-- The comparison of runs over different cells. -/
def Comparison.unnumbered (F : Prop) : Comparison where
  failures := F
  disturbs := JournalEntry.disturbs
  alike e e' := e.unnumbered = e'.unnumbered
  own _ _ h := h
  ran _ := rfl
  left _ _ := rfl
  requested _ _ _ _ := rfl

theorem Comparison.alike_unnumbered_iff {F : Prop} {j j' : List JournalEntry} :
    (unnumbered F).Alike j j' ↔ j.map JournalEntry.unnumbered = j'.map JournalEntry.unnumbered := by
  unfold Comparison.Alike unnumbered
  rw [← List.forall₂_eq_eq_eq, List.forall₂_map_left_iff, List.forall₂_map_right_iff]

/-- No member of a component was run, and none of some interfaces was asked for without an
identifier. -/
def KeepsApart (names : List String) (j : List JournalEntry) : Prop :=
  ∀ e ∈ j, e.disturbs = false ∧ e.asksFor names = false

instance (names : List String) (j : List JournalEntry) : Decidable (KeepsApart names j) :=
  inferInstanceAs (Decidable (∀ e ∈ j, _ ∧ _))

theorem undisturbed_apartFrom_iff {names : List String} {j : List JournalEntry} :
    (Comparison.apartFrom names).Undisturbed j ↔ KeepsApart names j := by
  unfold Comparison.Undisturbed KeepsApart Comparison.apartFrom
  simp only [Bool.or_eq_false_iff]

/-! ### Mirrored injectors -/

/-- Two injectors of a store that are akin, and whose containers show the same definitions. They
hold the same objects, except that each may have its own under some interfaces. -/
structure Store.Mirrored (s : Store) (r r' : Ref Injector) (names : List String)
    (c : Container Definition) : Prop where
  held : s.injectors.Holds r
  held' : s.injectors.Holds r'
  akin : (s.injectors.get r).Akin (s.injectors.get r')
  shows : Shows Grows s (s.injectors.get r).container c
  shows' : Shows Grows s (s.injectors.get r').container c
  instances : ∀ k : DefinitionKey, (k.identifier = none → k.interface ∉ names) →
    (s.injectors.get r').instances.get? k = (s.injectors.get r).instances.get? k

open Work Store

variable {s₀ s : Store} {r r' : Ref Injector} {O : List DefinitionKey} {names : List String}
  {c : Container Definition}

/-- Injectors stay mirrored when the store grows. -/
theorem Store.Mirrored.grown (h : s₀.Mirrored r r' names c) (hg : s₀.Grows s) :
    s.Mirrored r r' names c := by
  have hr := hg.injectors.get h.held
  have hr' := hg.injectors.get h.held'
  refine ⟨hg.injectors.holds h.held, hg.injectors.holds h.held', ?_, ?_, ?_, ?_⟩
  · rw [hr, hr']
    exact h.akin
  · rw [hr]
    exact h.shows.grown hg
  · rw [hr']
    exact h.shows'.grown hg
  · rw [hr, hr']
    exact h.instances

/-- A container of cells that show definitions selects as the container of the definitions does. -/
theorem Store.selected_shown (h : Shows Grows s (s.injectors.get r).container c) (q : Request)
    (key : DefinitionKey) : (s.selected r q key).map s.definition
      = Selection.select DefinitionOf.identifier c key q.exclude q.building := by
  rw [← h.view]
  exact (Selection.select_map s.definition DefinitionOf.identifier _ _ _ _).symm

/-- What is selected stands in the container. -/
theorem Store.entry_of_selected {q : Request} {key : DefinitionKey} {d : Ref DefinitionCell}
    (hselected : s.selected r q key = .ok d) :
    ∃ k, (k, d) ∈ (s.containers.get (s.injectors.get r).container).entries := by
  obtain ⟨k, hfound, -⟩ := Selection.find?_of_select hselected
  exact ⟨k, Container.mem_entries_iff.mpr hfound⟩

/-- A request that asks for an interface without an identifier tells so. -/
theorem Request.asksFor_of_key? {q : Request} {key : DefinitionKey} (hkey : q.key? = .ok key)
    (hnone : key.identifier = none) (hname : key.interface ∈ names) :
    JournalEntry.asksFor names (.requested q.interface q.identifier q.exclude q.building)
      = true := by
  unfold key? at hkey
  cases hinterface : q.interface.name? with
  | none =>
    rw [hinterface] at hkey
    cases hkey
  | some n =>
    have htext := Value.eq_text_of_name? hinterface
    rw [hinterface] at hkey
    dsimp only at hkey
    obtain ⟨i, hi, hkey⟩ : ∃ i, DefinitionOf.checkIdentifier n q.identifier = .ok i ∧
        key = ⟨n, i⟩ := by
      cases hi : DefinitionOf.checkIdentifier n q.identifier with
      | error e =>
        rw [hi] at hkey
        cases hkey
      | ok i =>
        rw [hi] at hkey
        cases hkey
        exact ⟨i, rfl, rfl⟩
    subst hkey
    cases hnone
    have hnull : q.identifier = .null := by
      unfold DefinitionOf.checkIdentifier at hi
      split at hi
      · assumption
      · split at hi <;> cases hi
    rw [htext, hnull]
    exact List.contains_iff_mem.mpr hname

/-- A request over one of the injectors takes the same steps over the other one, if the requests
inside of it do. -/
theorem conforms_step_mirrored {answer answer' : Answering} (h : s₀.Mirrored r r' names c)
    (hd : ∀ r q, Conforms (.apartFrom names) (fun _ => False) O O (answer r q none)
      (answer r q none))
    (ha : ∀ (O : List DefinitionKey) (q : Request),
      Conforms (.apartFrom names) s₀.Grows O O (answer r q none) (answer' r' q none))
    (q : Request) (given : Given) :
    Conforms (.apartFrom names) s₀.Grows O O (step answer r q given)
      (step answer' r' q given) := by
  refine conforms_step (R := fun d d' => s₀.definitions.Holds d ∧ DefinitionTwins s₀.Grows d d') hd
    (fun s hs _ => { hs with }) (fun hreached s key hs hkey => ?_) (fun s key hs hkey _ => ?_)
    fun s key d d' hs hkey _ htwins => ?_
  · refine (h.grown hs).instances key fun hnone hname => ?_
    have hasks := Request.asksFor_of_key? hkey hnone hname
    simp [Comparison.apartFrom, hasks] at hreached
  · have hs' := h.grown hs
    have hsame : (s.selected r q key).map s.definition
        = (s.selected r' q key).map s.definition := by
      rw [selected_shown hs'.shows, selected_shown hs'.shows']
    -- The cells that are selected were there from the first.
    refine Except.alike_of_map hsame fun d d' hd hd' hshown => ?_
    obtain ⟨k, hentry⟩ := entry_of_selected hd
    obtain ⟨k', hentry'⟩ := entry_of_selected hd'
    rw [hs.injectors.get h.held, hs.containers.get h.shows.held] at hentry
    rw [hs.injectors.get h.held', hs.containers.get h.shows'.held] at hentry'
    have hhas := h.shows.entry _ hentry
    have hhas' := h.shows'.entry _ hentry'
    rw [(hhas.grown hs).2, (hhas'.grown hs).2] at hshown
    exact ⟨hhas.1, definitionTwins_of_shown hhas hhas' hshown⟩
  · exact conforms_build hd (fun t ht => ht.definitions.get htwins.1) rfl htwins.2
      (fun t ht _ => { ht with }) (fun t ht => { ht with }) ⟨rfl, rfl⟩
      ⟨fun s hs => (h.grown hs).akin, fun q' _ => ha _ q'⟩ given

/-- Mirrored injectors answer alike at every depth. -/
theorem conforms_answer_mirrored (h : s₀.Mirrored r r' names c) (n : Nat) (q : Request)
    (given : Given) :
    Conforms (.apartFrom names) s₀.Grows O O (answer n r q given) (answer n r' q given) := by
  induction n generalizing O q given with
  | zero => exact conforms_foreign _
  | succ n ih =>
    exact conforms_step_mirrored h (fun r q => disturbed_answer n r q none) (fun O q => ih q none)
      q given

/-! ### Requests from outside -/

/-- A request has the same outcome over mirrored injectors, whether it succeeds or fails, and leaves
the same store behind up to the journal. -/
theorem request_mirrored (h : s.Mirrored r r' names c) (q : Request) (given : Given)
    (expected : Option ClassRef)
    (hapart : KeepsApart names ((request r q given expected).run s).2.journal) :
    ∃ j, (request r' q given expected).run s
      = (((request r q given expected).run s).1,
        ((request r q given expected).run s).2.withJournal j) := by
  have hstart : Store.Mirrored { s with journal := [] } r r' names c :=
    h.grown { Grows.refl s with }
  rw [run_request] at hapart
  rw [(run_checked _ _ _ _ []).1] at hapart
  obtain ⟨⟨j, hsame, -⟩, -⟩ := (conforms_answer_mirrored (O := []) hstart s.depth q given).conforms
    { s with journal := [] } [] (.refl _) .nil rfl (undisturbed_apartFrom_iff.mpr hapart)
    (Or.inl trivial)
  have hresolved : s.resolve r' q given
      = ((s.resolve r q given).1, (s.resolve r q given).2.withJournal j) := hsame
  refine ⟨j, ?_⟩
  rw [run_request, run_request, hresolved]
  exact (run_checked _ _ _ _ j).2

/-- Mirrored injectors list the same identifiers. -/
theorem Store.Mirrored.listed (h : s.Mirrored r r' names c) (interface : Value) :
    s.listed r' interface = s.listed r interface := by
  have hkeys : ∀ {r : Ref Injector}, Shows Grows s (s.injectors.get r).container c → ∀ name,
      ((s.containers.get (s.injectors.get r).container).definitions name).keys
        = (c.definitions name).keys := by
    intro r hshows name
    rw [← hshows.view]
    unfold container
    rw [Container.definitions_map, OrderedMap.keys_map]
  unfold Store.listed
  simp only [hkeys h.shows, hkeys h.shows']

theorem conforms_answerAll_mirrored (h : s₀.Mirrored r r' names c) (n : Nat) (interface : Value) :
    Conforms (.apartFrom names) s₀.Grows O O (answerAll (answer n) r interface)
      (answerAll (answer n) r' interface) := by
  rw [answerAll_eq, answerAll_eq]
  refine conforms_get_bind_of (fun _ _ => rfl) (fun s => ?_) fun s hs => ?_
  · exact (conforms_lift (direct_listed s r interface)).bind fun found =>
      conforms_answerEach (fun q => disturbed_answer n r q none) _ found
  · refine conforms_lift_bind (direct_listed s r interface)
      (fun _ => .of_eq ((h.grown hs).listed interface)) fun found _ _ hsame => ?_
    subst hsame
    exact conforms_answerEach (fun q => conforms_answer_mirrored h n q none) _ found

/-- Requests for all objects of an interface have the same outcome over mirrored injectors too. -/
theorem requestAll_mirrored (h : s.Mirrored r r' names c) (interface : Value)
    (hapart : KeepsApart names ((requestAll r interface).run s).2.journal) :
    ∃ j, (requestAll r' interface).run s
      = (((requestAll r interface).run s).1,
        ((requestAll r interface).run s).2.withJournal j) := by
  rw [run_requestAll] at hapart ⊢
  obtain ⟨⟨j, hsame, -⟩, -⟩ := (conforms_answerAll_mirrored h s.depth interface).conforms
    s s.journal (.refl _) (List.forall₂_same.mpr fun _ _ => rfl) rfl
    (undisturbed_apartFrom_iff.mpr hapart) (Or.inl trivial)
  refine ⟨j, ?_⟩
  rw [run_requestAll, ← hsame]
  rfl

end Wiring
