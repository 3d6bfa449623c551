import Wiring.Proofs.Containers
import Wiring.Resolution.Selection

/-!
# `Wiring.Proofs.Selection`: what a request may select

A request selects an entry of its interface. With an identifier it is the entry of that key, which
is not being built. Without one it is an entry that is not excluded.
-/

set_option autoImplicit false

namespace Wiring

namespace Exclusions

theorem contains_iff {e : Exclusions} {k : DefinitionKey} :
    e.contains k = true ↔ k ∈ e.keys := by
  unfold contains
  exact decide_eq_true_iff

end Exclusions

namespace Selection

variable {δ : Type} {identifier : δ → Option String} {c : Container δ} {k : DefinitionKey}
  {interface : String} {exclude building : Exclusions} {d : δ}

/-- The candidates of an interface are its definitions that are not excluded. -/
theorem mem_candidates_iff : d ∈ candidates c interface exclude ↔
    ∃ i, c.find? ⟨interface, i⟩ = some d ∧ (⟨interface, i⟩ : DefinitionKey) ∉ exclude.keys := by
  unfold candidates Container.find?
  simp only [List.mem_map, List.mem_filter, Bool.not_eq_true', ← Bool.not_eq_true,
    Exclusions.contains_iff, OrderedMap.get?_eq_some_iff]
  constructor
  · rintro ⟨⟨i, x⟩, ⟨hmem, hfree⟩, rfl⟩
    exact ⟨i, hmem, hfree⟩
  · rintro ⟨i, hmem, hfree⟩
    exact ⟨(i, d), ⟨hmem, hfree⟩, rfl⟩

/-- What is chosen is one of the candidates. -/
theorem mem_of_choose {excludes : Bool} {found : List δ}
    (h : choose identifier interface excludes found = .ok d) : d ∈ found := by
  unfold choose at h
  split at h
  · rename_i x hx
    cases h
    exact List.mem_of_find?_eq_some hx
  · split at h
    · cases h
    · cases h
      exact List.mem_cons_self
    · split at h
      · cases h
        exact List.mem_cons_self
      · cases h

/-- A request with an identifier selects the definition of its key, unless it is being built. -/
theorem named_eq_ok_iff :
    named c k building = .ok d ↔ c.find? k = some d ∧ k ∉ building.keys := by
  unfold named Container.get
  cases c.find? k with
  | none => simp
  | some x =>
    by_cases hk : k ∈ building.keys
    · simp [Exclusions.contains, hk]
    · simp [Exclusions.contains, hk]

/-- A request without identifier selects a candidate. -/
theorem mem_of_unnamed (h : unnamed identifier c interface exclude = .ok d) :
    d ∈ candidates c interface exclude := by
  unfold unnamed at h
  dsimp only at h
  split at h
  · cases h
  · split at h
    · cases h
    · exact mem_of_choose h

/-- What is selected stands under a key of the interface that was asked for. The key is not being
built if it was asked for, and not excluded otherwise. -/
theorem find?_of_select (h : select identifier c k exclude building = .ok d) :
    ∃ q, c.find? q = some d ∧ q.interface = k.interface ∧
      (k.identifier.isSome = true → q ∉ building.keys) ∧
      (k.identifier = none → q ∉ exclude.keys) := by
  unfold select at h
  split at h
  · rename_i i hi
    obtain ⟨hfound, hfree⟩ := named_eq_ok_iff.mp h
    refine ⟨k, hfound, rfl, fun _ => hfree, fun hnone => ?_⟩
    rw [hnone] at hi
    cases hi
  · rename_i hi
    obtain ⟨i, hfound, hfree⟩ := mem_candidates_iff.mp (mem_of_unnamed h)
    refine ⟨⟨k.interface, i⟩, hfound, rfl, fun hsome => ?_, fun _ => hfree⟩
    rw [hi] at hsome
    cases hsome

/-! ### Changed definitions -/

section Changed

variable {ε : Type} (f : δ → ε) (name : ε → Option String)

theorem candidates_map (c : Container δ) (interface : String) (exclude : Exclusions) :
    candidates (c.map f) interface exclude = (candidates c interface exclude).map f := by
  unfold candidates
  rw [Container.definitions_map]
  unfold OrderedMap.map
  rw [List.filter_map, List.map_map, List.map_map]
  rfl

theorem choose_map (interface : String) (excludes : Bool) (found : List δ) :
    choose name interface excludes (found.map f)
      = (choose (name ∘ f) interface excludes found).map f := by
  unfold choose
  rw [List.find?_map]
  cases hfound : found.find? ((fun x => (name x).isNone) ∘ f) with
  | some d =>
    have hsame : found.find? (fun d => ((name ∘ f) d).isNone) = some d := hfound
    rw [hsame]
    rfl
  | none =>
    have hsame : found.find? (fun d => ((name ∘ f) d).isNone) = none := hfound
    rw [hsame]
    match found with
    | [] => rfl
    | [d] => rfl
    | d :: e :: rest =>
      cases excludes with
      | true => rfl
      | false => simp [Except.map]

/-- What is selected by identifiers does not depend on what else the definitions are. -/
theorem select_map (c : Container δ) (k : DefinitionKey) (exclude building : Exclusions) :
    select name (c.map f) k exclude building
      = (select (name ∘ f) c k exclude building).map f := by
  unfold select
  cases k.identifier with
  | some i =>
    unfold named Container.get
    dsimp only
    rw [Container.find?_map, Container.absence_map]
    cases c.find? k with
    | none => rfl
    | some d =>
      dsimp only [Option.map_some]
      split <;> rfl
  | none =>
    unfold unnamed
    dsimp only
    rw [Container.definitions_map, OrderedMap.keys_map, Container.absence_map, candidates_map]
    split
    · rfl
    · cases candidates c k.interface exclude with
      | nil => rfl
      | cons d rest => exact choose_map f name _ _ (d :: rest)

end Changed

/-- The ways in which a request with a key may select nothing. -/
inductive Refusal (k : DefinitionKey) : Fault → Prop where
  | notFound (why : Absence) : Refusal k (.notFound why)
  | ambiguous (identifiers : List (Option String)) : Refusal k (.ambiguous k.interface identifiers)
  | circular (building : Exclusions) : Refusal k (.circular k building)

theorem refusal_of_choose {excludes : Bool} {found : List δ} {e : Fault}
    (h : choose identifier k.interface excludes found = .error e) : Refusal k e := by
  unfold choose at h
  split at h
  · cases h
  · split at h
    · cases h
      exact .ambiguous _
    · cases h
    · split at h
      · cases h
      · cases h
        exact .ambiguous _

/-- A selection fails because there is no definition, because there are several, or because the
definition is being built. -/
theorem refusal_of_select {e : Fault} (h : select identifier c k exclude building = .error e) :
    Refusal k e := by
  unfold select at h
  split at h
  · unfold named at h
    split at h
    · cases h
      exact .notFound _
    · split at h
      · cases h
        exact .circular _
      · cases h
  · unfold unnamed at h
    dsimp only at h
    split at h
    · cases h
      exact .notFound _
    · split at h
      · cases h
        exact .notFound _
      · exact refusal_of_choose h

end Selection

end Wiring
