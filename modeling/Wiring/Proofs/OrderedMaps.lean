import Mathlib.Data.List.Nodup
import Wiring.OrderedMap

/-!
# `Wiring.Proofs.OrderedMaps`: listings of ordered maps

A map lists its keys in the order of first insertion. This module states what an insertion does to
the listing when the key is at its end, new, or known, and that inserting the entries of a map in
turn gives the map back (`foldl_insert_entries`).
-/

set_option autoImplicit false

namespace Wiring

namespace OrderedMap

variable {κ ν : Type} [DecidableEq κ]

omit [DecidableEq κ] in
/-- Changing no value changes nothing. -/
theorem map_id (m : OrderedMap κ ν) : m.map id = m := ext (List.map_id m.entries)

omit [DecidableEq κ] in
/-- Changing values changes no key. -/
theorem keys_map {μ : Type} (f : ν → μ) (m : OrderedMap κ ν) : (m.map f).keys = m.keys := by
  unfold keys map
  rw [List.map_map]
  rfl

/-- A key is listed exactly when it has a value. -/
theorem lookup_eq_none_iff {k : κ} {l : List (κ × ν)} :
    lookup k l = none ↔ k ∉ l.map Prod.fst := by
  induction l with
  | nil => simp [lookup]
  | cons e rest ih =>
    by_cases h : e.1 = k
    · simp [lookup, h]
    · simp [lookup, h, ih, Ne.symm h]

/-- The value of a key is listed with it. -/
theorem mem_of_lookup {k : κ} {v : ν} {l : List (κ × ν)} (h : lookup k l = some v) :
    (k, v) ∈ l := by
  induction l with
  | nil => simp [lookup] at h
  | cons e rest ih =>
    obtain ⟨k', v'⟩ := e
    by_cases hk : k' = k
    · have hv : v' = v := by simpa [lookup, hk] using h
      simp [hk, hv]
    · have hr : lookup k rest = some v := by simpa [lookup, hk] using h
      exact List.mem_cons_of_mem _ (ih hr)

/-- What is listed with a key is its value, when no key is listed twice. -/
theorem lookup_of_mem {k : κ} {v : ν} {l : List (κ × ν)} (hl : (l.map Prod.fst).Nodup)
    (h : (k, v) ∈ l) : lookup k l = some v := by
  induction l with
  | nil => simp at h
  | cons e rest ih =>
    rw [List.map_cons, List.nodup_cons] at hl
    rcases List.mem_cons.mp h with rfl | hr
    · simp [lookup]
    · have hk : ¬ e.1 = k := by
        intro he
        exact hl.1 (he ▸ List.mem_map_of_mem hr)
      simp [lookup, hk, ih hl.2 hr]

/-- Removing a key leaves the values of the others. -/
theorem get?_erase_of_ne (m : OrderedMap κ ν) {k k' : κ} (h : k' ≠ k) :
    (m.erase k).get? k' = m.get? k' := by
  unfold get? erase
  dsimp only
  induction m.entries with
  | nil => rfl
  | cons e rest ih =>
    by_cases he : e.1 = k
    · rw [List.filter_cons_of_neg (by simp [he]), ih, lookup, if_neg fun h' => h (h'.symm.trans he)]
    · rw [List.filter_cons_of_pos (by simp [he]), lookup, lookup, ih]

/-- A value is stored under a key exactly when the two are listed together. -/
theorem get?_eq_some_iff {m : OrderedMap κ ν} {k : κ} {v : ν} :
    m.get? k = some v ↔ (k, v) ∈ m.entries :=
  ⟨mem_of_lookup, lookup_of_mem m.nodup⟩

/-- Removing a key gives no other one a value. -/
theorem get?_of_erase {m : OrderedMap κ ν} {k k' : κ} {v : ν} (h : (m.erase k).get? k' = some v) :
    m.get? k' = some v :=
  get?_eq_some_iff.mpr (List.mem_of_mem_filter (get?_eq_some_iff.mp h))

/-- A key that is removed has no value. -/
theorem get?_erase_self (m : OrderedMap κ ν) (k : κ) : (m.erase k).get? k = none := by
  refine Option.eq_none_iff_forall_not_mem.mpr fun v hv => ?_
  have hmem := get?_eq_some_iff.mp (show (m.erase k).get? k = some v from hv)
  simp [erase] at hmem

/-- A key without value is not listed. -/
theorem get?_eq_none_iff {m : OrderedMap κ ν} {k : κ} : m.get? k = none ↔ k ∉ m.keys :=
  lookup_eq_none_iff

/-- An insertion writes into the listing. -/
theorem entries_insert (m : OrderedMap κ ν) (k : κ) (v : ν) :
    (m.insert k v).entries = put k v m.entries := rfl

/-- Changing every value changes what is found. -/
theorem lookup_map_snd {μ : Type} (f : ν → μ) (k : κ) (l : List (κ × ν)) :
    lookup k (l.map fun e => (e.1, f e.2)) = (lookup k l).map f := by
  induction l with
  | nil => rfl
  | cons e rest ih => by_cases h : e.1 = k <;> simp [lookup, h, ih]

/-- Changing every value of a map changes what is found. -/
theorem get?_map {μ : Type} (f : ν → μ) (m : OrderedMap κ ν) (k : κ) :
    (m.map f).get? k = (m.get? k).map f :=
  lookup_map_snd f k m.entries

/-- Changing every value and writing a changed one can be done in either order. -/
theorem map_insert {μ : Type} (f : ν → μ) (m : OrderedMap κ ν) (k : κ) (v : ν) :
    (m.insert k v).map f = (m.map f).insert k (f v) := by
  have hput : ∀ l : List (κ × ν),
      (put k v l).map (fun e => (e.1, f e.2)) = put k (f v) (l.map fun e => (e.1, f e.2)) := by
    intro l
    induction l with
    | nil => rfl
    | cons e rest ih => by_cases h : e.1 = k <;> simp [put, h, ih]
  exact ext (hput m.entries)

/-- Writing under a key that is not listed at first changes only what is listed after that. -/
theorem put_append_of_not_mem {k : κ} {v : ν} {l rest : List (κ × ν)}
    (h : k ∉ l.map Prod.fst) : put k v (l ++ rest) = l ++ put k v rest := by
  induction l with
  | nil => rfl
  | cons e l ih =>
    rw [List.map_cons, List.mem_cons, not_or] at h
    have hk : ¬ e.1 = k := fun he => h.1 he.symm
    rw [List.cons_append, put, if_neg hk, ih h.2, List.cons_append]

/-- Writing under the last key of a listing changes its last entry only. -/
theorem put_append_last {k : κ} {v w : ν} {l : List (κ × ν)} (h : k ∉ l.map Prod.fst) :
    put k w (l ++ [(k, v)]) = l ++ [(k, w)] := by
  rw [put_append_of_not_mem h, put, if_pos rfl]

/-- The value of the last key of a listing. -/
theorem lookup_append_last {k : κ} {v : ν} {l : List (κ × ν)} (h : k ∉ l.map Prod.fst) :
    lookup k (l ++ [(k, v)]) = some v := by
  rw [← put_of_not_mem h]
  exact lookup_put_self

/-- The entries of a listing after a write: the new one, and old ones. -/
theorem mem_of_mem_put {k : κ} {v : ν} {l : List (κ × ν)}
    {e : κ × ν} (h : e ∈ put k v l) : e = (k, v) ∨ e ∈ l := by
  induction l with
  | nil => simpa [put] using h
  | cons x rest ih =>
    by_cases hx : x.1 = k
    · simp only [put, hx, if_true, List.mem_cons] at h
      exact h.imp id (List.mem_cons_of_mem _)
    · simp only [put, hx, if_false, List.mem_cons] at h
      rcases h with h | h
      · exact Or.inr (by simp [h])
      · exact (ih h).imp id (List.mem_cons_of_mem _)

/-- A listing is never empty after a write. -/
theorem put_ne_nil (k : κ) (v : ν) (l : List (κ × ν)) :
    put k v l ≠ [] := by
  cases l with
  | nil => simp [put]
  | cons x rest => by_cases hx : x.1 = k <;> simp [put, hx]

/-- The keys after an insertion. -/
theorem keys_insert (m : OrderedMap κ ν) (k : κ) (v : ν) :
    (m.insert k v).keys = if k ∈ m.keys then m.keys else m.keys ++ [k] := by
  by_cases h : k ∈ m.keys
  · rw [if_pos h, keys_insert_of_mem h]
  · rw [if_neg h, keys, entries_insert_of_not_mem h]
    simp [keys]

/-- The value of a key after an insertion. -/
theorem get?_insert (m : OrderedMap κ ν) (k k' : κ) (v : ν) :
    (m.insert k v).get? k' = if k' = k then some v else m.get? k' := by
  by_cases h : k' = k
  · subst h
    simp
  · rw [if_neg h, get?_insert_of_ne m v h]

/-- Inserting entries with new keys in turn lists them behind the others. -/
theorem entries_foldl_insert (l : List (κ × ν)) (m : OrderedMap κ ν)
    (h : ((m.entries ++ l).map Prod.fst).Nodup) :
    (l.foldl (fun m e => m.insert e.1 e.2) m).entries = m.entries ++ l := by
  induction l generalizing m with
  | nil => simp
  | cons e rest ih =>
    have hnew : e.1 ∉ m.keys := by
      rw [List.map_append, List.map_cons, List.nodup_append] at h
      exact fun hm => h.2.2 _ hm _ List.mem_cons_self rfl
    have hstep : (m.insert e.1 e.2).entries = m.entries ++ [e] := entries_insert_of_not_mem hnew
    rw [List.foldl_cons, ih _ (by rw [hstep]; simpa using h), hstep]
    simp

/-- Inserting the entries of a map in turn gives the map. -/
theorem foldl_insert_entries (m : OrderedMap κ ν) :
    m.entries.foldl (fun m e => m.insert e.1 e.2) empty = m := by
  apply ext
  have h := entries_foldl_insert m.entries empty (by simpa [empty] using m.nodup)
  simpa [empty] using h

end OrderedMap

end Wiring
