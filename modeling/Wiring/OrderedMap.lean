/-!
# `Wiring.OrderedMap`: maps that remember the order of first insertion

A map is its list of entries. Inserting under a known key replaces the value where it stands, and
inserting under a new key appends, so a listing shows the keys in the order in which they were first
seen. `entries_insert_of_mem` and `entries_insert_of_not_mem` are these two rules as equations. That
no key stands twice is part of the type.
-/

set_option autoImplicit false

namespace Wiring

/-- A finite map listed in the order of first insertion. -/
structure OrderedMap (κ ν : Type) where
  entries : List (κ × ν)
  nodup : (entries.map Prod.fst).Nodup

namespace OrderedMap

variable {κ ν μ : Type}

/-- The keys in the order of first insertion. -/
def keys (m : OrderedMap κ ν) : List κ := m.entries.map Prod.fst

/-- The values in the order of their keys. -/
def values (m : OrderedMap κ ν) : List ν := m.entries.map Prod.snd

/-- The number of entries. -/
def size (m : OrderedMap κ ν) : Nat := m.entries.length

/-- The map without entries. -/
def empty : OrderedMap κ ν := ⟨[], List.nodup_nil⟩

instance : Inhabited (OrderedMap κ ν) := ⟨empty⟩

instance : EmptyCollection (OrderedMap κ ν) := ⟨empty⟩

/-- Two maps are the same when they list the same entries. -/
@[ext] theorem ext {m n : OrderedMap κ ν} (h : m.entries = n.entries) : m = n := by
  cases m; cases n; cases h; rfl

/-- Changes every value and no key. -/
def map (f : ν → μ) (m : OrderedMap κ ν) : OrderedMap κ μ where
  entries := m.entries.map fun e => (e.1, f e.2)
  nodup := by
    have h : (m.entries.map fun e => (e.1, f e.2)).map Prod.fst = m.entries.map Prod.fst := by
      simp [List.map_map, Function.comp_def]
    rw [h]; exact m.nodup

section Keyed

variable [DecidableEq κ]

/-- The value of the first entry with key `k`. -/
def lookup (k : κ) : List (κ × ν) → Option ν
  | [] => none
  | (k', v) :: rest => if k' = k then some v else lookup k rest

/-- The value stored under a key. -/
def get? (m : OrderedMap κ ν) (k : κ) : Option ν := lookup k m.entries

/-- Whether a key has a value. -/
def contains (m : OrderedMap κ ν) (k : κ) : Bool := decide (k ∈ m.keys)

/-- Writes a value at the place of its key, and at the end when the key is new. -/
def put (k : κ) (v : ν) : List (κ × ν) → List (κ × ν)
  | [] => [(k, v)]
  | (k', v') :: rest => if k' = k then (k, v) :: rest else (k', v') :: put k v rest

theorem mem_keys_put {k k' : κ} {v : ν} {l : List (κ × ν)} :
    k' ∈ (put k v l).map Prod.fst ↔ k' = k ∨ k' ∈ l.map Prod.fst := by
  induction l with
  | nil => simp [put]
  | cons e rest ih =>
    by_cases h : e.1 = k
    · subst h; simp [put]
    · simp only [put, h, if_false, List.map_cons, List.mem_cons, ih]
      constructor
      · rintro (h | h | h) <;> simp [h]
      · rintro (h | h | h) <;> simp [h]

theorem nodup_put {k : κ} {v : ν} {l : List (κ × ν)} (h : (l.map Prod.fst).Nodup) :
    ((put k v l).map Prod.fst).Nodup := by
  induction l with
  | nil => simp [put]
  | cons e rest ih =>
    rw [List.map_cons, List.nodup_cons] at h
    by_cases hk : e.1 = k
    · subst hk; simpa [put] using h
    · simp only [put, hk, if_false, List.map_cons, List.nodup_cons]
      refine ⟨fun hm => ?_, ih h.2⟩
      rcases mem_keys_put.1 hm with he | he
      · exact hk he
      · exact h.1 he

/-- Stores a value: a known key keeps its place, a new one is listed last. -/
def insert (m : OrderedMap κ ν) (k : κ) (v : ν) : OrderedMap κ ν :=
  ⟨put k v m.entries, nodup_put m.nodup⟩

/-- Forgets a key. -/
def erase (m : OrderedMap κ ν) (k : κ) : OrderedMap κ ν where
  entries := m.entries.filter fun e => decide (e.1 ≠ k)
  nodup := m.nodup.sublist (List.Sublist.map _ List.filter_sublist)

/-- The map of a list of pairs: a repeated key keeps its first place and its last value. -/
def ofList (l : List (κ × ν)) : OrderedMap κ ν := l.foldl (fun m e => m.insert e.1 e.2) empty

/-- Stores every entry of the second map in turn. -/
def merge (m n : OrderedMap κ ν) : OrderedMap κ ν := n.entries.foldl (fun a e => a.insert e.1 e.2) m

/-! ### What the operations do to the listing -/

theorem put_of_not_mem {k : κ} {v : ν} {l : List (κ × ν)} (h : k ∉ l.map Prod.fst) :
    put k v l = l ++ [(k, v)] := by
  induction l with
  | nil => rfl
  | cons e rest ih =>
    rw [List.map_cons, List.mem_cons, not_or] at h
    have hk : ¬ e.1 = k := fun he => h.1 he.symm
    simp [put, hk, ih h.2]

theorem keys_put_of_mem {k : κ} {v : ν} {l : List (κ × ν)} (h : k ∈ l.map Prod.fst) :
    (put k v l).map Prod.fst = l.map Prod.fst := by
  induction l with
  | nil => simp at h
  | cons e rest ih =>
    by_cases hk : e.1 = k
    · simp [put, hk]
    · rw [List.map_cons, List.mem_cons] at h
      have hr := h.resolve_left fun he => hk he.symm
      simp [put, hk, ih hr]

theorem entries_insert_of_not_mem {m : OrderedMap κ ν} {k : κ} {v : ν} (h : k ∉ m.keys) :
    (m.insert k v).entries = m.entries ++ [(k, v)] := put_of_not_mem h

theorem keys_insert_of_mem {m : OrderedMap κ ν} {k : κ} {v : ν} (h : k ∈ m.keys) :
    (m.insert k v).keys = m.keys := keys_put_of_mem h

theorem lookup_put_self {k : κ} {v : ν} {l : List (κ × ν)} : lookup k (put k v l) = some v := by
  induction l with
  | nil => simp [put, lookup]
  | cons e rest ih => by_cases h : e.1 = k <;> simp [put, lookup, h, ih]

theorem lookup_put_of_ne {k k' : κ} {v : ν} {l : List (κ × ν)} (h : k' ≠ k) :
    lookup k' (put k v l) = lookup k' l := by
  induction l with
  | nil => simp [put, lookup, Ne.symm h]
  | cons e rest ih =>
    by_cases he : e.1 = k
    · have hne : ¬ k = k' := fun hk => h hk.symm
      simp [put, lookup, he, hne]
    · simp [put, lookup, he, ih]

@[simp] theorem get?_insert_self (m : OrderedMap κ ν) (k : κ) (v : ν) :
    (m.insert k v).get? k = some v := lookup_put_self

theorem get?_insert_of_ne (m : OrderedMap κ ν) {k k' : κ} (v : ν) (h : k' ≠ k) :
    (m.insert k v).get? k' = m.get? k' := lookup_put_of_ne h

@[simp] theorem get?_empty (k : κ) : (empty : OrderedMap κ ν).get? k = none := rfl

end Keyed

end OrderedMap

end Wiring
