import Wiring.Container
import Wiring.Proofs.OrderedMaps

/-!
# `Wiring.Proofs.Containers`: the two level index

A container is an index of interfaces, each with the definitions of its identifiers. This module
states what an addition does to the lookup of a key and to the two listings, and that adding the
entries of a container in turn gives the container back, as long as no interface is listed without
definitions (`foldl_addOne_entries`). `Filled` is that condition. Additions keep it, so every
container that is built by additions satisfies it.
-/

set_option autoImplicit false

namespace Wiring

namespace Container

variable {δ ε : Type}

/-- Every interface that is listed has a definition. -/
def Filled (c : Container δ) : Prop := ∀ e ∈ c.index.entries, e.2.entries ≠ []

/-! ### Lookup -/

/-- The definitions of an interface after an addition. -/
theorem definitions_addOne (c : Container δ) (i j : String) (k : Option String) (d : δ) :
    (c.addOne i k d).definitions j
      = if j = i then (c.definitions i).insert k d else c.definitions j := by
  unfold addOne definitions
  rw [OrderedMap.get?_insert]
  by_cases h : j = i
  · simp [h]
  · simp [h]

/-- The definition of a key after an addition. -/
theorem find?_addOne (c : Container δ) (i : String) (k : Option String) (d : δ)
    (q : DefinitionKey) :
    (c.addOne i k d).find? q
      = if q.interface = i ∧ q.identifier = k then some d else c.find? q := by
  unfold find?
  rw [definitions_addOne]
  by_cases hi : q.interface = i
  · rw [if_pos hi, OrderedMap.get?_insert]
    by_cases hk : q.identifier = k
    · simp [hi, hk]
    · simp [hi, hk]
  · simp [hi]

/-- The definition of a key after an addition under several interfaces. -/
theorem find?_add (c : Container δ) (names : List String) (k : Option String) (d : δ)
    (q : DefinitionKey) :
    (c.add names k d).find? q
      = if q.interface ∈ names ∧ q.identifier = k then some d else c.find? q := by
  unfold add
  induction names generalizing c with
  | nil => simp
  | cons n rest ih =>
    rw [List.foldl_cons, ih, find?_addOne]
    by_cases hr : q.interface ∈ rest ∧ q.identifier = k
    · simp [hr]
    · by_cases hn : q.interface = n ∧ q.identifier = k
      · simp [hn]
      · rw [if_neg hr, if_neg hn, if_neg]
        rintro ⟨hm, hk⟩
        rcases List.mem_cons.mp hm with h | h
        · exact hn ⟨h, hk⟩
        · exact hr ⟨h, hk⟩

/-- The entries of a container hold what is found under their keys. -/
theorem mem_entries_iff {c : Container δ} {q : DefinitionKey} {d : δ} :
    (q, d) ∈ c.entries ↔ c.find? q = some d := by
  obtain ⟨i, k⟩ := q
  simp only [entries, List.mem_flatMap, List.mem_map, Prod.mk.injEq, DefinitionKey.mk.injEq,
    find?, definitions]
  constructor
  · rintro ⟨⟨j, m⟩, hm, ⟨k', d'⟩, hd, ⟨rfl, rfl⟩, rfl⟩
    rw [OrderedMap.get?_eq_some_iff.mpr hm]
    exact OrderedMap.get?_eq_some_iff.mpr hd
  · intro h
    cases hm : c.index.get? i with
    | none =>
      rw [hm, Option.getD_none, OrderedMap.get?_empty] at h
      cases h
    | some m =>
      rw [hm, Option.getD_some] at h
      exact ⟨(i, m), OrderedMap.get?_eq_some_iff.mp hm, (k, d),
        OrderedMap.get?_eq_some_iff.mp h, ⟨rfl, rfl⟩, rfl⟩

/-- Changing every definition changes those of an interface. -/
theorem definitions_map (f : δ → ε) (c : Container δ) (i : String) :
    (c.map f).definitions i = (c.definitions i).map f := by
  unfold definitions map
  rw [OrderedMap.get?_map]
  cases c.index.get? i with
  | none => rfl
  | some m => rfl

/-- Changing every definition changes what is found. -/
theorem find?_map (f : δ → ε) (c : Container δ) (q : DefinitionKey) :
    (c.map f).find? q = (c.find? q).map f := by
  unfold find?
  rw [definitions_map, OrderedMap.get?_map]

/-- Changing every definition leaves what is missing. -/
theorem absence_map (f : δ → ε) (c : Container δ) (q : DefinitionKey) :
    (c.map f).absence q = c.absence q := by
  have hinterfaces : (c.map f).interfaces = c.interfaces := OrderedMap.keys_map _ _
  unfold absence contains
  rw [definitions_map, hinterfaces, OrderedMap.keys_map]
  unfold OrderedMap.map
  rw [List.isEmpty_map]

/-- Two changes that agree on every definition of a container make the same of it. -/
theorem map_congr {f g : δ → ε} {c : Container δ} (h : ∀ e ∈ c.entries, f e.2 = g e.2) :
    c.map f = c.map g := by
  have hindex : c.index.map (OrderedMap.map f) = c.index.map (OrderedMap.map g) := by
    apply OrderedMap.ext
    refine List.map_congr_left fun e he => ?_
    have hinner : OrderedMap.map f e.2 = OrderedMap.map g e.2 := by
      apply OrderedMap.ext
      refine List.map_congr_left fun d hd => ?_
      rw [h (⟨e.1, d.1⟩, d.2) (List.mem_flatMap.mpr ⟨e, he, List.mem_map.mpr ⟨d, hd, rfl⟩⟩)]
    rw [hinner]
  unfold map
  rw [hindex]

/-- Changing no definition changes nothing. -/
theorem map_id (c : Container δ) : c.map id = c := by
  have hinner : (OrderedMap.map id : OrderedMap (Option String) δ → _) = id :=
    funext OrderedMap.map_id
  unfold map
  rw [hinner, OrderedMap.map_id]

/-- Two changes of every definition in turn. -/
theorem map_map {ζ : Type} (g : ε → ζ) (f : δ → ε) (c : Container δ) :
    (c.map f).map g = c.map (g ∘ f) := by
  have hmap : ∀ {κ α β γ : Type} (g : β → γ) (f : α → β) (m : OrderedMap κ α),
      (m.map f).map g = m.map (g ∘ f) := by
    intro κ α β γ g f m
    apply OrderedMap.ext
    show (m.entries.map _).map _ = m.entries.map _
    rw [List.map_map]
    rfl
  have hinner : OrderedMap.map g ∘ OrderedMap.map f
      = (OrderedMap.map (g ∘ f) : OrderedMap (Option String) δ → _) := funext (hmap g f)
  unfold map
  rw [hmap, hinner]

/-- An addition leaves the other entries, and adds none but its own. -/
theorem mem_entries_addOne {c : Container δ} {i : String} {k : Option String} {d : δ}
    {e : DefinitionKey × δ} (h : e ∈ (c.addOne i k d).entries) : e = (⟨i, k⟩, d) ∨ e ∈ c.entries := by
  obtain ⟨q, x⟩ := e
  rw [mem_entries_iff, find?_addOne] at h
  split at h
  · rename_i hq
    obtain ⟨j, l⟩ := q
    obtain ⟨rfl, rfl⟩ := hq
    cases h
    exact Or.inl rfl
  · exact Or.inr (mem_entries_iff.mpr h)

/-- Changing every definition and adding a changed one can be done in either order. -/
theorem map_addOne (f : δ → ε) (c : Container δ) (i : String) (k : Option String) (d : δ) :
    (c.addOne i k d).map f = (c.map f).addOne i k (f d) := by
  have hdefs : (c.map f).definitions i = (c.definitions i).map f := by
    unfold definitions map
    rw [OrderedMap.get?_map]
    cases c.index.get? i with
    | none => rfl
    | some m => rfl
  unfold addOne
  rw [hdefs, ← OrderedMap.map_insert]
  show (⟨_⟩ : Container ε) = _
  rw [OrderedMap.map_insert]
  rfl

/-- The same for an addition under several interfaces. -/
theorem map_add (f : δ → ε) (c : Container δ) (names : List String) (k : Option String) (d : δ) :
    (c.add names k d).map f = (c.map f).add names k (f d) := by
  unfold add
  induction names generalizing c with
  | nil => rfl
  | cons n rest ih => rw [List.foldl_cons, ih, map_addOne, List.foldl_cons]

/-! ### Listings -/

/-- The interfaces after an addition. -/
theorem interfaces_addOne (c : Container δ) (i : String) (k : Option String) (d : δ) :
    (c.addOne i k d).interfaces
      = if i ∈ c.interfaces then c.interfaces else c.interfaces ++ [i] :=
  OrderedMap.keys_insert _ _ _

/-- The identifiers of an interface after an addition. -/
theorem keys_definitions_addOne (c : Container δ) (i j : String) (k : Option String) (d : δ) :
    ((c.addOne i k d).definitions j).keys
      = if j = i ∧ k ∉ (c.definitions j).keys then (c.definitions j).keys ++ [k]
        else (c.definitions j).keys := by
  rw [definitions_addOne]
  by_cases hj : j = i
  · subst hj
    by_cases hk : k ∈ (c.definitions j).keys <;> simp [OrderedMap.keys_insert, hk]
  · simp [hj]

/-! ### Containers that are built by additions -/

/-- The container without definitions lists no interface. -/
theorem filled_empty : Filled (empty : Container δ) := by
  intro e he
  simp [empty, OrderedMap.empty] at he

/-- An addition leaves no interface without definitions. -/
theorem filled_addOne {c : Container δ} (h : c.Filled) (i : String) (k : Option String) (d : δ) :
    (c.addOne i k d).Filled := by
  intro e he
  rcases OrderedMap.mem_of_mem_put he with rfl | ho
  · exact OrderedMap.put_ne_nil _ _ _
  · exact h e ho

/-- An addition under several interfaces leaves none without definitions. -/
theorem filled_add {c : Container δ} (h : c.Filled) (names : List String) (k : Option String)
    (d : δ) : (c.add names k d).Filled := by
  unfold add
  induction names generalizing c with
  | nil => exact h
  | cons n rest ih => exact ih (filled_addOne h n k d)

/-- Adds one entry. -/
def addEntry (c : Container δ) (e : DefinitionKey × δ) : Container δ :=
  c.addOne e.1.interface e.1.identifier e.2

/-- Adding the definitions of the last interface in turn lists them behind those it has. -/
private theorem foldl_addEntry_last (i : String) (before : List (String × OrderedMap _ δ))
    (hi : i ∉ before.map Prod.fst) (todo : List (Option String × δ)) :
    ∀ (c : Container δ) (m : OrderedMap (Option String) δ),
      c.index.entries = before ++ [(i, m)] →
      ((m.entries ++ todo).map Prod.fst).Nodup →
      ∃ m', ((todo.map fun d => ((⟨i, d.1⟩, d.2) : DefinitionKey × δ)).foldl addEntry
          c).index.entries = before ++ [(i, m')] ∧ m'.entries = m.entries ++ todo := by
  induction todo with
  | nil =>
    intro c m hc _
    exact ⟨m, by simpa using hc, by simp⟩
  | cons d rest ih =>
    intro c m hc hm
    have hnew : d.1 ∉ m.keys := by
      rw [List.map_append, List.map_cons, List.nodup_append] at hm
      exact fun hk => hm.2.2 _ hk _ List.mem_cons_self rfl
    have hentries : (m.insert d.1 d.2).entries = m.entries ++ [d] :=
      OrderedMap.entries_insert_of_not_mem hnew
    have hdefs : c.definitions i = m := by
      unfold definitions OrderedMap.get?
      rw [hc, OrderedMap.lookup_append_last hi]
      rfl
    have hstep : (c.addOne i d.1 d.2).index.entries = before ++ [(i, m.insert d.1 d.2)] := by
      show (c.index.insert i ((c.definitions i).insert d.1 d.2)).entries = _
      rw [OrderedMap.entries_insert, hc, hdefs]
      exact OrderedMap.put_append_last hi
    obtain ⟨m', he, hm'⟩ := ih (c.addOne i d.1 d.2) (m.insert d.1 d.2) hstep
      (by rw [hentries]; simpa using hm)
    exact ⟨m', he, by rw [hm', hentries]; simp⟩

/-- Adding the entries of new interfaces in turn lists the interfaces behind the others. -/
private theorem foldl_addEntry_index (todo : List (String × OrderedMap (Option String) δ)) :
    ∀ c : Container δ,
      ((c.index.entries ++ todo).map Prod.fst).Nodup →
      (∀ e ∈ todo, e.2.entries ≠ []) →
      ((todo.flatMap fun e => e.2.entries.map fun d =>
          ((⟨e.1, d.1⟩, d.2) : DefinitionKey × δ)).foldl addEntry c).index.entries
        = c.index.entries ++ todo := by
  induction todo with
  | nil => simp
  | cons e rest ih =>
    intro c hkeys hfilled
    obtain ⟨i, m⟩ := e
    have hi : i ∉ c.index.keys := by
      rw [List.map_append, List.map_cons, List.nodup_append] at hkeys
      exact fun hk => hkeys.2.2 _ hk _ List.mem_cons_self rfl
    -- The first definition of the interface makes its place, the others go behind it.
    obtain ⟨d, ds, hds⟩ : ∃ d ds, m.entries = d :: ds :=
      List.exists_cons_of_ne_nil (hfilled _ List.mem_cons_self)
    have hfirst : (c.addOne i d.1 d.2).index.entries
        = c.index.entries ++ [(i, OrderedMap.empty.insert d.1 d.2)] := by
      unfold addOne
      rw [OrderedMap.entries_insert_of_not_mem hi]
      simp [definitions, OrderedMap.get?_eq_none_iff.mpr hi]
    obtain ⟨m', hgroup, hm'⟩ := foldl_addEntry_last i c.index.entries hi ds
      (c.addOne i d.1 d.2) _ hfirst
      (by simpa [OrderedMap.insert, OrderedMap.empty, OrderedMap.put, hds] using m.nodup)
    have hm : m' = m := by
      apply OrderedMap.ext
      rw [hm', hds]
      simp [OrderedMap.insert, OrderedMap.empty, OrderedMap.put]
    subst hm
    rw [List.flatMap_cons, List.foldl_append, hds, List.map_cons, List.foldl_cons]
    show ((rest.flatMap _).foldl addEntry ((ds.map _).foldl addEntry
      (c.addOne i d.1 d.2))).index.entries = _
    rw [ih _ (by rw [hgroup]; simpa using hkeys)
      (fun e he => hfilled e (List.mem_cons_of_mem _ he)), hgroup]
    simp

/-- Adding the entries of a container in turn gives the container. -/
theorem foldl_addEntry_entries {c : Container δ} (h : c.Filled) :
    c.entries.foldl addEntry empty = c := by
  have hindex := foldl_addEntry_index c.index.entries (empty : Container δ)
    (by simpa [empty, OrderedMap.empty] using c.index.nodup) h
  have : (c.entries.foldl addEntry empty).index = c.index :=
    OrderedMap.ext (by simpa [empty, OrderedMap.empty, entries] using hindex)
  cases hc : c.entries.foldl addEntry empty
  cases c
  simp_all

end Container

end Wiring
