import Wiring.Proofs.Configuring
import Wiring.Proofs.Independence
import Wiring.Proofs.Spellings

/-!
# `Wiring.Proofs.Merging`: setting a mapping merges it

A mapping is set leaf by leaf, each one under a longer key that is split at its dots again, and each
write finds the tree that the writes before it left. `ConfigNode.merge` says what this comes to
without keys and paths: a leaf replaces what is there, a mapping is merged entry by entry into the
section that is there, and one without leaves changes nothing. `Config.set_eq_write` shows by
induction on the value, for every tree and every key, that setting is writing the merged node once.
It rests on two facts about paths: what stands one token further stands in the section, and a second
write to the same place replaces the first (`ConfigEntries.set_concat`, `ConfigEntries.set_set`).

The tokens that a mapping brings must have no dots, or they would lead further down.
-/

set_option autoImplicit false

namespace Wiring

/-! ### Writing twice, and one token further -/

namespace OrderedMap

variable {κ ν : Type} [DecidableEq κ]

/-- Of two values that are written under a key the second stays. -/
theorem put_put (k : κ) (v w : ν) (l : List (κ × ν)) : put k w (put k v l) = put k w l := by
  induction l with
  | nil => simp [put]
  | cons e rest ih => by_cases h : e.1 = k <;> simp [put, h, ih]

end OrderedMap

namespace ConfigEntries

open OrderedMap

variable {es : ConfigEntries} {token next : String} {rest : List String} {node node' : ConfigNode}

/-- The entries of the section at the end of a path. Where no section is there are none. -/
def sectionAt (es : ConfigEntries) (token : String) (rest : List String) : ConfigEntries :=
  (ofNode? (es.get? token rest)).getD []

/-- Of two nodes that are written at the end of a path the second stays. -/
theorem set_set : (es.set token node rest).set token node' rest = es.set token node' rest := by
  induction rest generalizing es token with
  | nil => exact put_put token node node' es
  | cons next rest ih =>
    rw [set, set, lookup_put_self, put_put, set]
    exact congrArg (fun inner => put token (.section inner) es) ih

/-- Writing what is there changes nothing. -/
theorem set_of_get? (h : es.get? token rest = some node) : es.set token node rest = es := by
  induction rest generalizing es token with
  | nil => exact put_of_lookup h
  | cons next rest ih =>
    rw [get?, Option.bind_eq_some_iff] at h
    obtain ⟨inner, hinner, h⟩ := h
    rw [set, hinner, Option.getD_some, ih h]
    exact put_of_lookup (eq_section hinner)

/-- What stands one token further stands in the section. -/
theorem get?_concat : es.get? token (rest ++ [next]) = lookup next (es.sectionAt token rest) := by
  induction rest generalizing es token with
  | nil =>
    rw [List.nil_append, get?, sectionAt, get?]
    cases ofNode? (lookup token es) <;> rfl
  | cons first rest ih =>
    rw [List.cons_append, get?, sectionAt, get?]
    cases ofNode? (lookup token es) with
    | none => rfl
    | some inner => exact ih

/-- Writing one token further writes into the section. -/
theorem set_concat : es.set token node (rest ++ [next])
    = es.set token (.section (put next node (es.sectionAt token rest))) rest := by
  induction rest generalizing es token with
  | nil => rfl
  | cons first rest ih =>
    rw [List.cons_append, set, ih, set]
    cases hinner : ofNode? (lookup token es) with
    | none =>
      have hempty : es.sectionAt token (first :: rest) = sectionAt [] first rest := by
        rw [sectionAt, sectionAt, get?, hinner, get?_nil]
        rfl
      rw [hempty]
      rfl
    | some inner =>
      have hinside : es.sectionAt token (first :: rest) = sectionAt inner first rest := by
        rw [sectionAt, sectionAt, get?, hinner]
        rfl
      rw [hinside]
      rfl

end ConfigEntries

/-! ### Mappings by their leaves and keys -/

namespace Value

mutual

/-- Whether a value is no mapping, or a mapping with such a value at some depth. -/
def hasLeaf : Value → Bool
  | .map _ entries => entriesHaveLeaf entries
  | _ => true

/-- Whether a mapping has a leaf at some depth. -/
def entriesHaveLeaf : List (Value × Value) → Bool
  | [] => false
  | (_, v) :: rest => hasLeaf v || entriesHaveLeaf rest

end

/-- The value is a text without dots. -/
def IsToken (v : Value) : Prop := ∃ t, v = .text t ∧ '.' ∉ t.toList

mutual

/-- The keys of a mapping and of the mappings in it are texts without dots. -/
def Dotless : Value → Prop
  | .map _ entries => EntriesDotless entries
  | _ => True

/-- The keys of some entries and of the mappings in them are texts without dots. -/
def EntriesDotless : List (Value × Value) → Prop
  | [] => True
  | (k, v) :: rest => IsToken k ∧ Dotless v ∧ EntriesDotless rest

end

mutual

/-- No mapping in a value is empty, and the keys of each are different texts without dots. -/
def Tidy : Value → Prop
  | .map _ entries => entries ≠ [] ∧ EntriesTidy entries
  | _ => True

/-- The keys of some entries are different texts without dots, and so are those of the mappings in
them, of which none is empty. -/
def EntriesTidy : List (Value × Value) → Prop
  | [] => True
  | (k, v) :: rest => IsToken k ∧ k ∉ rest.map Prod.fst ∧ Tidy v ∧ EntriesTidy rest

end

mutual

/-- A value with its leaves changed and its mappings without places. -/
def mapLeaves (f : Value → Value) : Value → Value
  | .map _ entries => .map none (mapEntryLeaves f entries)
  | v => f v

/-- The entries of a mapping with the leaves changed. -/
def mapEntryLeaves (f : Value → Value) : List (Value × Value) → List (Value × Value)
  | [] => []
  | (k, v) :: rest => (k, mapLeaves f v) :: mapEntryLeaves f rest

end

/-- A tidy value has a leaf, since no mapping in it is empty. -/
theorem hasLeaf_of_tidy : ∀ {v : Value}, v.Tidy → v.hasLeaf = true
  | .map _ [], h => absurd rfl h.1
  | .map _ (_ :: _), h => by
    rw [hasLeaf, entriesHaveLeaf, hasLeaf_of_tidy h.2.2.2.1]
    rfl
  | .null, _ | .bool _, _ | .int _, _ | .float _, _ | .text _, _ | .bytes _, _ | .list _ _, _
  | .object _, _ | .path _, _ | .component _ _, _ | .parser _, _ | .other _, _ => rfl

mutual

theorem dotless_of_tidy : ∀ {v : Value}, v.Tidy → v.Dotless
  | .map _ _, h => entriesDotless_of_tidy h.2
  | .null, _ | .bool _, _ | .int _, _ | .float _, _ | .text _, _ | .bytes _, _ | .list _ _, _
  | .object _, _ | .path _, _ | .component _ _, _ | .parser _, _ | .other _, _ => trivial

theorem entriesDotless_of_tidy : ∀ {entries : List (Value × Value)}, EntriesTidy entries →
    EntriesDotless entries
  | [], _ => trivial
  | _ :: _, h => ⟨h.1, dotless_of_tidy h.2.2.1, entriesDotless_of_tidy h.2.2.2⟩

end

theorem isToken_of_mem {entries : List (Value × Value)} (h : EntriesTidy entries)
    {e : Value × Value} (he : e ∈ entries) : IsToken e.1 := by
  induction entries with
  | nil => cases he
  | cons first rest ih =>
    rcases List.mem_cons.mp he with rfl | he
    · exact h.1
    · exact ih h.2.2.2 he

end Value

/-! ### The merge -/

namespace ConfigEntries

/-- The entries with a node under a token, or as they are without one. -/
def place (es : ConfigEntries) (token : String) : Option ConfigNode → ConfigEntries
  | none => es
  | some n => OrderedMap.put token n es

end ConfigEntries

mutual

/-- What stands in the place of a node after a value was merged into it. A leaf replaces whatever is
there, and so does a mapping where no section is. A mapping without leaves changes nothing. -/
def ConfigNode.merge (old : Option ConfigNode) : Value → Option ConfigNode
  | .map _ entries =>
    if Value.entriesHaveLeaf entries then
      some (.section (ConfigEntries.merge ((ConfigEntries.ofNode? old).getD []) entries))
    else old
  | v => some (.leaf v)

/-- A section after the entries of a mapping were merged into it in turn. -/
def ConfigEntries.merge (es : ConfigEntries) : List (Value × Value) → ConfigEntries
  | [] => es
  | (k, v) :: rest =>
    ConfigEntries.merge
      (es.place k.display (ConfigNode.merge (OrderedMap.lookup k.display es) v)) rest

end


namespace ConfigEntries

open OrderedMap

variable {es : ConfigEntries}

/-- A node that is there already can be placed or not. -/
theorem place_lookup (token : String) : es.place token (lookup token es) = es := by
  cases h : lookup token es with
  | none => rfl
  | some n => exact put_of_lookup h

/-- A value with a leaf leaves a node, and a value without leaves changes nothing. -/
theorem merge_of_hasLeaf (old : Option ConfigNode) {v : Value} (h : v.hasLeaf = true) :
    ∃ n, ConfigNode.merge old v = some n := by
  cases v with
  | map place entries => exact ⟨_, if_pos h⟩
  | _ => exact ⟨_, rfl⟩

theorem merge_of_not_hasLeaf (old : Option ConfigNode) {v : Value} (h : v.hasLeaf = false) :
    ConfigNode.merge old v = old := by
  cases v with
  | map place entries =>
    rw [Value.hasLeaf] at h
    rw [ConfigNode.merge, h]
    rfl
  | _ => cases h

theorem merge_of_not_haveLeaf {entries : List (Value × Value)}
    (h : Value.entriesHaveLeaf entries = false) : es.merge entries = es := by
  induction entries with
  | nil => rfl
  | cons e rest ih =>
    rw [Value.entriesHaveLeaf, Bool.or_eq_false_iff] at h
    rw [merge, merge_of_not_hasLeaf _ h.1, place_lookup, ih h.2]

/-- Merging removes nothing. -/
theorem eq_none_of_merge {old : Option ConfigNode} {v : Value}
    (h : ConfigNode.merge old v = none) : old = none := by
  cases hleaf : v.hasLeaf with
  | true =>
    obtain ⟨n, hn⟩ := merge_of_hasLeaf old hleaf
    rw [h] at hn
    cases hn
  | false => rwa [merge_of_not_hasLeaf old hleaf] at h

theorem lookup_place_self {token : String} {old : Option ConfigNode}
    (h : old = none → lookup token es = none) : lookup token (es.place token old) = old := by
  cases old with
  | none => exact h rfl
  | some n => exact lookup_put_self

theorem lookup_place_of_ne {token t : String} (ht : t ≠ token) (old : Option ConfigNode) :
    lookup t (es.place token old) = lookup t es := by
  cases old with
  | none => rfl
  | some n => exact lookup_put_of_ne ht

/-- What is merged under other tokens leaves a node as it is. -/
theorem lookup_merge_of_not_mem {entries : List (Value × Value)} {t : String}
    (h : t ∉ entries.map fun e => e.1.display) : lookup t (es.merge entries) = lookup t es := by
  induction entries generalizing es with
  | nil => rfl
  | cons e rest ih =>
    rw [List.map_cons, List.mem_cons, not_or] at h
    rw [merge, ih h.2, lookup_place_of_ne h.1]

/-- Of entries with different tokens, each one is merged into the node under its token. -/
theorem lookup_merge_of_mem {entries : List (Value × Value)}
    (hnodup : (entries.map fun e => e.1.display).Nodup) {e : Value × Value} (he : e ∈ entries) :
    lookup e.1.display (es.merge entries) = ConfigNode.merge (lookup e.1.display es) e.2 := by
  induction entries generalizing es with
  | nil => cases he
  | cons first rest ih =>
    rw [List.map_cons, List.nodup_cons] at hnodup
    rw [merge]
    rcases List.mem_cons.mp he with rfl | he
    · rw [lookup_merge_of_not_mem hnodup.1, lookup_place_self eq_none_of_merge]
    · have hne : e.1.display ≠ first.1.display := fun h =>
        hnodup.1 (h ▸ List.mem_map_of_mem he)
      rw [ih hnodup.2 he, lookup_place_of_ne hne]

/-- Old tokens keep their places, and new ones with a leaf follow as the mapping lists them. -/
theorem keys_merge {entries : List (Value × Value)}
    (hnodup : (entries.map fun e => e.1.display).Nodup) :
    (es.merge entries).map Prod.fst = es.map Prod.fst ++
      ((entries.filter fun e => e.2.hasLeaf).map fun e => e.1.display).filter
        fun t => decide (t ∉ es.map Prod.fst) := by
  induction entries generalizing es with
  | nil => simp [merge]
  | cons e rest ih =>
    rw [List.map_cons, List.nodup_cons] at hnodup
    rw [merge, ih hnodup.2]
    cases hleaf : e.2.hasLeaf with
    | false =>
      rw [merge_of_not_hasLeaf _ hleaf, place_lookup, List.filter_cons_of_neg (by simp [hleaf])]
    | true =>
      obtain ⟨n, hn⟩ := merge_of_hasLeaf (lookup e.1.display es) hleaf
      rw [hn, place, List.filter_cons_of_pos (by exact hleaf), List.map_cons]
      by_cases hold : e.1.display ∈ es.map Prod.fst
      · rw [keys_put_of_mem hold, List.filter_cons_of_neg (by simpa using hold)]
      · rw [put_of_not_mem hold, List.map_append, List.map_singleton, List.append_assoc,
          List.filter_cons_of_pos (by simpa using hold), List.singleton_append]
        refine congrArg (es.map Prod.fst ++ e.1.display :: ·) (List.filter_congr fun t ht => ?_)
        obtain ⟨e', he', rfl⟩ := List.mem_map.mp ht
        have hne : e'.1.display ≠ e.1.display := fun h =>
          hnodup.1 (h ▸ List.mem_map_of_mem (List.mem_of_mem_filter he'))
        simp [hne]

end ConfigEntries

/-! ### Setting is merging -/

namespace Config

open OrderedMap

variable {c : Config} {k t : String} {n n' : ConfigNode} {inner : ConfigEntries}

/-- Writes a node under a key, or nothing. -/
def write (c : Config) (k : String) : Option ConfigNode → Config
  | none => c
  | some n =>
    match tokens k with
    | [] => c
    | token :: rest => ⟨c.entries.set token n rest⟩

/-- The entries of the section under a key. Where no section is there are none. -/
def sectionUnder (c : Config) (k : String) : ConfigEntries :=
  (ConfigEntries.ofNode? (c.node? k)).getD []

/-- A text without dots is one more token. -/
theorem tokens_concat (ht : '.' ∉ t.toList) : tokens (k ++ "." ++ t) = tokens k ++ [t] := by
  unfold tokens Text.pieces
  rw [String.toList_append, String.toList_append, List.append_assoc,
    show ".".toList ++ t.toList = '.' :: t.toList from rfl, Text.split_append_separator,
    Text.split_of_not_mem ht, List.map_append, List.map_singleton, String.ofList_toList]

theorem node?_write_self : (c.write k (some n)).node? k = some n := by
  obtain ⟨token, rest, htokens⟩ := exists_tokens k
  simp only [node?, write, htokens]
  exact ConfigEntries.get?_set_self

theorem node?_write_of_apart {k' : String} (h : Apart k k') (old : Option ConfigNode) :
    (c.write k old).node? k' = c.node? k' := by
  cases old with
  | none => rfl
  | some n =>
    obtain ⟨token, rest, htokens⟩ := exists_tokens k
    obtain ⟨token', rest', htokens'⟩ := exists_tokens k'
    unfold Apart at h
    rw [htokens, htokens'] at h
    simp only [node?, write, htokens, htokens']
    exact ConfigEntries.get?_set_of_parted h.1 h.2

theorem write_write : (c.write k (some n)).write k (some n') = c.write k (some n') := by
  obtain ⟨token, rest, htokens⟩ := exists_tokens k
  simp only [write, htokens, ConfigEntries.set_set]

/-- Writing what is there changes nothing. -/
theorem write_node? (c : Config) (k : String) : c.write k (c.node? k) = c := by
  obtain ⟨token, rest, htokens⟩ := exists_tokens k
  cases h : c.node? k with
  | none => rfl
  | some n =>
    simp only [node?, htokens] at h
    simp only [write, htokens, ConfigEntries.set_of_get? h]

theorem sectionUnder_write : (c.write k (some (.section inner))).sectionUnder k = inner := by
  rw [sectionUnder, node?_write_self]
  rfl

/-- Below a key there is what its section holds. -/
theorem node?_below (ht : '.' ∉ t.toList) :
    c.node? (k ++ "." ++ t) = lookup t (c.sectionUnder k) := by
  obtain ⟨token, rest, htokens⟩ := exists_tokens k
  simp only [sectionUnder, node?, tokens_concat ht, htokens, List.cons_append]
  exact ConfigEntries.get?_concat

/-- Writing below a key writes into its section. -/
theorem write_below (ht : '.' ∉ t.toList) :
    c.write (k ++ "." ++ t) (some n)
      = c.write k (some (.section (put t n (c.sectionUnder k)))) := by
  obtain ⟨token, rest, htokens⟩ := exists_tokens k
  simp only [sectionUnder, node?, write, tokens_concat ht, htokens, List.cons_append,
    ConfigEntries.set_concat]
  rfl

mutual

/-- Setting a value merges it into what stands under the key. -/
theorem set_eq_write : ∀ {v : Value}, v.Dotless → ∀ (c : Config) (k : String),
    c.set k v = c.write k (ConfigNode.merge (c.node? k) v)
  | .map place entries, h, c, k => by
    rw [set, setEntries_eq_write h c k, ConfigNode.merge]
    split
    · rfl
    · rw [write_node?]
  | .null, _, _, _ | .bool _, _, _, _ | .int _, _, _, _ | .float _, _, _, _ | .text _, _, _, _
  | .bytes _, _, _, _ | .list _ _, _, _, _ | .object _, _, _, _ | .path _, _, _, _
  | .component _ _, _, _, _ | .parser _, _, _, _ | .other _, _, _, _ => rfl

/-- Setting the entries of a mapping merges them into the section under the key, if there is a leaf
among them. -/
theorem setEntries_eq_write : ∀ {entries : List (Value × Value)}, Value.EntriesDotless entries →
    ∀ (c : Config) (k : String), c.setEntries k entries =
      if Value.entriesHaveLeaf entries then
        c.write k (some (.section ((c.sectionUnder k).merge entries)))
      else c
  | [], _, c, k => rfl
  | (token, v) :: rest, h, c, k => by
    obtain ⟨⟨t, rfl, ht⟩, hv, hrest⟩ := h
    rw [setEntries, setEntries_eq_write hrest, set_eq_write hv,
      show (Value.text t).display = t from rfl, node?_below ht, Value.entriesHaveLeaf,
      ConfigEntries.merge, show (Value.text t).display = t from rfl]
    cases hleaf : v.hasLeaf with
    | true =>
      obtain ⟨n, hn⟩ := ConfigEntries.merge_of_hasLeaf (lookup t (c.sectionUnder k)) hleaf
      rw [hn, write_below ht, sectionUnder_write, write_write]
      cases hmore : Value.entriesHaveLeaf rest with
      | true => rfl
      | false =>
        rw [ConfigEntries.merge_of_not_haveLeaf hmore, ConfigEntries.merge_of_not_haveLeaf hmore]
        rfl
    | false =>
      rw [ConfigEntries.merge_of_not_hasLeaf _ hleaf, ConfigEntries.place_lookup, ← node?_below ht,
        write_node?]
      rfl

end

/-! ### The configuration of a mapping -/

/-- Setting the entries of a mapping in turn merges them. -/
theorem setAll_eq_merge {entries : List (Value × Value)} (hentries : Value.EntriesDotless entries)
    (hnames : ∀ e ∈ entries, e.1 ≠ .text "") (c : Config) :
    c.setAll entries = .ok ⟨ConfigEntries.merge c.entries entries⟩ := by
  induction entries generalizing c with
  | nil => rfl
  | cons e rest ih =>
    obtain ⟨k, v⟩ := e
    obtain ⟨⟨t, rfl, ht⟩, hv, hrest⟩ := hentries
    have hname : checkKey (.text t) = .ok t := by
      have hne : t ≠ "" := fun h => hnames _ List.mem_cons_self (congrArg Value.text h)
      rw [checkKey, Value.name?, if_neg hne]
    have htokens : tokens t = [t] := by
      unfold tokens Text.pieces
      rw [Text.split_of_not_mem ht, List.map_singleton, String.ofList_toList]
    have hset : c.set t v
        = ⟨c.entries.place t (ConfigNode.merge (lookup t c.entries) v)⟩ := by
      have hnode : c.node? t = lookup t c.entries := by
        simp only [node?, htokens]
        rfl
      rw [set_eq_write hv, hnode]
      cases ConfigNode.merge (lookup t c.entries) v with
      | none => rfl
      | some n =>
        simp only [write, htokens]
        rfl
    rw [setAll, hname]
    show (c.set t v).setAll rest = _
    rw [ih hrest (fun e he => hnames e (List.mem_cons_of_mem _ he)), hset, ConfigEntries.merge]
    rfl

end Config

namespace ConfigEntries

open OrderedMap

variable {es : ConfigEntries}

theorem entryValues_append (es es' : ConfigEntries) :
    ConfigNode.entryValues (es ++ es')
      = ConfigNode.entryValues es ++ ConfigNode.entryValues es' := by
  induction es with
  | nil => rfl
  | cons e rest ih => rw [List.cons_append, ConfigNode.entryValues, ih, ConfigNode.entryValues]; rfl

mutual

/-- A tidy value that is merged into nothing stands there as it is. -/
theorem toValue_merge_none : ∀ {v : Value}, v.Tidy →
    ∃ n, ConfigNode.merge none v = some n ∧ n.toValue = v.mapLeaves id
  | .map place entries, h => by
    have hleaf : Value.entriesHaveLeaf entries = true :=
      Value.hasLeaf_of_tidy (v := .map place entries) h
    refine ⟨_, if_pos hleaf, ?_⟩
    have hvalues := @entryValues_merge entries h.2 [] fun _ _ => List.not_mem_nil
    rw [ConfigNode.toValue, Value.mapLeaves]
    exact congrArg _ hvalues
  | .null, _ | .bool _, _ | .int _, _ | .float _, _ | .text _, _ | .bytes _, _ | .list _ _, _
  | .object _, _ | .path _, _ | .component _ _, _ | .parser _, _ | .other _, _ => ⟨_, rfl, rfl⟩

/-- Tidy entries that are merged under new tokens are listed behind the others as they are. -/
theorem entryValues_merge : ∀ {entries : List (Value × Value)}, Value.EntriesTidy entries →
    ∀ {es : ConfigEntries}, (∀ e ∈ entries, e.1.display ∉ es.map Prod.fst) →
    ConfigNode.entryValues (es.merge entries)
      = ConfigNode.entryValues es ++ Value.mapEntryLeaves id entries
  | [], _, es, _ => by rw [merge, Value.mapEntryLeaves, List.append_nil]
  | (k, v) :: rest, h, es, hnew => by
    obtain ⟨⟨t, rfl, ht⟩, hk, hv, hrest⟩ := h
    obtain ⟨n, hn, hvalue⟩ := toValue_merge_none hv
    have hfresh : t ∉ es.map Prod.fst := hnew _ List.mem_cons_self
    have hplace : es.place t (ConfigNode.merge (lookup t es) v) = es ++ [(t, n)] := by
      rw [lookup_eq_none_iff.mpr hfresh, hn]
      exact put_of_not_mem hfresh
    rw [merge, show (Value.text t).display = t from rfl, hplace, entryValues_merge hrest,
      entryValues_append, List.append_assoc]
    · rw [ConfigNode.entryValues, hvalue]
      rfl
    · intro e he
      rw [List.map_append, List.mem_append, not_or]
      refine ⟨hnew e (List.mem_cons_of_mem _ he), fun hmem => hk ?_⟩
      obtain ⟨t', ht', -⟩ := Value.isToken_of_mem hrest he
      have hsame : t' = t := by simpa [ht', show (Value.text t').display = t' from rfl] using hmem
      exact hsame ▸ ht' ▸ List.mem_map_of_mem he

end

end ConfigEntries

namespace Store

open Work

variable {s t : Store} {r : Ref Config} {key value : Value} {k : String} {place : Option Nat}
  {entries : List (Value × Value)}

/-- What setting a mapping under a key does to a configuration. What stood under the key has the
mapping merged into it, with old tokens in their places and new ones behind them. Beside the key
the nodes are as before, and so are the answers, except for copies of a section that leads back to
the configuration. -/
structure Merges (s t : Store) (r : Ref Config) (k : String) (entries : List (Value × Value)) :
    Prop where
  node : (t.configs.get r).node? k
    = ConfigNode.merge ((s.configs.get r).node? k) (.map none entries)
  leafless : Value.entriesHaveLeaf entries = false → t = s
  listed : Value.entriesHaveLeaf entries = true → (entries.map fun e => e.1.display).Nodup →
    ((t.configs.get r).sectionUnder k).map Prod.fst =
      ((s.configs.get r).sectionUnder k).map Prod.fst ++
        ((entries.filter fun e => e.2.hasLeaf).map fun e => e.1.display).filter
          fun token => decide (token ∉ ((s.configs.get r).sectionUnder k).map Prod.fst)
  apart : ∀ k', Config.Apart k k' → (t.configs.get r).node? k' = (s.configs.get r).node? k'
  beside : ∀ {key' k'}, (s.content key').name? = some k' → Config.Apart k k' →
    ¬ s.MeetsItself r k' →
    ∀ default, ((configValue r key' default).run t).1 = ((configValue r key' default).run s).1

/-- Setting a mapping, whose keys are texts without dots at all depths, merges it. -/
theorem setConfig_merges (hr : s.configs.Holds r) (hkey : (s.content key).name? = some k)
    (hvalue : s.setting value = .map place entries) (hdotless : Value.EntriesDotless entries) :
    ∃ t, (setConfig r key value).run s = (.ok (), t) ∧ s.Merges t r k entries := by
  have hset : ∀ c : Config, c.set k (s.setting value)
      = c.write k (ConfigNode.merge (c.node? k) (.map none entries)) := fun c => by
    rw [hvalue]
    exact Config.set_eq_write (v := .map place entries) hdotless c k
  have hget := configs_reconfigured (s := s) hr fun c => c.set k (s.setting value)
  rw [hset] at hget
  refine ⟨s.reconfigured r fun c => c.set k (s.setting value), ?_, ?_, fun hleaf => ?_,
    fun hleaf hnodup => ?_, fun k' h => ?_, fun {key' k'} hkey' h hmeets default => ?_⟩
  · unfold setConfig
    rw [run_bind_ok (run_get s), run_bind_ok (run_checkKey hkey), run_bind_ok (run_get s)]
    exact run_change r _ s
  · rw [hget, ConfigNode.merge]
    split
    · exact Config.node?_write_self
    · rw [Config.write_node?]
  · unfold reconfigured
    rw [Cells.modify_of_get]
    rw [hset, ConfigNode.merge, hleaf]
    exact Config.write_node? _ k
  · rw [hget, ConfigNode.merge, if_pos hleaf, Config.sectionUnder_write,
      ConfigEntries.keys_merge hnodup]
    rfl
  · rw [hget, Config.node?_write_of_apart h]
  · refine configValue_reconfigured hr hkey' ?_ hmeets default
    rw [hset, Config.node?_write_of_apart h]

end Store

end Wiring
