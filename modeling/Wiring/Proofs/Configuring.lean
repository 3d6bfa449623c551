import Wiring.Proofs.Copying
import Wiring.Proofs.OrderedMaps

/-!
# `Wiring.Proofs.Configuring`: keys of a configuration are paths

The tokens of a key lead through the sections of a configuration. Writing a leaf at the end of a
path makes sections of all that stands on the way, hides everything below it and touches nothing
beside it, and removing what is there does the same without the leaf. This is shown of the tree
first, by induction on the tokens, and then of the actions.

Whoever asks for a section is given a copy of it, with all that can be reached from its values. Only
where the configuration itself is among that does a copy show a change beside the section
(`Store.MeetsItself`).
-/

set_option autoImplicit false

namespace Wiring

/-! ### Entries under keys -/

namespace OrderedMap

variable {κ ν : Type} [DecidableEq κ] {k k' : κ} {v : ν} {l : List (κ × ν)}

/-- Writing what is there changes nothing. -/
theorem put_of_lookup (h : lookup k l = some v) : put k v l = l := by
  induction l with
  | nil => cases h
  | cons e rest ih =>
    by_cases he : e.1 = k
    · rw [lookup, if_pos he] at h
      cases h
      rw [put, if_pos he, ← he]
    · rw [lookup, if_neg he] at h
      rw [put, if_neg he, ih h]

theorem lookup_filter_self : lookup k (l.filter fun e => decide (e.1 ≠ k)) = none := by
  rw [lookup_eq_none_iff]
  simp

theorem lookup_filter_of_ne (h : k' ≠ k) :
    lookup k' (l.filter fun e => decide (e.1 ≠ k)) = lookup k' l := by
  induction l with
  | nil => rfl
  | cons e rest ih =>
    by_cases he : e.1 = k
    · rw [List.filter_cons_of_neg (by simp [he]), ih, lookup, if_neg fun h' => h (h'.symm.trans he)]
    · rw [List.filter_cons_of_pos (by simp [he]), lookup, lookup, ih]

/-- Without a value there is nothing to remove. -/
theorem filter_of_lookup (h : lookup k l = none) : (l.filter fun e => decide (e.1 ≠ k)) = l := by
  rw [lookup_eq_none_iff] at h
  refine List.filter_eq_self.mpr fun e he => decide_eq_true fun hk => h ?_
  exact hk ▸ List.mem_map_of_mem he

end OrderedMap

/-! ### Paths into a tree of sections -/

namespace ConfigEntries

open OrderedMap

variable {es es' : ConfigEntries} {token token' : String} {rest rest' more : List String}
  {node : ConfigNode}

/-- Only a section holds entries. -/
theorem eq_section {n : Option ConfigNode} {inner : ConfigEntries} (h : ofNode? n = some inner) :
    n = some (.section inner) := by
  rcases n with _ | _ | entries
  · cases h
  · cases h
  · cases h
    rfl

/-- What stands at the end of a path depends on what stands under its first token. -/
theorem get?_congr (h : lookup token es = lookup token es') :
    es.get? token rest = es'.get? token rest := by
  cases rest with
  | nil => rw [get?, get?, h]
  | cons next rest => rw [get?, get?, h]

theorem get?_nil : get? [] token rest = none := by
  cases rest <;> rfl

/-- A path goes on below a section only. -/
theorem get?_append (hmore : more ≠ []) (h : ofNode? (es.get? token rest) = none) :
    es.get? token (rest ++ more) = none := by
  induction rest generalizing es token with
  | nil =>
    obtain ⟨next, more, rfl⟩ := List.exists_cons_of_ne_nil hmore
    rw [get?] at h
    rw [List.nil_append, get?, h, Option.bind_none]
  | cons next rest ih =>
    rw [get?] at h
    rw [List.cons_append, get?]
    cases hinner : ofNode? (lookup token es) with
    | none => rfl
    | some inner =>
      rw [hinner] at h
      exact ih h

/-- What is written stands at the end of its path, whatever stood on the way. -/
theorem get?_set_self : (es.set token node rest).get? token rest = some node := by
  induction rest generalizing es token with
  | nil => exact lookup_put_self
  | cons next rest ih =>
    rw [set, get?, lookup_put_self]
    exact ih

/-- Two paths of which neither goes on from the other part at the first token or behind it. -/
theorem parted (h : ¬ token :: rest <+: token' :: rest') (h' : ¬ token' :: rest' <+: token :: rest) :
    token' ≠ token ∨
      token' = token ∧ rest ≠ [] ∧ rest' ≠ [] ∧ ¬ rest <+: rest' ∧ ¬ rest' <+: rest := by
  by_cases htoken : token' = token
  · subst htoken
    rw [List.prefix_cons_inj] at h h'
    refine .inr ⟨rfl, ?_, ?_, h, h'⟩
    · rintro rfl
      exact h List.nil_prefix
    · rintro rfl
      exact h' List.nil_prefix
  · exact .inl htoken

/-- What is written is seen on its own path and on its ways only. -/
theorem get?_set_of_parted (h : ¬ token :: rest <+: token' :: rest')
    (h' : ¬ token' :: rest' <+: token :: rest) :
    (es.set token node rest).get? token' rest' = es.get? token' rest' := by
  induction rest generalizing es token token' rest' with
  | nil =>
    obtain hne | ⟨-, hrest, -⟩ := parted h h'
    · exact get?_congr (lookup_put_of_ne hne)
    · exact absurd rfl hrest
  | cons next rest ih =>
    obtain hne | ⟨rfl, -, hrest', h, h'⟩ := parted h h'
    · exact get?_congr (lookup_put_of_ne hne)
    · obtain ⟨next', more', rfl⟩ := List.exists_cons_of_ne_nil hrest'
      rw [set, get?, lookup_put_self]
      show get? (set _ next node rest) next' more' = _
      rw [ih h h', get?]
      cases ofNode? (lookup token' es) with
      | none => exact get?_nil
      | some inner => rfl

/-- What is removed is not there. -/
theorem get?_unset_self : (es.unset token rest).get? token rest = none := by
  induction rest generalizing es token with
  | nil => exact lookup_filter_self
  | cons next rest ih =>
    rw [unset]
    cases hinner : ofNode? (lookup token es) with
    | none =>
      show es.get? token (next :: rest) = none
      rw [get?, hinner, Option.bind_none]
    | some inner =>
      show get? (put token _ es) token (next :: rest) = none
      rw [get?, lookup_put_self]
      exact ih

/-- A removal is seen on its own path and on its ways only. -/
theorem get?_unset_of_parted (h : ¬ token :: rest <+: token' :: rest')
    (h' : ¬ token' :: rest' <+: token :: rest) :
    (es.unset token rest).get? token' rest' = es.get? token' rest' := by
  induction rest generalizing es token token' rest' with
  | nil =>
    obtain hne | ⟨-, hrest, -⟩ := parted h h'
    · exact get?_congr (lookup_filter_of_ne hne)
    · exact absurd rfl hrest
  | cons next rest ih =>
    rw [unset]
    cases hinner : ofNode? (lookup token es) with
    | none => rfl
    | some inner =>
      show get? (put token _ es) token' rest' = _
      obtain hne | ⟨rfl, -, hrest', h, h'⟩ := parted h h'
      · exact get?_congr (lookup_put_of_ne hne)
      · obtain ⟨next', more', rfl⟩ := List.exists_cons_of_ne_nil hrest'
        rw [get?, get?, lookup_put_self, hinner]
        exact ih h h'

/-- Removing what is not there changes nothing. -/
theorem unset_of_get? (h : es.get? token rest = none) : es.unset token rest = es := by
  induction rest generalizing es token with
  | nil => exact filter_of_lookup h
  | cons next rest ih =>
    rw [unset]
    cases hinner : ofNode? (lookup token es) with
    | none => rfl
    | some inner =>
      rw [get?, hinner] at h
      show put token (.section (inner.unset next rest)) es = es
      rw [ih h, put_of_lookup (eq_section hinner)]

end ConfigEntries

/-- A change that changes nothing in its cell changes nothing. -/
theorem Cells.modify_of_get {α : Type} [Inhabited α] {c : Cells α} {r : Ref α} {f : α → α}
    (h : f (c.get r) = c.get r) : c.modify r f = c := by
  refine congrArg Cells.mk (List.ext_getElem? fun n => ?_)
  rw [List.getElem?_modify]
  by_cases hn : r.index = n
  · cases hitem : c.items[n]? with
    | none => rfl
    | some a =>
      rw [Cells.get, hn, hitem, Option.getD_some] at h
      simp [hn, h]
  · simp [hn]

/-! ### Keys -/

namespace Config

variable {c : Config} {k k' : String} {v : Value}

/-- The way to the second key leads over the first one. -/
def Above (k k' : String) : Prop := tokens k <+: tokens k' ∧ tokens k ≠ tokens k'

/-- Neither of two keys lies on the way to the other, nor are they the same. -/
def Apart (k k' : String) : Prop := ¬ tokens k <+: tokens k' ∧ ¬ tokens k' <+: tokens k

theorem exists_tokens (k : String) : ∃ token rest, tokens k = token :: rest := by
  refine List.exists_cons_of_ne_nil ?_
  simp [tokens, Text.pieces, Text.split_ne_nil]

/-- What is below a key can be found only while a section stands under the key. -/
theorem node?_of_above (h : Above k k') (hk : ConfigEntries.ofNode? (c.node? k) = none) :
    c.node? k' = none := by
  obtain ⟨token, rest, htokens⟩ := exists_tokens k
  obtain ⟨⟨more, hmore⟩, hne⟩ := h
  have hmore' : more ≠ [] := by
    rintro rfl
    exact hne (by rw [← hmore, List.append_nil])
  unfold node? at hk ⊢
  rw [← hmore, htokens]
  rw [htokens] at hk
  exact ConfigEntries.get?_append hmore' hk

theorem node?_setLeaf_self : (c.setLeaf k v).node? k = some (.leaf v) := by
  obtain ⟨token, rest, htokens⟩ := exists_tokens k
  unfold node? setLeaf
  rw [htokens]
  exact ConfigEntries.get?_set_self

theorem node?_setLeaf_of_apart (h : Apart k k') : (c.setLeaf k v).node? k' = c.node? k' := by
  obtain ⟨token, rest, htokens⟩ := exists_tokens k
  obtain ⟨token', rest', htokens'⟩ := exists_tokens k'
  unfold Apart at h
  rw [htokens, htokens'] at h
  unfold node? setLeaf
  rw [htokens, htokens']
  exact ConfigEntries.get?_set_of_parted h.1 h.2

theorem node?_unset_self : (c.unset k).node? k = none := by
  obtain ⟨token, rest, htokens⟩ := exists_tokens k
  unfold node? unset
  rw [htokens]
  exact ConfigEntries.get?_unset_self

theorem node?_unset_of_apart (h : Apart k k') : (c.unset k).node? k' = c.node? k' := by
  obtain ⟨token, rest, htokens⟩ := exists_tokens k
  obtain ⟨token', rest', htokens'⟩ := exists_tokens k'
  unfold Apart at h
  rw [htokens, htokens'] at h
  unfold node? unset
  rw [htokens, htokens']
  exact ConfigEntries.get?_unset_of_parted h.1 h.2

theorem unset_of_node? (h : c.node? k = none) : c.unset k = c := by
  obtain ⟨token, rest, htokens⟩ := exists_tokens k
  unfold node? at h
  unfold unset
  rw [htokens] at h ⊢
  exact congrArg Config.mk (ConfigEntries.unset_of_get? h)

/-- A value that is no mapping is set as a leaf. -/
theorem set_of_not_map (h : ∀ place entries, v ≠ .map place entries) :
    c.set k v = c.setLeaf k v := by
  cases v with
  | map place entries => exact absurd rfl (h place entries)
  | _ => rw [set]; exact h

end Config
/-! ### Work that looks at the collections only -/

namespace Work

variable {ε α β : Type}

/-- Work that gives the same answer and leaves the same collections wherever the collections are the
same. -/
def ByCollections (w : Work ε α) : Prop :=
  ∀ s t : Store, s.collections = t.collections →
    (w.run s).1 = (w.run t).1 ∧ (w.run s).2.collections = (w.run t).2.collections

theorem byCollections_pure (a : α) : ByCollections (pure a : Work ε α) := fun _ _ h => ⟨rfl, h⟩

theorem byCollections_bind {w : Work ε α} {f : α → Work ε β} (hw : ByCollections w)
    (hf : ∀ a, ByCollections (f a)) : ByCollections (w >>= f) := by
  intro s t h
  obtain ⟨hsame, hcollections⟩ := hw s t h
  rw [run_bind, run_bind]
  rcases hs : w.run s with ⟨_ | a, s'⟩ <;> rcases ht : w.run t with ⟨_ | a', t'⟩ <;>
    rw [hs, ht] at hsame hcollections <;> cases hsame
  · exact ⟨rfl, hcollections⟩
  · exact hf _ _ _ hcollections

end Work

namespace Store

open Work

variable {ε : Type}

theorem byCollections_allocate (c : Collection) : ByCollections (allocate c : Work ε Nat) := by
  intro s t h
  unfold allocate
  rw [run_modifyGet, run_modifyGet]
  dsimp only
  rw [h]
  exact ⟨rfl, rfl⟩

mutual

/-- The places that a value is given are told by the collections that are there. -/
theorem byCollections_settle : ∀ v : Value, ByCollections (settle v : Work ε Value)
  | .list none items => by
    rw [settle]
    exact byCollections_bind (byCollections_settleItems items) fun _ =>
      byCollections_bind (byCollections_allocate _) fun _ => byCollections_pure _
  | .map none entries => by
    rw [settle]
    exact byCollections_bind (byCollections_settleEntries entries) fun _ =>
      byCollections_bind (byCollections_allocate _) fun _ => byCollections_pure _
  | .list (some _) _ | .map (some _) _ | .null | .bool _ | .int _ | .float _ | .text _ | .bytes _
  | .object _ | .component _ _ | .path _ | .parser _ | .other _ => byCollections_pure _

/-- The places that items are given are told by the collections that are there. -/
theorem byCollections_settleItems :
    ∀ vs : List Value, ByCollections (settleItems vs : Work ε (List Value))
  | [] => byCollections_pure _
  | v :: rest => by
    rw [settleItems]
    exact byCollections_bind (byCollections_settle v) fun _ =>
      byCollections_bind (byCollections_settleItems rest) fun _ => byCollections_pure _

/-- The places that entries are given are told by the collections that are there. -/
theorem byCollections_settleEntries :
    ∀ es : List (Value × Value), ByCollections (settleEntries es : Work ε (List (Value × Value)))
  | [] => byCollections_pure _
  | (_, v) :: rest => by
    rw [settleEntries]
    exact byCollections_bind (byCollections_settle v) fun _ =>
      byCollections_bind (byCollections_settleEntries rest) fun _ => byCollections_pure _

end

/-! ### A change of one configuration -/

variable {s t : Store} {r : Ref Config} {f : Config → Config} {key value : Value} {k : String}

/-- The store with a change of one configuration. -/
def reconfigured (s : Store) (r : Ref Config) (f : Config → Config) : Store :=
  { s with configs := s.configs.modify r f }

/-- What a store shows does not depend on the configurations. -/
theorem matches_reconfigured (s : Store) (r : Ref Config) (f : Config → Config) :
    s.Matches (s.reconfigured r f) := ⟨rfl, rfl, rfl, rfl, rfl, rfl, rfl⟩

theorem current_reconfigured (v : Value) : (s.reconfigured r f).current v = s.current v :=
  (s.matches_reconfigured r f).current v

theorem content_reconfigured (v : Value) : (s.reconfigured r f).content v = s.content v := by
  cases v with
  | object id =>
    simp only [content, current_reconfigured]
    rfl
  | _ => rfl

theorem configs_reconfigured (hr : s.configs.Holds r) (f : Config → Config) :
    (s.reconfigured r f).configs.get r = f (s.configs.get r) := Cells.get_modify_self hr f

/-- Only the configuration itself leads elsewhere after the change. -/
theorem nodesOf_reconfigured {x : Node} (h : x ≠ refNode .config r) :
    (s.reconfigured r f).nodesOf x = s.nodesOf x := by
  cases x with
  | collection n => rfl
  | object id => rfl
  | component c =>
    obtain ⟨kind, id⟩ := c
    cases kind with
    | config =>
      have hid : (⟨id⟩ : Ref Config) ≠ r := by
        rintro rfl
        exact h rfl
      have hget : (s.configs.modify r f).get ⟨id⟩ = s.configs.get ⟨id⟩ :=
        Cells.get_modify_of_ne hid f
      show Value.entryNodes (ConfigNode.entryValues ((s.configs.modify r f).get ⟨id⟩).entries) = _
      rw [hget]
      rfl
    | _ => rfl

/-- What is there at the start is among what is found. -/
theorem mem_reachedIn_of_mem {x : Node} (n : Nat) :
    ∀ {found : List Node}, x ∈ found → x ∈ s.reachedIn n found := by
  induction n with
  | zero => exact fun h => h
  | succ n ih =>
    intro found h
    unfold reachedIn
    dsimp only
    split
    · exact h
    · exact ih (List.mem_eraseDups.mpr (List.mem_append_left _ h))

/-- The change does not show to whom does not meet the configuration. -/
theorem reachedIn_reconfigured (n : Nat) : ∀ {found : List Node},
    refNode .config r ∉ s.reachedIn n found →
      (s.reconfigured r f).reachedIn n found = s.reachedIn n found := by
  induction n with
  | zero => exact fun _ => rfl
  | succ n ih =>
    intro found h
    have hfound : ∀ x ∈ found, (s.reconfigured r f).nodesOf x = s.nodesOf x := fun x hx =>
      nodesOf_reconfigured fun heq => h (heq ▸ mem_reachedIn_of_mem (n + 1) hx)
    have hflat : found.flatMap (s.reconfigured r f).nodesOf = found.flatMap s.nodesOf :=
      List.flatMap_congr hfound
    unfold reachedIn at h ⊢
    dsimp only at h ⊢
    rw [hflat]
    split at h
    · rw [if_pos ‹_›, if_pos ‹_›]
    · rw [if_neg ‹_›, if_neg ‹_›]
      exact ih h

theorem newName_reconfigured (found : List Node) :
    (s.reconfigured r f).newName found = s.newName found := by
  have hcount : ∀ kind, (s.reconfigured r f).cellCount kind = s.cellCount kind := by
    intro kind
    cases kind with
    | config => exact List.length_modify ..
    | _ => rfl
  funext x
  cases x with
  | component c => simp only [newName, hcount]
  | _ => rfl

/-- A copy from which the configuration is not met is the same before and after the change. -/
theorem duplicate_reconfigured {v : Value}
    (h : refNode .config r ∉ s.reachedIn s.reach v.nodes.eraseDups) :
    ((duplicate v).run (s.reconfigured r f)).1 = ((duplicate v).run s).1 := by
  have hreach : (s.reconfigured r f).reach = s.reach := by
    unfold reach reconfigured
    simp only [Cells.modify, List.length_modify]
  have hthere := run_copyReached v.nodes (s.reconfigured r f)
  have hhere := run_copyReached v.nodes s
  dsimp only at hthere hhere
  rw [hreach, reachedIn_reconfigured _ h, newName_reconfigured] at hthere
  unfold duplicate
  split at hhere
  · rw [if_pos ‹_›] at hthere
    rw [run_bind_ok hthere, run_bind_ok hhere]
    refine (byCollections_settle _ _ _ ?_).1
    unfold withCopies
    rw [newName_reconfigured]
    rfl
  · rw [if_neg ‹_›] at hthere
    rw [run_bind_error hthere, run_bind_error hhere]

/-! ### Asking, setting and removing -/

/-- A section stands under the key, and the configuration itself can be reached from its values. -/
def MeetsItself (s : Store) (r : Ref Config) (key : String) : Prop :=
  ∃ entries, (s.configs.get r).node? key = some (.section entries) ∧
    ∃ x ∈ Value.entryNodes (ConfigNode.entryValues entries), ∃ n, s.Leads n x (refNode .config r)

/-- What is found is reached by references. -/
theorem leads_of_mem_reachedIn {start : List Node} {n : Nat} {y : Node}
    (h : y ∈ s.reachedIn n start) : ∃ x ∈ start, ∃ m, s.Leads m x y := by
  have happend : ∀ {m x y z}, s.Leads m x y → z ∈ s.nodesOf y → s.Leads (m + 1) x z := by
    intro m x y z hxy hz
    induction hxy with
    | here x => exact .next hz (.here z)
    | next hy _ ih => exact .next hy (ih hz)
  refine reachedIn_induction (P := fun y => ∃ x ∈ start, ∃ m, s.Leads m x y) ?_ n
    (fun x hx => ⟨x, hx, 0, .here x⟩) y h
  rintro y ⟨x, hx, m, hxy⟩ z hz
  exact ⟨x, hx, m + 1, happend hxy hz⟩

theorem run_checkKey (h : (s.content key).name? = some k) :
    (Work.lift (Config.checkKey (s.content key)) : Action String).run s = (.ok k, s) := by
  unfold Config.checkKey
  rw [h, run_lift]

/-- The answer is the leaf itself, a copy of a section, or the default. -/
theorem run_configValue (default : Value) (h : (s.content key).name? = some k) :
    (configValue r key default).run s =
      match (s.configs.get r).node? k with
      | some (.leaf v) => (.ok (s.current v), s)
      | some n => (duplicate n.toValue).run s
      | none => (.ok default, s) := by
  unfold configValue
  rw [run_bind_ok (run_get s), run_bind_ok (run_checkKey h), run_bind_ok (run_read r s)]
  show ExceptT.run (match (s.configs.get r).node? k with
    | some (.leaf v) => look v
    | some n => duplicate n.toValue
    | none => pure default) s = _
  cases (s.configs.get r).node? k with
  | none => rfl
  | some n => cases n <;> rfl

/-- A value that counts as no mapping is set as it is. -/
theorem setting_of_not_map (h : ∀ place entries, s.content value ≠ .map place entries) :
    s.setting value = value := by
  unfold setting
  cases s.nesting + s.objects.length with
  | zero => rfl
  | succ n =>
    unfold sectioned
    split
    · exact absurd ‹_› (h _ _)
    · rfl

theorem run_setConfig (h : (s.content key).name? = some k)
    (hv : ∀ place entries, s.content value ≠ .map place entries) :
    (setConfig r key value).run s = (.ok (), s.reconfigured r fun c => c.setLeaf k value) := by
  have hvalue : ∀ place entries, value ≠ .map place entries := by
    rintro place entries rfl
    exact hv place entries rfl
  unfold setConfig
  rw [run_bind_ok (run_get s), run_bind_ok (run_checkKey h), run_bind_ok (run_get s),
    setting_of_not_map hv]
  simp only [Config.set_of_not_map hvalue]
  exact run_change r _ s

theorem run_unsetConfig (h : (s.content key).name? = some k) :
    (unsetConfig r key).run s = (.ok (), s.reconfigured r fun c => c.unset k) := by
  unfold unsetConfig
  rw [run_bind_ok (run_get s), run_bind_ok (run_checkKey h)]
  exact run_change r _ s

/-- What a change under a key does to the answers under all other keys: below the key there is
nothing, and beside it everything is as before. A copy of a section that leads back to the
configuration is as before only in what stands in the section. -/
structure Spares (s t : Store) (r : Ref Config) (k : String) : Prop where
  below : ∀ {key' k'}, (s.content key').name? = some k' → Config.Above k k' →
    ∀ default, (configValue r key' default).run t = (.ok default, t)
  node : ∀ k', Config.Apart k k' → (t.configs.get r).node? k' = (s.configs.get r).node? k'
  beside : ∀ {key' k'}, (s.content key').name? = some k' → Config.Apart k k' →
    ¬ s.MeetsItself r k' →
    ∀ default, ((configValue r key' default).run t).1 = ((configValue r key' default).run s).1

/-- Where the same node stands under a key, the answer is as before, unless the node is a section
that leads back to the configuration. -/
theorem configValue_reconfigured {key' : Value} {k' : String} (hr : s.configs.Holds r)
    (hkey' : (s.content key').name? = some k')
    (hsame : (f (s.configs.get r)).node? k' = (s.configs.get r).node? k')
    (hmeets : ¬ s.MeetsItself r k') (default : Value) :
    ((configValue r key' default).run (s.reconfigured r f)).1
      = ((configValue r key' default).run s).1 := by
  rw [run_configValue default (by rw [content_reconfigured]; exact hkey'),
    run_configValue default hkey', configs_reconfigured hr f, hsame]
  cases hnode : (s.configs.get r).node? k' with
  | none => rfl
  | some n =>
    cases n with
    | leaf v => exact congrArg Except.ok (current_reconfigured v)
    | «section» entries =>
      refine duplicate_reconfigured fun hreached => hmeets ⟨entries, hnode, ?_⟩
      obtain ⟨x, hx, hleads⟩ := leads_of_mem_reachedIn hreached
      exact ⟨x, List.mem_eraseDups.mp hx, hleads⟩

/-- A change that leaves no section under a key and spares the nodes beside it spares the answers. -/
theorem spares_reconfigured (hr : s.configs.Holds r)
    (hk : ConfigEntries.ofNode? ((f (s.configs.get r)).node? k) = none)
    (hapart : ∀ k', Config.Apart k k' → (f (s.configs.get r)).node? k' = (s.configs.get r).node? k') :
    s.Spares (s.reconfigured r f) r k := by
  have hget := configs_reconfigured hr f
  refine ⟨fun {key' k'} hkey' habove default => ?_, fun k' h => by rw [hget, hapart k' h],
    fun {key' k'} hkey' h hmeets default =>
      configValue_reconfigured hr hkey' (hapart k' h) hmeets default⟩
  rw [run_configValue default (by rw [content_reconfigured]; exact hkey'), hget,
    Config.node?_of_above habove hk]

/-- Keys are paths: what is set under a key is found there whatever stood on the way, what is
removed is not found any more, and below and beside the key the answers are those of
`Store.Spares`. Neither change fails, and removing what is not there changes nothing. -/
theorem config_keys_are_paths (hr : s.configs.Holds r) (hkey : (s.content key).name? = some k) :
    (∀ value, (∀ place entries, s.content value ≠ .map place entries) →
      ∃ t, (setConfig r key value).run s = (.ok (), t) ∧
        (∀ default, (configValue r key default).run t = (.ok (s.current value), t)) ∧
        s.Spares t r k) ∧
    ∃ t, (unsetConfig r key).run s = (.ok (), t) ∧
      (∀ default, (configValue r key default).run t = (.ok default, t)) ∧
      s.Spares t r k ∧ ((s.configs.get r).node? k = none → t = s) := by
  refine ⟨fun value hvalue => ⟨_, run_setConfig hkey hvalue, fun default => ?_, ?_⟩,
    ⟨_, run_unsetConfig hkey, fun default => ?_, ?_, fun hnone => ?_⟩⟩
  · have hleaf : ((s.reconfigured r fun c => c.setLeaf k value).configs.get r).node? k
        = some (.leaf value) := by
      rw [configs_reconfigured hr]
      exact Config.node?_setLeaf_self
    rw [run_configValue default (by rw [content_reconfigured]; exact hkey), hleaf]
    exact congrArg (fun v => (Except.ok v, _)) (current_reconfigured value)
  · refine spares_reconfigured hr ?_ fun k' h => Config.node?_setLeaf_of_apart h
    rw [Config.node?_setLeaf_self]
    rfl
  · have hnone : ((s.reconfigured r fun c => c.unset k).configs.get r).node? k = none := by
      rw [configs_reconfigured hr]
      exact Config.node?_unset_self
    rw [run_configValue default (by rw [content_reconfigured]; exact hkey), hnone]
  · refine spares_reconfigured hr ?_ fun k' h => Config.node?_unset_of_apart h
    rw [Config.node?_unset_self]
    rfl
  · unfold reconfigured
    rw [Cells.modify_of_get (Config.unset_of_node? hnone)]

/-- A store with a source that has a snapshot file, and a configuration that is among its own values
under a key of two tokens. -/
def selfConfiguredStore : Store :=
  { Store.empty default with
    browsers := ⟨[default]⟩
    sources := ⟨[.files ⟨0⟩ default, .cached (.files ⟨0⟩ default) default]⟩
    configs := ⟨[⟨[("a", .section [("self", .leaf (.component ⟨.config, 0⟩ []))]),
      ("d", .leaf (.int 3))]⟩]⟩ }

/-- A scalar makes room for a section, a number is set below it and removed again. -/
theorem config_keys_are_paths_of_scalar :
    (∃ t, (setConfig ⟨0⟩ (.text "d.e") .null).run selfConfiguredStore = (.ok (), t) ∧
      (∀ default, (configValue ⟨0⟩ (.text "d.e") default).run t = (.ok .null, t)) ∧
      selfConfiguredStore.Spares t ⟨0⟩ "d.e") ∧
    ∃ t, (unsetConfig ⟨0⟩ (.text "d")).run selfConfiguredStore = (.ok (), t) ∧
      ∀ default, (configValue ⟨0⟩ (.text "d") default).run t = (.ok default, t) := by
  have hr : selfConfiguredStore.configs.Holds ⟨0⟩ := Nat.zero_lt_one
  have habove : (selfConfiguredStore.content (.text "d")).name? = some "d" := rfl
  have hbelow : (selfConfiguredStore.content (.text "d.e")).name? = some "d.e" := rfl
  obtain ⟨t, hrun, hget, -⟩ := (config_keys_are_paths hr habove).2
  exact ⟨(config_keys_are_paths hr hbelow).1 .null nofun, t, hrun, hget⟩

/-- A section that leads back to its configuration cannot be copied any more once the configuration
holds, beside the section, what cannot be copied. -/
theorem configValue_of_self :
    let source : Value := .component ⟨.cachedSource, 1⟩ []
    Config.Apart "b" "a" ∧
    ((configValue ⟨0⟩ (.text "a") .null).run selfConfiguredStore).1.isOk = true ∧
    ∃ t, (setConfig ⟨0⟩ (.text "b") source).run selfConfiguredStore = (.ok (), t) ∧
      ((configValue ⟨0⟩ (.text "a") .null).run t).1 = .error (.foreign .type) := by
  intro source
  exact ⟨⟨by decide, by decide⟩, by decide, _, rfl, by rfl⟩

end Store

end Wiring
