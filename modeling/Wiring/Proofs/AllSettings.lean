import Wiring.Proofs.Merging

/-!
# `Wiring.Proofs.AllSettings`: a configuration gives back the mapping it was made of

A configuration that is made of a mapping holds a tree with the same leaves. Whoever asks for all of
it gets a copy: what the leaves lead to is copied first, and then every section becomes a new
mapping. `settle_mapLeaves` follows this for plain data. The new mappings lie around the copied
leaves and share no place with them, so a leaf looks inside of them as it looks alone
(`PlainRegion.lookAt_beside`).

`mappings_merge` puts this together with what setting does to a configuration that holds other
settings. A leaf that cannot be copied is kept all the same, and then there is no copy to give back
(`configValues_of_uncopyable`).
-/

set_option autoImplicit false

namespace Wiring

namespace Value

mutual

/-- All leaves of a value satisfy a predicate. -/
def LeavesAre (P : Value → Prop) : Value → Prop
  | .map _ entries => EntryLeavesAre P entries
  | v => P v

/-- All leaves of the entries of a mapping satisfy a predicate. -/
def EntryLeavesAre (P : Value → Prop) : List (Value × Value) → Prop
  | [] => True
  | (_, v) :: rest => LeavesAre P v ∧ EntryLeavesAre P rest

end

mutual

/-- What a value refers to is what its leaves refer to. -/
theorem nodes_of_leavesAre {P : Value → Prop} : ∀ {v : Value}, v.LeavesAre P →
    ∀ w ∈ (v.mapLeaves id).nodes, ∃ leaf, P leaf ∧ w ∈ leaf.nodes
  | .map _ _, h, w, hw => entryNodes_of_leavesAre h w hw
  | .null, h, _, hw | .bool _, h, _, hw | .int _, h, _, hw | .float _, h, _, hw
  | .text _, h, _, hw | .bytes _, h, _, hw | .list _ _, h, _, hw | .object _, h, _, hw
  | .path _, h, _, hw | .component _ _, h, _, hw | .parser _, h, _, hw | .other _, h, _, hw =>
    ⟨_, h, hw⟩

theorem entryNodes_of_leavesAre {P : Value → Prop} : ∀ {entries : List (Value × Value)},
    EntryLeavesAre P entries →
    ∀ w ∈ entryNodes (mapEntryLeaves id entries), ∃ leaf, P leaf ∧ w ∈ leaf.nodes
  | (_, _) :: _, h, w, hw => (List.mem_append.mp hw).elim (nodes_of_leavesAre h.1 w)
      (entryNodes_of_leavesAre h.2 w)

end

mutual

theorem LeavesAre.mono {P Q : Value → Prop} (hPQ : ∀ v, P v → Q v) :
    ∀ {v : Value}, v.LeavesAre P → v.LeavesAre Q
  | .map _ _, h => EntryLeavesAre.mono hPQ h
  | .null, h | .bool _, h | .int _, h | .float _, h | .text _, h | .bytes _, h | .list _ _, h
  | .object _, h | .path _, h | .component _ _, h | .parser _, h | .other _, h => hPQ _ h

theorem EntryLeavesAre.mono {P Q : Value → Prop} (hPQ : ∀ v, P v → Q v) :
    ∀ {entries : List (Value × Value)}, EntryLeavesAre P entries → EntryLeavesAre Q entries
  | [], _ => trivial
  | _ :: _, h => ⟨h.1.mono hPQ, EntryLeavesAre.mono hPQ h.2⟩

end

mutual

/-- Without places, a value is what it is with leaves that stay as they are. -/
theorem bare_mapLeaves {f : Value → Value} : ∀ {v : Value}, v.LeavesAre (fun v => f v = v) →
    (v.mapLeaves f).bare = v.bare
  | .map _ _, h => congrArg (map none) (bareEntries_mapEntryLeaves h)
  | .null, h | .bool _, h | .int _, h | .float _, h | .text _, h | .bytes _, h | .list _ _, h
  | .object _, h | .path _, h | .component _ _, h | .parser _, h | .other _, h =>
    congrArg bare h

theorem bareEntries_mapEntryLeaves {f : Value → Value} : ∀ {entries : List (Value × Value)},
    EntryLeavesAre (fun v => f v = v) entries →
    bareEntries (mapEntryLeaves f entries) = bareEntries entries
  | [], _ => rfl
  | (_, _) :: _, h => by
    rw [mapEntryLeaves, bareEntries, bareEntries, bare_mapLeaves h.1,
      bareEntries_mapEntryLeaves h.2]

end

end Value

namespace Store

open Work

variable {s t u : Store} {Q : Node → Prop}

/-- Places that do not belong to a region do not change how a value of the region looks. -/
theorem PlainRegion.lookAt_beside (h : s.PlainRegion Q)
    (hsame : ∀ p, Q (.collection p) → u.collections[p]? = s.collections[p]?) (n : Nat) :
    ∀ {way more : List Nat} {around : List Component} {v : Value}, s.Plain v →
      (∀ w ∈ v.nodes, Q w) → (∀ p ∈ more, ¬ Q (.collection p)) →
      u.lookAt n (way ++ more) around v = s.lookAt n way around v := by
  induction n with
  | zero => exact fun _ _ _ => rfl
  | succ n ih =>
    intro way more around v hv hQ hmore
    have honTheWay : ∀ p, Q (.collection p) →
        onTheWay (way ++ more) (some p) = onTheWay way (some p) := by
      intro p hp
      have hnot : p ∉ more := fun hmem => hmore p hmem hp
      simp [onTheWay, hnot]
    have hbelow : ∀ {p : Nat} {c : Collection}, Q (.collection p) →
        s.collections[p]? = some c → ∀ v ∈ c.values,
          u.lookAt n (p :: (way ++ more)) around v = s.lookAt n (p :: way) around v :=
      fun {p _} hp hc w hw =>
        show u.lookAt n ((p :: way) ++ more) around w = _ from
          ih (h.item hp hc hw).1 (h.item hp hc hw).2 hmore
    cases hv with
    | closed hclosed => rw [lookAt_closed _ hclosed, lookAt_closed _ hclosed]
    | list old hp =>
      rename_i p items
      have hmem : Q (.collection p) := hQ _ (List.mem_singleton.mpr rfl)
      simp only [lookAt, itemsAt, Option.bind_some, hp, (hsame p hmem).trans hp, honTheWay p hmem]
      split
      · rfl
      · exact congrArg _ (List.map_congr_left (hbelow hmem hp))
    | map old hp =>
      rename_i p entries
      have hmem : Q (.collection p) := hQ _ (List.mem_singleton.mpr rfl)
      simp only [lookAt, entriesAt, Option.bind_some, hp, (hsame p hmem).trans hp,
        honTheWay p hmem]
      split
      · rfl
      · exact congrArg _ <| List.map_congr_left fun e he =>
          congrArg (Prod.mk e.1) (hbelow hmem hp e.2 (List.mem_map_of_mem he))

/-- A leaf that is plain data: it is flat and refers to nothing, or it is a list with a place, and a
list stands there. -/
inductive PlainLeaf (s : Store) : Value → Prop
  | flat {v : Value} (h : v.nodes = []) (hflat : v.isFlat = true) : PlainLeaf s v
  | list {p : Nat} {items : List Value} (old : List Value)
    (h : s.collections[p]? = some (.list items)) : PlainLeaf s (.list (some p) old)

theorem PlainLeaf.plain {v : Value} (h : s.PlainLeaf v) : s.Plain v := by
  cases h with
  | flat h => exact .closed h
  | list old h => exact .list old h

section WithCopies

variable {found : List Node}

/-- Copies of a plain region are a plain region. -/
theorem plainRegion_newName (hplain : s.PlainRegion (· ∈ found)) :
    (s.withCopies found).PlainRegion fun z => ∃ y ∈ found, z = s.newName found y where
  plain := by
    rintro z ⟨y, hy, rfl⟩
    exact (plainNode_newName hplain hy).1
  next := by
    rintro y ⟨x, hx, rfl⟩ z hz
    rw [nodesOf_newName hplain hx] at hz
    obtain ⟨w, hw, rfl⟩ := List.mem_map.mp hz
    exact ⟨w, hplain.next x hx w hw, rfl⟩

/-- The copy of a leaf, inside of new mappings, is shown like the leaf. -/
theorem bare_lookAt_leaf (hplain : s.PlainRegion (· ∈ found)) {v : Value} (hv : s.PlainLeaf v)
    (hfound : ∀ w ∈ v.nodes, w ∈ found)
    (hu : (s.withCopies found).collections <+: u.collections) {n : Nat} {way : List Nat}
    (hn : s.collections.length < n)
    (hway : ∀ p ∈ way, (s.withCopies found).collections.length ≤ p) :
    (u.lookAt n way [] (v.renamed (s.newName found))).bare = (s.current v).bare := by
  have hcopies := plainRegion_newName hplain
  have hnodes : ∀ w ∈ (v.renamed (s.newName found)).nodes,
      ∃ y ∈ found, w = s.newName found y := by
    intro w hw
    rw [nodes_renamed] at hw
    obtain ⟨y, hy, rfl⟩ := List.mem_map.mp hw
    exact ⟨y, hfound y hy, rfl⟩
  have hthere : ∀ p, (∃ y ∈ found, Node.collection p = s.newName found y) →
      p < (s.withCopies found).collections.length :=
    fun p hp => (hcopies.plain _ hp).has
  have hsame : ∀ p, (∃ y ∈ found, Node.collection p = s.newName found y) →
      u.collections[p]? = (s.withCopies found).collections[p]? := fun p hp => by
    have hstands := List.getElem?_eq_getElem (hthere p hp)
    rw [hstands, getElem?_of_prefix hu hstands]
  have hbeside : u.lookAt n ([] ++ way) [] (v.renamed (s.newName found))
      = (s.withCopies found).lookAt n [] [] (v.renamed (s.newName found)) :=
    hcopies.lookAt_beside hsame n (plain_renamed hv.plain hfound) hnodes
      fun p hp h => absurd (hthere p h) (Nat.not_lt.mpr (hway p hp))
  have hcopied : ((s.withCopies found).lookAt n [] [] (v.renamed (s.newName found))).bare
      = (s.lookAt n [] [] v).bare :=
    bare_lookAt_renamed hplain n hv.plain hfound List.nodup_nil nofun (by simpa using hn)
  have hdeep : s.lookAt n [] [] v = s.current v :=
    hplain.lookAt_eq (fun _ _ => rfl) n hv.plain hfound List.nodup_nil nofun (by simpa using hn)
      (by simpa using lt_nesting s)
  rw [← hdeep, ← hcopied, ← hbeside, List.nil_append]

/-- The entries of a mapping whose leaves are copied and whose mappings are settled are shown like
the entries, wherever all collections on the way are later ones. -/
def ShowsEntries (s : Store) (entries : List (Value × Value)) (u : Store) (more : List Collection)
    (ws : List (Value × Value)) : Prop :=
  ∀ t : Store, (u.withCollections more).collections <+: t.collections → ∀ (n : Nat) (way : List Nat),
    (u.withCollections more).collections.length < n →
    (∀ p ∈ way, (u.withCollections more).collections.length ≤ p) →
    Value.bareEntries (ws.map fun e => (e.1, t.lookAt n way [] e.2))
      = Value.bareEntries (Value.mapEntryLeaves s.current entries)

/-- A value whose leaves are copied and whose mappings are settled is shown like the value. -/
def ShowsValue (s : Store) (v : Value) (u : Store) (more : List Collection) (w : Value) : Prop :=
  ∀ t : Store, (u.withCollections more).collections <+: t.collections → ∀ (n : Nat) (way : List Nat),
    (u.withCollections more).collections.length < n →
    (∀ p ∈ way, (u.withCollections more).collections.length ≤ p) →
    (t.lookAt n way [] w).bare = (v.mapLeaves s.current).bare

/-- A mapping shows what its entries show. -/
theorem ShowsEntries.map {entries ws : List (Value × Value)} {more : List Collection}
    (h : s.ShowsEntries entries u more ws) (place : Option Nat) :
    s.ShowsValue (.map place entries) u (more ++ [.map ws])
      (.map (some (u.withCollections more).collections.length) ws) := by
  intro t ht n way hn hway
  rw [← withCollections_append] at ht hn hway
  set size := (u.withCollections more).collections.length with hsize
  have hlength : ((u.withCollections more).withCollections [.map ws]).collections.length
      = size + 1 := by
    rw [hsize, withCollections, List.length_append, List.length_singleton]
  rw [hlength] at hn hway
  obtain ⟨n, rfl⟩ : ∃ m, n = m + 1 := ⟨n - 1, by omega⟩
  have hfree : onTheWay way (some size) = false := by
    have hnot : size ∉ way := fun hmem => absurd (hway size hmem) (by omega)
    simp [onTheWay, hnot]
  have hstands : t.collections[size]? = some (.map ws) := by
    refine getElem?_of_prefix ht ?_
    simp [withCollections, hsize]
  have hnow : t.entriesAt (some size) ws = ws := by simp [entriesAt, hstands]
  have hinner := h t ((prefix_withCollections _ _).trans ht) n (size :: way) (by omega)
    (List.forall_mem_cons.mpr ⟨Nat.le_refl _, fun p hp => Nat.le_of_succ_le (hway p hp)⟩)
  rw [lookAt, hfree, hnow]
  exact congrArg (Value.map none) hinner

/-- Settling the copy of a leaf changes nothing. -/
theorem settle_leaf (hplain : s.PlainRegion (· ∈ found)) {v : Value} (hv : s.PlainLeaf v)
    (hfound : ∀ w ∈ v.nodes, w ∈ found)
    (hu : (s.withCopies found).collections <+: u.collections) :
    ∃ w more, (settle (v.renamed (s.newName found)) : Action Value).run u
        = (.ok w, u.withCollections more) ∧
      ∀ t : Store, (u.withCollections more).collections <+: t.collections →
        ∀ (n : Nat) (way : List Nat), (u.withCollections more).collections.length < n →
        (∀ p ∈ way, (u.withCollections more).collections.length ≤ p) →
        (t.lookAt n way [] w).bare = (s.current v).bare := by
  have hsettled : ∀ x : Value, (settle (v.renamed (s.newName found)) : Action Value) = pure x →
      (settle (v.renamed (s.newName found)) : Action Value).run u = (.ok x, u.withCollections []) :=
    fun x hx => by
      rw [hx, withCollections, List.append_nil]
      rfl
  refine ⟨v.renamed (s.newName found), [], hsettled _ ?_, fun t ht n way hn hway => ?_⟩
  · cases hv with
    | flat hclosed hflat =>
      rw [Value.renamed_of_closed _ hclosed]
      cases v <;> first | rfl | cases hflat
    | list old h => rfl
  · have hgrown := prefix_withCollections u []
    have hle := hgrown.length_le
    have hcopies := ((List.prefix_append s.collections _ :
      s.collections <+: (s.withCopies found).collections).trans hu).length_le
    exact bare_lookAt_leaf hplain hv hfound (hu.trans (hgrown.trans ht)) (by omega)
      fun p hp => Nat.le_trans hu.length_le (Nat.le_trans hle (hway p hp))

mutual

/-- Settling a mapping with copied leaves gives a place to every mapping in it, and shows what the
mapping shows. -/
theorem settle_mapLeaves (hplain : s.PlainRegion (· ∈ found)) : ∀ {v : Value} {u : Store},
    v.LeavesAre s.PlainLeaf → (∀ w ∈ (v.mapLeaves id).nodes, w ∈ found) →
    (s.withCopies found).collections <+: u.collections →
    ∃ w more, (settle ((v.mapLeaves id).renamed (s.newName found)) : Action Value).run u
      = (.ok w, u.withCollections more) ∧ s.ShowsValue v u more w
  | .map place entries, u, h, hfound, hu => by
    obtain ⟨ws, more, hrun, hshows⟩ := settleEntries_mapLeaves hplain h hfound hu
    refine ⟨_, more ++ [.map ws], ?_, hshows.map place⟩
    rw [Value.mapLeaves, Value.renamed]
    show (settle (.map none _)).run u = _
    rw [settle, Work.run_bind_ok hrun, ← withCollections_append]
    rfl
  | .null, _, h, hfound, hu | .bool _, _, h, hfound, hu | .int _, _, h, hfound, hu
  | .float _, _, h, hfound, hu | .text _, _, h, hfound, hu | .bytes _, _, h, hfound, hu
  | .list _ _, _, h, hfound, hu | .object _, _, h, hfound, hu | .path _, _, h, hfound, hu
  | .component _ _, _, h, hfound, hu | .parser _, _, h, hfound, hu | .other _, _, h, hfound, hu =>
    settle_leaf hplain h hfound hu

theorem settleEntries_mapLeaves (hplain : s.PlainRegion (· ∈ found)) :
    ∀ {entries : List (Value × Value)} {u : Store}, Value.EntryLeavesAre s.PlainLeaf entries →
    (∀ w ∈ Value.entryNodes (Value.mapEntryLeaves id entries), w ∈ found) →
    (s.withCopies found).collections <+: u.collections →
    ∃ ws more, (settleEntries (Value.renamedEntries (s.newName found)
        (Value.mapEntryLeaves id entries)) : Action _).run u = (.ok ws, u.withCollections more) ∧
      s.ShowsEntries entries u more ws
  | [], u, _, _, _ => ⟨[], [], by rw [withCollections, List.append_nil]; rfl, fun _ _ _ _ _ _ => rfl⟩
  | (k, v) :: rest, u, h, hfound, hu => by
    obtain ⟨w, more, hrun, hw⟩ := settle_mapLeaves hplain h.1
      (fun x hx => hfound x (List.mem_append_left _ hx)) hu
    obtain ⟨ws, more', hrun', hws⟩ := settleEntries_mapLeaves hplain h.2
      (fun x hx => hfound x (List.mem_append_right _ hx))
      (hu.trans (prefix_withCollections u more))
    rw [withCollections_append] at hrun'
    refine ⟨(k, w) :: ws, more ++ more', ?_, fun t ht n way hn hway => ?_⟩
    · rw [Value.mapEntryLeaves, Value.renamedEntries, settleEntries, Work.run_bind_ok hrun,
        Work.run_bind_ok hrun', Work.run_pure]
    · rw [← withCollections_append] at ht hn hway
      have hle := (prefix_withCollections (u.withCollections more) more').length_le
      have hfirst := hw t ((prefix_withCollections _ _).trans ht) n way (by omega)
        fun p hp => Nat.le_trans hle (hway p hp)
      rw [List.map_cons, Value.bareEntries, hfirst, hws t ht n way hn hway]
      rfl

end

end WithCopies

/-! ### Making a configuration and asking for all of it -/

/-- A leaf that is plain data with all that it leads to, as the store has it now. -/
structure PlainSetting (s : Store) (v : Value) : Prop where
  leaf : s.PlainLeaf v
  current : s.current v = v
  plain : ∀ w ∈ v.nodes, ∀ z, s.Reaches w z → s.PlainNode z

variable {entries : List (Value × Value)}

/-- Copying a mapping of plain data succeeds, and the copy shows what the mapping shows. -/
theorem run_duplicate_mapping (h : Value.EntryLeavesAre s.PlainSetting entries) :
    ∃ w u, (duplicate (.map none (Value.mapEntryLeaves id entries))).run s = (.ok w, u) ∧
      (u.current w).bare = .map none (Value.bareEntries entries) := by
  set start := (Value.entryNodes (Value.mapEntryLeaves id entries)).eraseDups with hstart
  have hplain : s.PlainRegion (· ∈ s.reachedIn s.reach start) := by
    refine plainRegion_reachedIn (Container.nodup_eraseDups _) fun y hy => ?_
    obtain ⟨leaf, hleaf, hmem⟩ :=
      Value.entryNodes_of_leavesAre h y (List.mem_eraseDups.mp hy)
    exact hleaf.plain y hmem
  have hfound : ∀ w ∈ (Value.mapLeaves id (.map none entries)).nodes,
      w ∈ s.reachedIn s.reach start := fun w hw =>
    mem_reachedIn _ (Container.nodup_eraseDups _) (List.mem_eraseDups.mpr hw) (.here _)
      (Nat.zero_le _)
  have hcopied := run_copyReached (Value.entryNodes (Value.mapEntryLeaves id entries)) s
  have hnone : (componentsIn .cachedSource (s.reachedIn s.reach start)).isEmpty = true := by
    rw [List.isEmpty_iff, List.eq_nil_iff_forall_not_mem]
    exact fun n hn => (hplain.plain _ (mem_componentsIn.mp hn)).elim
  dsimp only at hcopied
  rw [if_pos hnone] at hcopied
  have hleaves : (Value.map none entries).LeavesAre s.PlainLeaf := h.mono fun _ hv => hv.leaf
  obtain ⟨w, more, hrun, hshows⟩ :=
    settle_mapLeaves hplain hleaves hfound (List.prefix_refl _)
  refine ⟨w, _, (run_bind_ok hcopied).trans hrun, ?_⟩
  refine (hshows _ (List.prefix_refl _) _ [] (lt_nesting _) nofun).trans ?_
  exact Value.bare_mapLeaves (v := .map none entries) (h.mono fun _ hv => hv.current)

/-- Plain leaves stay plain when a configuration is added. -/
theorem PlainSetting.withConfig {v : Value} (h : s.PlainSetting v) (c : Config) :
    PlainSetting { s with configs := s.configs.add c } v := by
  set t : Store := { s with configs := s.configs.add c } with ht
  have hgrown : Grown s t := ⟨.refl _, .refl _, .refl _, List.prefix_refl _⟩
  have hregion : s.PlainRegion fun z => ∃ w ∈ v.nodes, s.Reaches w z :=
    ⟨fun z hz => hz.elim fun w hw => h.plain w hw.1 z hw.2,
      fun _ hy _ hz => hy.imp fun _ hw => ⟨hw.1, hw.2.trans (.of_mem hz)⟩⟩
  have htouches : Touches [] s t := touches_of_grown hgrown
  have hregion' : t.PlainRegion fun z => ∃ w ∈ v.nodes, s.Reaches w z :=
    hregion.same (fun z hz => htouches.same (hregion.plain z hz).has List.not_mem_nil)
      fun z hz => htouches.has (hregion.plain z hz).has
  refine ⟨?_, ?_, fun w hw z hz => hregion'.plain z (hz.passes hregion'.next ⟨w, hw, .refl s w⟩)⟩
  · cases h.leaf with
    | flat hclosed hflat => exact .flat hclosed hflat
    | list old hp => exact .list old hp
  · refine Eq.trans ?_ h.current
    exact hregion.current_congr (t := t) (fun _ _ => rfl) (Nat.le_refl _) h.leaf.plain
      fun w hw => ⟨w, hw, .refl s w⟩

/-- A configuration that is made of a mapping without empty ones in it, whose keys are different
texts without dots and at the top not empty, holds the mapping. All its values are a copy of the
mapping, and the same data where the leaves are plain data. -/
theorem makeConfig_all {value : Value} {place : Option Nat} {given : List (Value × Value)}
    (hvalue : s.content value = .map place given)
    (hentries : entries = given.map fun e => (s.content e.1, s.setting e.2))
    (htidy : Value.EntriesTidy entries) (hnames : ∀ e ∈ entries, e.1 ≠ .text "") :
    ∃ r t, (makeConfig value).run s = (.ok r, t) ∧
      (configValues r).run t = (duplicate (.map none (Value.mapEntryLeaves id entries))).run t ∧
      (Value.EntryLeavesAre s.PlainSetting entries →
        ∃ w u, (configValues r).run t = (.ok w, u) ∧
          (u.current w).bare = .map none (Value.bareEntries entries)) := by
  have hmade : Config.ofEntries entries = .ok ⟨ConfigEntries.merge [] entries⟩ :=
    Config.setAll_eq_merge (Value.entriesDotless_of_tidy htidy) hnames _
  have hvalues : ConfigNode.entryValues (ConfigEntries.merge [] entries)
      = Value.mapEntryLeaves id entries :=
    @ConfigEntries.entryValues_merge entries htidy [] fun _ _ => List.not_mem_nil
  have hrun : (makeConfig value).run s = (.ok s.configs.next,
      { s with configs := s.configs.add ⟨ConfigEntries.merge [] entries⟩ }) := by
    have hmapping : (mapping value).run s = (.ok given, s) := by
      unfold mapping
      rw [run_bind_ok (run_get s), hvalue]
      rfl
    unfold makeConfig
    rw [run_bind_ok hmapping, run_bind_ok (run_get s), ← hentries, hmade,
      run_bind_ok (run_lift _ s), run_make]
    rfl
  have hall : (configValues s.configs.next).run
      { s with configs := s.configs.add ⟨ConfigEntries.merge [] entries⟩ }
      = (duplicate (.map none (Value.mapEntryLeaves id entries))).run
          { s with configs := s.configs.add ⟨ConfigEntries.merge [] entries⟩ } := by
    unfold configValues
    rw [run_bind_ok (run_read _ _), Config.all]
    show (duplicate (.map none (ConfigNode.entryValues
      ((s.configs.add ⟨ConfigEntries.merge [] entries⟩).get s.configs.next).entries))).run _ = _
    rw [Cells.get_add_next, hvalues]
  refine ⟨_, _, hrun, hall, fun hplain => ?_⟩
  rw [hall]
  exact run_duplicate_mapping (hplain.mono fun _ hv => hv.withConfig _)

/-- Setting a mapping merges it into what stands under the key, and a configuration that is made of a
mapping gives it back: whatever the leaves are, all its values are a copy of the mapping. -/
theorem mappings_merge (s : Store) :
    (∀ (r : Ref Config) (key value : Value) (k : String) (place : Option Nat)
        (entries : List (Value × Value)), s.configs.Holds r → (s.content key).name? = some k →
      s.setting value = .map place entries → Value.EntriesDotless entries →
      ∃ t, (setConfig r key value).run s = (.ok (), t) ∧ s.Merges t r k entries) ∧
    ∀ (value : Value) (place : Option Nat) (given entries : List (Value × Value)),
      s.content value = .map place given →
      entries = given.map (fun e => (s.content e.1, s.setting e.2)) →
      Value.EntriesTidy entries → (∀ e ∈ entries, e.1 ≠ .text "") →
      ∃ r t, (makeConfig value).run s = (.ok r, t) ∧
        (configValues r).run t = (duplicate (.map none (Value.mapEntryLeaves id entries))).run t ∧
        (Value.EntryLeavesAre s.PlainSetting entries →
          ∃ w u, (configValues r).run t = (.ok w, u) ∧
            (u.current w).bare = .map none (Value.bareEntries entries)) :=
  ⟨fun _ _ _ _ _ _ hr hkey hvalue hdotless => setConfig_merges hr hkey hvalue hdotless,
    fun _ _ _ _ hvalue hentries htidy hnames => makeConfig_all hvalue hentries htidy hnames⟩

/-- A store with a list and a configuration. -/
def listedStore : Store :=
  { Store.empty default with
    collections := [.list [.int 1, .int 2]]
    configs := ⟨[⟨[("x", .leaf (.int 0)), ("y", .leaf .null)]⟩]⟩ }

theorem mappings_merge_listed :
    let list : Value := .list (some 0) [.int 1, .int 2]
    let given : List (Value × Value) :=
      [(.text "a", .map none [(.text "b", list), (.text "", .null)]), (.text "c", .int 3)]
    (∃ t, (setConfig ⟨0⟩ (.text "x") (.map none given)).run listedStore = (.ok (), t) ∧
      listedStore.Merges t ⟨0⟩ "x" given) ∧
    ∃ r t w u, (makeConfig (.map none given)).run listedStore = (.ok r, t) ∧
      (configValues r).run t = (.ok w, u) ∧ (u.current w).bare = (Value.map none given).bare := by
  intro list given
  have htoken : ∀ t : String, '.' ∉ t.toList → (Value.text t).IsToken := fun t ht => ⟨t, rfl, ht⟩
  have htidy : Value.EntriesTidy given :=
    ⟨htoken _ (by decide), by simp,
      ⟨by simp, htoken _ (by decide), by simp, trivial, htoken _ (by decide), by simp, trivial,
        trivial⟩,
      htoken _ (by decide), by simp, trivial, trivial⟩
  have hlist : listedStore.PlainSetting list := by
    refine ⟨.list _ rfl, rfl, fun w hw z hz => ?_⟩
    obtain rfl := List.mem_singleton.mp hw
    obtain rfl : z = .collection 0 :=
      hz.passes (P := (· = .collection 0)) (fun y hy z hz => by subst hy; cases hz) rfl
    exact ⟨_, rfl, fun v hv => .closed (by rcases List.mem_pair.mp hv with rfl | rfl <;> rfl)⟩
  have hflat : ∀ v : Value, v.nodes = [] → v.isFlat = true → listedStore.PlainSetting v :=
    fun v hnodes hflat => ⟨.flat hnodes hflat, current_flat _ hflat, by simp [hnodes]⟩
  obtain ⟨hset, hmake⟩ := mappings_merge listedStore
  refine ⟨hset ⟨0⟩ _ _ _ none _ Nat.zero_lt_one rfl rfl (Value.entriesDotless_of_tidy htidy), ?_⟩
  obtain ⟨r, t, hrun, -, hall⟩ :=
    hmake (.map none given) none given given rfl rfl htidy (by simp [given])
  obtain ⟨w, u, hvalues, hshown⟩ := hall
    ⟨⟨hlist, hflat _ rfl rfl, trivial⟩, hflat _ rfl rfl, trivial⟩
  exact ⟨r, t, w, u, hrun, hvalues, hshown⟩

/-- A mapping whose leaf cannot be copied is taken, and the configuration does not give it back. -/
theorem configValues_of_uncopyable :
    let given : List (Value × Value) := [(.text "a", .component ⟨.cachedSource, 1⟩ [])]
    Value.EntriesTidy given ∧
    ∃ r t, (makeConfig (.map none given)).run selfConfiguredStore = (.ok r, t) ∧
      ((configValues r).run t).1 = .error (.foreign .type) := by
  intro given
  exact ⟨⟨⟨_, rfl, by decide⟩, List.not_mem_nil, trivial, trivial⟩, _, _, rfl, by rfl⟩

end Store

end Wiring
