import Wiring.Proofs.Cells
import Wiring.Proofs.Snapshots
import Wiring.Proofs.Work
import Wiring.Store.Containers

/-!
# `Wiring.Proofs.Placing`: cells that show what was placed

Placing a definition makes cells for it and for its parts. `run_place` is the main fact about it:
the new cell shows the definition, and everything that was there is still there and looks the same.
`run_install` says the same of a whole catalogue, whose entries share a cell when they share their
number.

What a cell shows is read through other cells and through the lists and mappings of the store.
`Lasting` is a way for a store to change under which cells are only added, and `HasDefinition` says
of a cell that it shows the same after each such change. What is placed lasts as long as lists and
mappings are only added too, since each of them holds just what was put there (`Settled`). A flat
definition, which means that no property holds a list, a mapping or a component, lasts under every
lasting change.
-/

set_option autoImplicit false

namespace Wiring

/-! ### Data -/

namespace Value

/-- Whether the value is no list, no mapping and no component. -/
def isFlat : Value → Bool
  | .list _ _ | .map _ _ | .component _ _ => false
  | _ => true

mutual

/-- Whether the value has no place and no component in it. -/
def isData : Value → Bool
  | .list none items => areData items
  | .map none entries => entriesAreData entries
  | .list (some _) _ | .map (some _) _ | .component _ _ => false
  | _ => true

/-- Whether no item of a list has a place or a component in it. -/
def areData : List Value → Bool
  | [] => true
  | v :: rest => isData v && areData rest

/-- Whether no value of a mapping has a place or a component in it. -/
def entriesAreData : List (Value × Value) → Bool
  | [] => true
  | (_, v) :: rest => isData v && entriesAreData rest

end

theorem entriesAreData_iff (entries : List (Value × Value)) :
    entriesAreData entries = true ↔ ∀ e ∈ entries, e.2.isData = true := by
  induction entries with
  | nil => simp [entriesAreData]
  | cons e rest ih => simp [entriesAreData, ih]

theorem isData_of_isFlat {v : Value} (h : v.isFlat = true) : v.isData = true := by
  cases v <;> first | rfl | cases h

/-- What is flat without its places had none. -/
theorem bare_of_isFlat {v : Value} (h : v.bare.isFlat = true) : v.bare = v := by
  cases v <;> first | rfl | cases h

end Value

/-- No property holds a list, a mapping or a component. -/
def Argument.IsFlat (a : Argument) : Prop := ∀ e ∈ a.properties, e.2.isFlat = true

/-- All arguments are flat. -/
def CallOf.IsFlat (c : Call) : Prop := ∀ a ∈ c.arguments, a.IsFlat

/-- All calls are flat. -/
structure DefinitionOf.IsFlat (d : Definition) : Prop where
  constructor_call : ∀ c, d.constructor = some c → CallOf.IsFlat c
  call : ∀ e ∈ d.calls.entries, CallOf.IsFlat e.2

/-- No property has a place or a component in it. -/
def Argument.IsData (a : Argument) : Prop := ∀ e ∈ a.properties, e.2.isData = true

/-- All arguments are data. -/
def CallOf.IsData (c : Call) : Prop := ∀ a ∈ c.arguments, a.IsData

/-- All calls are data. -/
structure DefinitionOf.IsData (d : Definition) : Prop where
  constructor_call : ∀ c, d.constructor = some c → CallOf.IsData c
  call : ∀ e ∈ d.calls.entries, CallOf.IsData e.2

theorem Argument.IsFlat.data {a : Argument} (h : a.IsFlat) : a.IsData :=
  fun e he => Value.isData_of_isFlat (h e he)

theorem DefinitionOf.IsFlat.data {d : Definition} (h : d.IsFlat) : d.IsData :=
  ⟨fun c hc a ha => (h.constructor_call c hc a ha).data, fun e he a ha => (h.call e he a ha).data⟩

theorem Argument.bare_of_isFlat {a : Argument} (h : a.bare.IsFlat) : a.bare = a := by
  unfold Argument.bare at h ⊢
  rw [Value.bareEntries_eq_map] at h ⊢
  rw [List.map_congr_left (g := id) fun e he => ?_, List.map_id]
  rw [Value.bare_of_isFlat (h _ (List.mem_map_of_mem he))]
  rfl

theorem CallOf.bare_of_isFlat {c : Call} (h : CallOf.IsFlat (c.map Argument.bare)) :
    c.map Argument.bare = c := by
  have harguments : c.arguments.map Argument.bare = c.arguments.map id :=
    List.map_congr_left fun a ha => Argument.bare_of_isFlat (h _ (List.mem_map_of_mem ha))
  unfold CallOf.map
  rw [harguments, List.map_id]

theorem DefinitionOf.bare_of_isFlat {d : Definition} (h : (d.mapArguments Argument.bare).IsFlat) :
    d.mapArguments Argument.bare = d := by
  have hconstructor : d.constructor.map (CallOf.map Argument.bare) = d.constructor := by
    cases hc : d.constructor with
    | none => rfl
    | some c =>
      refine congrArg some (CallOf.bare_of_isFlat (h.constructor_call _ ?_))
      show d.constructor.map _ = _
      rw [hc]
      rfl
  have hcalls : d.calls.map (CallOf.map Argument.bare) = d.calls := by
    apply OrderedMap.ext
    show d.calls.entries.map _ = _
    rw [List.map_congr_left (g := id) fun e he => ?_, List.map_id]
    rw [CallOf.bare_of_isFlat (h.call _ (List.mem_map_of_mem he))]
    rfl
  unfold mapArguments map
  rw [hconstructor, hcalls]

/-- A container of definitions that are flat without their places had none. -/
theorem Container.bare_of_isFlat {c : Container Definition}
    (h : ∀ e ∈ c.bare.entries, e.2.IsFlat) : c.bare = c := by
  unfold bare at h ⊢
  rw [map_congr (g := id) fun e he => DefinitionOf.bare_of_isFlat (h (e.1, _) ?_), map_id]
  rw [entries_map]
  exact List.mem_map_of_mem he

namespace Store

variable {s s' s'' : Store}

/-- A flat value always looks the same. -/
theorem current_flat (s : Store) {v : Value} (h : v.isFlat = true) : s.current v = v := by
  have hlook : ∀ (n : Nat) (way : List Nat) (around : List Component),
      s.lookAt n way around v = v := by
    intro n way around
    cases n with
    | zero => rfl
    | succ n => cases v <;> first | rfl | cases h
  exact hlook _ _ _

/-- What looks flat is flat. -/
theorem isFlat_of_current {v : Value} (h : (s.current v).isFlat = true) : v.isFlat = true := by
  have hlook : ∀ (n : Nat) (way : List Nat) (around : List Component),
      (s.lookAt n way around v).isFlat = true → v.isFlat = true := by
    intro n way around h
    cases n with
    | zero => exact h
    | succ n =>
      cases v with
      | list p items =>
        rw [lookAt] at h
        split at h <;> cases h
      | map p entries =>
        rw [lookAt] at h
        split at h <;> cases h
      | component c parts =>
        rw [lookAt] at h
        split at h <;> cases h
      | _ => rfl
  exact hlook _ _ _ h

/-! ### Settled values -/

mutual

/-- Every list and mapping of a value has a place below a bound, where just that stands which the
value shows. Those inside of others have the lower places. -/
def SettledBelow (s : Store) (bound : Nat) : Value → Prop
  | .list (some n) items =>
    n < bound ∧ s.collections[n]? = some (.list items) ∧ AllSettledBelow s n items
  | .map (some n) entries =>
    n < bound ∧ s.collections[n]? = some (.map entries) ∧ EntriesSettledBelow s n entries
  | .list none _ | .map none _ | .component _ _ => False
  | _ => True

/-- All items of a list are settled below a bound. -/
def AllSettledBelow (s : Store) (bound : Nat) : List Value → Prop
  | [] => True
  | v :: rest => SettledBelow s bound v ∧ AllSettledBelow s bound rest

/-- All values of a mapping are settled below a bound. -/
def EntriesSettledBelow (s : Store) (bound : Nat) : List (Value × Value) → Prop
  | [] => True
  | (_, v) :: rest => SettledBelow s bound v ∧ EntriesSettledBelow s bound rest

end

theorem allSettledBelow_iff {bound : Nat} {items : List Value} :
    AllSettledBelow s bound items ↔ ∀ v ∈ items, SettledBelow s bound v := by
  induction items with
  | nil => simp [AllSettledBelow]
  | cons v rest ih => simp [AllSettledBelow, ih]

theorem entriesSettledBelow_iff {bound : Nat} {entries : List (Value × Value)} :
    EntriesSettledBelow s bound entries ↔ ∀ e ∈ entries, SettledBelow s bound e.2 := by
  induction entries with
  | nil => simp [EntriesSettledBelow]
  | cons e rest ih => simp [EntriesSettledBelow, ih]

/-- The value looks the same as long as collections are only added. -/
def Settled (s : Store) (v : Value) : Prop := SettledBelow s s.collections.length v

/-- A settled value looks as it is. It is enough that no place on the way to it is one of its
own. -/
theorem lookAt_settled (n : Nat) :
    ∀ {bound : Nat} {way : List Nat} {around : List Component} {v : Value},
      SettledBelow s bound v → (∀ p ∈ way, bound ≤ p) → s.lookAt n way around v = v := by
  induction n with
  | zero => exact fun _ _ => rfl
  | succ n ih =>
    intro bound way around v hv hway
    have hfree : ∀ p < bound, onTheWay way (some p) = false := by
      intro p hp
      have hnot : p ∉ way := fun hmem => absurd (hway p hmem) (by omega)
      simp [onTheWay, hnot]
    have hinner : ∀ p < bound, ∀ q ∈ (some p).toList ++ way, p ≤ q := by
      intro p hp q hq
      rcases List.mem_cons.mp hq with rfl | hq
      · exact Nat.le_refl _
      · exact Nat.le_of_lt (Nat.lt_of_lt_of_le hp (hway q hq))
    cases v with
    | list p items =>
      cases p with
      | none => exact absurd hv (by simp [SettledBelow])
      | some p =>
        obtain ⟨hp, hstands, hitems⟩ := by simpa only [SettledBelow] using hv
        have hnow : s.itemsAt (some p) items = items := by simp [itemsAt, hstands]
        have hlook : items.map (s.lookAt n ((some p).toList ++ way) around) = items.map id :=
          List.map_congr_left fun v hv => ih (allSettledBelow_iff.mp hitems v hv) (hinner p hp)
        rw [lookAt, hfree p hp, hnow, hlook, List.map_id]
        rfl
    | map p entries =>
      cases p with
      | none => exact absurd hv (by simp [SettledBelow])
      | some p =>
        obtain ⟨hp, hstands, hentries⟩ := by simpa only [SettledBelow] using hv
        have hnow : s.entriesAt (some p) entries = entries := by simp [entriesAt, hstands]
        have hlook : entries.map (fun e =>
            (e.1, s.lookAt n ((some p).toList ++ way) around e.2)) = entries.map id :=
          List.map_congr_left fun e he => by
            rw [ih (entriesSettledBelow_iff.mp hentries e he) (hinner p hp)]
            rfl
        rw [lookAt, hfree p hp, hnow, hlook, List.map_id]
        rfl
    | component c parts => exact absurd hv (by simp [SettledBelow])
    | _ => rfl

theorem current_settled {v : Value} (h : s.Settled v) : s.current v = v :=
  lookAt_settled _ h (by simp)

/-- What stands at a place stands there when collections are added. -/
theorem getElem?_of_prefix {α : Type} {l l' : List α} (h : l <+: l') {n : Nat} {a : α}
    (ha : l[n]? = some a) : l'[n]? = some a := by
  obtain ⟨more, rfl⟩ := h
  rw [List.getElem?_append_left (List.getElem?_eq_some_iff.mp ha).1, ha]

mutual

/-- A settled value stays settled when collections are added. -/
theorem SettledBelow.mono (hgrown : s.collections <+: s'.collections) {bound bound' : Nat}
    (hle : bound ≤ bound') : ∀ {v : Value}, SettledBelow s bound v → SettledBelow s' bound' v
  | .list (some n) items, h => by
    rw [SettledBelow] at h ⊢
    obtain ⟨hn, hstands, hitems⟩ := h
    exact ⟨by omega, getElem?_of_prefix hgrown hstands,
      AllSettledBelow.mono hgrown (Nat.le_refl _) hitems⟩
  | .map (some n) entries, h => by
    rw [SettledBelow] at h ⊢
    obtain ⟨hn, hstands, hentries⟩ := h
    exact ⟨by omega, getElem?_of_prefix hgrown hstands,
      EntriesSettledBelow.mono hgrown (Nat.le_refl _) hentries⟩
  | .list none _, h | .map none _, h | .component _ _, h => by
    rw [SettledBelow] at h
    exact h.elim
  | .null, _ | .bool _, _ | .int _, _ | .float _, _ | .text _, _ | .bytes _, _ | .object _, _
  | .path _, _ | .parser _, _ | .other _, _ => by rw [SettledBelow] <;> simp

theorem AllSettledBelow.mono (hgrown : s.collections <+: s'.collections) {bound bound' : Nat}
    (hle : bound ≤ bound') :
    ∀ {items : List Value}, AllSettledBelow s bound items → AllSettledBelow s' bound' items
  | [], _ => trivial
  | _ :: _, h => ⟨h.1.mono hgrown hle, h.2.mono hgrown hle⟩

theorem EntriesSettledBelow.mono (hgrown : s.collections <+: s'.collections) {bound bound' : Nat}
    (hle : bound ≤ bound') : ∀ {entries : List (Value × Value)},
      EntriesSettledBelow s bound entries → EntriesSettledBelow s' bound' entries
  | [], _ => trivial
  | _ :: _, h => ⟨h.1.mono hgrown hle, h.2.mono hgrown hle⟩

end

theorem Settled.grown {v : Value} (h : s.Settled v) (hgrown : s.collections <+: s'.collections) :
    s'.Settled v :=
  SettledBelow.mono hgrown (List.IsPrefix.length_le hgrown) h

/-! ### Lasting changes -/

/-- A way for a store to change in which cells of declarations are only added. -/
class Lasting (G : Store → Store → Prop) : Prop where
  refl : ∀ s, G s s
  trans : ∀ {s t u}, G s t → G t u → G s u
  arguments : ∀ {s t}, G s t → s.arguments.Extends t.arguments
  calls : ∀ {s t}, G s t → s.calls.Extends t.calls
  definitions : ∀ {s t}, G s t → s.definitions.Extends t.definitions

/-- Declarations and collections were only added. -/
structure Grown (s s' : Store) : Prop where
  arguments : s.arguments.Extends s'.arguments
  calls : s.calls.Extends s'.calls
  definitions : s.definitions.Extends s'.definitions
  collections : s.collections <+: s'.collections

theorem Grown.refl (s : Store) : Grown s s := ⟨.refl _, .refl _, .refl _, List.prefix_refl _⟩

theorem Grown.trans (h : Grown s s') (h' : Grown s' s'') : Grown s s'' :=
  ⟨h.arguments.trans h'.arguments, h.calls.trans h'.calls, h.definitions.trans h'.definitions,
    List.IsPrefix.trans h.collections h'.collections⟩

instance : Lasting Grown := ⟨.refl, .trans, (·.arguments), (·.calls), (·.definitions)⟩

/-- Declarations were added, and the files were left alone. -/
structure Placed (s s' : Store) : Prop extends Grown s s' where
  files : s'.files = s.files

theorem Placed.refl (s : Store) : Placed s s := ⟨.refl s, rfl⟩

theorem Placed.trans (h : Placed s s') (h' : Placed s' s'') : Placed s s'' :=
  ⟨h.toGrown.trans h'.toGrown, h'.files.trans h.files⟩

section Lasting

variable {G : Store → Store → Prop}

/-- The argument is there, and it shows the same from now on. -/
def HasArgument (G : Store → Store → Prop) (s : Store) (r : Ref Argument) : Prop :=
  s.arguments.Holds r ∧ ∀ t, G s t → t.argument r = s.argument r

/-- The call is there with its arguments. -/
def HasCall (G : Store → Store → Prop) (s : Store) (r : Ref CallCell) : Prop :=
  s.calls.Holds r ∧ ∀ a ∈ (s.calls.get r).arguments, HasArgument G s a

/-- The definition is there with its calls. -/
def HasDefinition (G : Store → Store → Prop) (s : Store) (r : Ref DefinitionCell) : Prop :=
  s.definitions.Holds r ∧
    (∀ c, (s.definitions.get r).constructor = some c → HasCall G s c) ∧
    ∀ e ∈ (s.definitions.get r).calls.entries, HasCall G s e.2

variable [Lasting G]

/-- An argument shows the same after a lasting change. -/
theorem HasArgument.grown {r : Ref Argument} (h : HasArgument G s r) (hg : G s s') :
    HasArgument G s' r ∧ s'.argument r = s.argument r :=
  ⟨⟨(Lasting.arguments hg).holds h.1, fun t ht =>
    (h.2 t (Lasting.trans hg ht)).trans (h.2 s' hg).symm⟩, h.2 s' hg⟩

/-- A call shows the same after a lasting change. -/
theorem HasCall.grown {r : Ref CallCell} (h : HasCall G s r) (hg : G s s') :
    HasCall G s' r ∧ s'.call r = s.call r := by
  have hget := (Lasting.calls hg).get h.1
  refine ⟨⟨(Lasting.calls hg).holds h.1, fun a ha => ((h.2 a (hget ▸ ha)).grown hg).1⟩, ?_⟩
  unfold call CallOf.map
  rw [hget, List.map_congr_left fun a ha => ((h.2 a ha).grown hg).2]

/-- A definition shows the same after a lasting change. -/
theorem HasDefinition.grown {r : Ref DefinitionCell} (h : HasDefinition G s r) (hg : G s s') :
    HasDefinition G s' r ∧ s'.definition r = s.definition r := by
  obtain ⟨hr, hconstructor, hcalls⟩ := h
  have hget := (Lasting.definitions hg).get hr
  refine ⟨⟨(Lasting.definitions hg).holds hr, ?_, ?_⟩, ?_⟩
  · intro c hc
    rw [hget] at hc
    exact ((hconstructor c hc).grown hg).1
  · intro e he
    rw [hget] at he
    exact ((hcalls e he).grown hg).1
  · unfold definition DefinitionOf.map
    rw [hget]
    congr 1
    · cases hc : (s.definitions.get r).constructor with
      | none => rfl
      | some c => exact congrArg some ((hconstructor c hc).grown hg).2
    · apply OrderedMap.ext
      exact List.map_congr_left fun e he => by rw [((hcalls e he).grown hg).2]

end Lasting

/-! ### Flat definitions -/

/-- An argument that looks flat shows what its cell holds, in every store with this cell. -/
theorem hasArgument_of_isFlat {G : Store → Store → Prop} [Lasting G] {r : Ref Argument}
    (hr : s.arguments.Holds r) (h : (s.argument r).IsFlat) : HasArgument G s r := by
  have hcell : ∀ e ∈ (s.arguments.get r).properties, e.2.isFlat = true :=
    fun e he => isFlat_of_current (h (e.1, s.current e.2) (List.mem_map_of_mem he))
  refine ⟨hr, fun t ht => ?_⟩
  unfold argument
  rw [(Lasting.arguments ht).get hr]
  have hsame : (s.arguments.get r).properties.map (fun e => (e.1, t.current e.2))
      = (s.arguments.get r).properties.map fun e => (e.1, s.current e.2) :=
    List.map_congr_left fun e he => by
      rw [current_flat t (hcell e he), current_flat s (hcell e he)]
  simp only [hsame]

/-- A call that looks flat lasts under every lasting change. -/
theorem HasCall.of_isFlat {G G' : Store → Store → Prop} [Lasting G'] {r : Ref CallCell}
    (h : HasCall G s r) (hflat : CallOf.IsFlat (s.call r)) : HasCall G' s r :=
  ⟨h.1, fun a ha => hasArgument_of_isFlat (h.2 a ha).1 (hflat _ (List.mem_map_of_mem ha))⟩

/-- A definition that looks flat lasts under every lasting change. -/
theorem HasDefinition.of_isFlat {G G' : Store → Store → Prop} [Lasting G']
    {r : Ref DefinitionCell} (h : HasDefinition G s r) (hflat : (s.definition r).IsFlat) :
    HasDefinition G' s r := by
  refine ⟨h.1, fun c hc => (h.2.1 c hc).of_isFlat (hflat.constructor_call _ ?_), fun e he =>
    (h.2.2 e he).of_isFlat (hflat.call (e.1, s.call e.2) (List.mem_map_of_mem he))⟩
  show (s.definitions.get r).constructor.map s.call = _
  rw [hc]
  rfl

/-! ### Placing -/

/-- A store with more collections. -/
def withCollections (s : Store) (more : List Collection) : Store :=
  { s with collections := s.collections ++ more }

theorem withCollections_append (s : Store) (more more' : List Collection) :
    (s.withCollections more).withCollections more' = s.withCollections (more ++ more') := by
  unfold withCollections
  rw [List.append_assoc]

theorem prefix_withCollections (s : Store) (more : List Collection) :
    s.collections <+: (s.withCollections more).collections := List.prefix_append _ _

mutual

/-- Settling data gives it places, and adds nothing but the collections at these places. -/
theorem run_settle {ε : Type} (s : Store) : ∀ {v : Value}, v.isData = true →
    ∃ w more, (settle v : Work ε Value).run s = (.ok w, s.withCollections more) ∧
      (s.withCollections more).Settled w ∧ w.bare = v
  | .list none items, h => by
    obtain ⟨ws, more, hrun, hws, hbare⟩ := run_settleItems (ε := ε) s h
    refine ⟨.list (some (s.withCollections more).collections.length) ws, more ++ [.list ws], ?_, ?_,
      ?_⟩
    · rw [settle, Work.run_bind_ok hrun]
      rw [← withCollections_append]
      rfl
    · rw [← withCollections_append]
      refine ⟨by simp [withCollections], by simp [withCollections], ?_⟩
      exact hws.mono (prefix_withCollections _ _) (Nat.le_refl _)
    · rw [Value.bare, hbare]
  | .map none entries, h => by
    obtain ⟨ws, more, hrun, hws, hbare⟩ := run_settleEntries (ε := ε) s h
    refine ⟨.map (some (s.withCollections more).collections.length) ws, more ++ [.map ws], ?_, ?_,
      ?_⟩
    · rw [settle, Work.run_bind_ok hrun]
      rw [← withCollections_append]
      rfl
    · rw [← withCollections_append]
      refine ⟨by simp [withCollections], by simp [withCollections], ?_⟩
      exact hws.mono (prefix_withCollections _ _) (Nat.le_refl _)
    · rw [Value.bare, hbare]
  | .list (some _) _, h | .map (some _) _, h | .component _ _, h => by cases h
  | .null, _ | .bool _, _ | .int _, _ | .float _, _ | .text _, _ | .bytes _, _ | .object _, _
  | .path _, _ | .parser _, _ | .other _, _ =>
    ⟨_, [], by rw [withCollections, List.append_nil]; rfl, by simp [Settled, SettledBelow], rfl⟩

theorem run_settleItems {ε : Type} (s : Store) : ∀ {items : List Value},
    Value.areData items = true →
    ∃ ws more, (settleItems items : Work ε _).run s = (.ok ws, s.withCollections more) ∧
      AllSettledBelow (s.withCollections more) (s.withCollections more).collections.length ws ∧
      Value.bareItems ws = items
  | [], _ => ⟨[], [], by rw [withCollections, List.append_nil]; rfl, trivial, rfl⟩
  | v :: rest, h => by
    rw [Value.areData, Bool.and_eq_true] at h
    obtain ⟨w, more, hrun, hw, hbare⟩ := run_settle (ε := ε) s h.1
    obtain ⟨ws, more', hrun', hws, hbare'⟩ := run_settleItems (ε := ε) (s.withCollections more) h.2
    rw [withCollections_append] at hrun' hws
    refine ⟨w :: ws, more ++ more', ?_, ⟨?_, hws⟩, ?_⟩
    · rw [settleItems, Work.run_bind_ok hrun, Work.run_bind_ok hrun', Work.run_pure]
    · exact hw.grown (withCollections_append s more more' ▸ prefix_withCollections _ _)
    · rw [Value.bareItems, hbare, hbare']

theorem run_settleEntries {ε : Type} (s : Store) : ∀ {entries : List (Value × Value)},
    Value.entriesAreData entries = true →
    ∃ ws more, (settleEntries entries : Work ε _).run s = (.ok ws, s.withCollections more) ∧
      EntriesSettledBelow (s.withCollections more) (s.withCollections more).collections.length ws ∧
      Value.bareEntries ws = entries
  | [], _ => ⟨[], [], by rw [withCollections, List.append_nil]; rfl, trivial, rfl⟩
  | (k, v) :: rest, h => by
    rw [Value.entriesAreData, Bool.and_eq_true] at h
    obtain ⟨w, more, hrun, hw, hbare⟩ := run_settle (ε := ε) s h.1
    obtain ⟨ws, more', hrun', hws, hbare'⟩ := run_settleEntries (ε := ε) (s.withCollections more) h.2
    rw [withCollections_append] at hrun' hws
    refine ⟨(k, w) :: ws, more ++ more', ?_, ⟨?_, hws⟩, ?_⟩
    · rw [settleEntries, Work.run_bind_ok hrun, Work.run_bind_ok hrun', Work.run_pure]
    · exact hw.grown (withCollections_append s more more' ▸ prefix_withCollections _ _)
    · rw [Value.bareEntries, hbare, hbare']

end

/-- The argument that a cell stands for, without places. -/
def bareArgument (s : Store) (r : Ref Argument) : Argument := (s.argument r).bare

/-- The call that a cell stands for, without places. -/
def bareCall (s : Store) (r : Ref CallCell) : Call := (s.call r).map Argument.bare

/-- The definition that a cell stands for, without places. -/
def bareDefinition (s : Store) (r : Ref DefinitionCell) : Definition :=
  (s.definition r).mapArguments Argument.bare

/-- The cell of a placed argument shows the argument. -/
theorem run_placeArgument (s : Store) {a : Argument} (ha : a.IsData) :
    ∃ r s', (placeArgument a).run s = (.ok r, s') ∧ Placed s s' ∧ HasArgument Grown s' r ∧
      s'.bareArgument r = a := by
  obtain ⟨ws, more, hrun, hws, hbare⟩ :=
    run_settleEntries (ε := Fault) s ((Value.entriesAreData_iff _).mpr ha)
  let s₁ := s.withCollections more
  let s₂ : Store := { s₁ with arguments := s₁.arguments.add { a with properties := ws } }
  have hget : s₂.arguments.get s₁.arguments.next = { a with properties := ws } :=
    Cells.get_add_next _ _
  have hgrown : Grown s s₂ :=
    ⟨Cells.extends_add _ _, .refl _, .refl _, prefix_withCollections s more⟩
  -- Settled properties show what the cell holds, in every later store.
  have hshown : ∀ t, Grown s₂ t → t.argument s₁.arguments.next = { a with properties := ws } := by
    intro t ht
    have hcurrent : ws.map (fun e => (e.1, t.current e.2)) = ws.map id :=
      List.map_congr_left fun e he => by
        have hsame : s₁.collections <+: s₂.collections := List.prefix_refl _
        have hsettled : s₂.Settled e.2 :=
          (entriesSettledBelow_iff.mp hws e he).mono hsame (Nat.le_refl _)
        rw [current_settled (hsettled.grown ht.collections)]
        rfl
    unfold argument
    rw [ht.arguments.get (Cells.holds_next _ _), hget]
    simp only [hcurrent, List.map_id]
  refine ⟨s₁.arguments.next, s₂, ?_, ⟨hgrown, rfl⟩, ⟨Cells.holds_next _ _, fun t ht => ?_⟩, ?_⟩
  · unfold placeArgument
    rw [Work.run_bind_ok hrun, run_make]
    rfl
  · rw [hshown t ht, hshown s₂ (.refl s₂)]
  · unfold bareArgument
    rw [hshown s₂ (.refl s₂), Argument.bare, hbare]

/-- The cells of placed arguments show the arguments. -/
theorem run_placeArguments (as : List Argument) :
    ∀ s : Store, (∀ a ∈ as, a.IsData) →
      ∃ rs s', (as.mapM placeArgument).run s = (.ok rs, s') ∧ Placed s s' ∧
        (∀ r ∈ rs, HasArgument Grown s' r) ∧ rs.map s'.bareArgument = as := by
  induction as with
  | nil => exact fun s _ => ⟨[], s, rfl, .refl s, nofun, rfl⟩
  | cons a rest ih =>
    intro s has
    obtain ⟨r, s₁, hrun, hgrown, hr, hview⟩ := run_placeArgument s (has a List.mem_cons_self)
    obtain ⟨rs, s₂, hrun', hgrown', hrs, hviews⟩ :=
      ih s₁ fun b hb => has b (List.mem_cons_of_mem _ hb)
    have hr' := hr.grown hgrown'.toGrown
    refine ⟨r :: rs, s₂, ?_, hgrown.trans hgrown', ?_, ?_⟩
    · rw [List.mapM_cons, Work.run_bind_ok hrun, Work.run_bind_ok hrun', Work.run_pure]
    · intro q hq
      rcases List.mem_cons.mp hq with rfl | hq
      · exact hr'.1
      · exact hrs q hq
    · rw [List.map_cons, hviews, bareArgument, hr'.2]
      exact congrArg (· :: rest) hview

/-- The cell of a placed call shows the call. -/
theorem run_placeCall (s : Store) {c : Call} (hc : CallOf.IsData c) :
    ∃ r s', (placeCall c).run s = (.ok r, s') ∧ Placed s s' ∧ HasCall Grown s' r ∧
      s'.bareCall r = c := by
  obtain ⟨rs, s₁, hrun, hgrown, hrs, hviews⟩ := run_placeArguments c.arguments s hc
  let cell : CallCell := ⟨c.method, c.identifier, rs⟩
  let s₂ : Store := { s₁ with calls := s₁.calls.add cell }
  have hgrown' : Placed s₁ s₂ := ⟨⟨.refl _, Cells.extends_add _ _, .refl _, List.prefix_refl _⟩, rfl⟩
  have hget : s₂.calls.get s₁.calls.next = cell := Cells.get_add_next _ _
  refine ⟨s₁.calls.next, s₂, ?_, hgrown.trans hgrown', ?_, ?_⟩
  · unfold placeCall
    rw [Work.run_bind_ok hrun, run_make]
    rfl
  · refine ⟨Cells.holds_next _ _, fun a ha => ?_⟩
    rw [hget] at ha
    exact ((hrs a ha).grown hgrown'.toGrown).1
  · have hsame : rs.map s₂.bareArgument = rs.map s₁.bareArgument :=
      List.map_congr_left fun a ha => by
        unfold bareArgument
        rw [((hrs a ha).grown hgrown'.toGrown).2]
    unfold bareCall call CallOf.map
    rw [hget]
    show (⟨c.method, c.identifier, (rs.map s₂.argument).map Argument.bare⟩ : Call) = c
    rw [List.map_map]
    show (⟨c.method, c.identifier, rs.map s₂.bareArgument⟩ : Call) = c
    rw [hsame, hviews]

/-- The cells of placed calls show the calls, behind those that were there. -/
theorem run_placeCalls (todo : List (String × Call)) :
    ∀ (s : Store) (t : OrderedMap String (Ref CallCell)),
      (∀ e ∈ todo, CallOf.IsData e.2) → (∀ e ∈ t.entries, HasCall Grown s e.2) →
      (t.keys ++ todo.map Prod.fst).Nodup →
      ∃ t' s', (placeCalls t todo).run s = (.ok t', s') ∧ Placed s s' ∧
        (∀ e ∈ t'.entries, HasCall Grown s' e.2) ∧
        (t'.map s'.bareCall).entries = (t.map s.bareCall).entries ++ todo := by
  induction todo with
  | nil => exact fun s t _ ht _ => ⟨t, s, rfl, .refl s, ht, by simp⟩
  | cons e rest ih =>
    intro s t hdata ht hkeys
    obtain ⟨i, c⟩ := e
    obtain ⟨r, s₁, hrun, hgrown, hr, hview⟩ := run_placeCall s (hdata (i, c) List.mem_cons_self)
    have hi : i ∉ t.keys := by
      rw [List.map_cons, List.nodup_append] at hkeys
      exact fun hk => hkeys.2.2 i hk i List.mem_cons_self rfl
    have hentries : (t.insert i r).entries = t.entries ++ [(i, r)] :=
      OrderedMap.entries_insert_of_not_mem hi
    obtain ⟨t', s₂, hrun', hgrown', ht', hviews⟩ := ih s₁ (t.insert i r)
      (fun e he => hdata e (List.mem_cons_of_mem _ he))
      (by
        intro e he
        rw [hentries] at he
        rcases List.mem_append.mp he with he | he
        · exact ((ht e he).grown hgrown.toGrown).1
        · rw [List.mem_singleton.mp he]
          exact hr)
      (by
        have hkeys' : (t.insert i r).keys = t.keys ++ [i] := by simp [OrderedMap.keys, hentries]
        rw [hkeys']
        simpa using hkeys)
    refine ⟨t', s₂, ?_, hgrown.trans hgrown', ht', ?_⟩
    · rw [placeCalls, Work.run_bind_ok hrun, hrun']
    · have hsame : (t.map s₁.bareCall).entries = (t.map s.bareCall).entries :=
        List.map_congr_left fun e he => by
          unfold bareCall
          rw [((ht e he).grown hgrown.toGrown).2]
      rw [hviews]
      show (t.insert i r).entries.map _ ++ rest = _
      rw [hentries, List.map_append, List.map_singleton, hview, List.append_assoc]
      show (t.map s₁.bareCall).entries ++ _ = _
      rw [hsame]
      rfl

/-- The cell of a placed constructor shows the constructor. -/
theorem run_placeConstructor (s : Store) {o : Option Call}
    (ho : ∀ c, o = some c → CallOf.IsData c) :
    ∃ r s', (o.mapM placeCall : Action _).run s = (.ok r, s') ∧ Placed s s' ∧
      (∀ c, r = some c → HasCall Grown s' c) ∧ r.map s'.bareCall = o := by
  cases o with
  | none => exact ⟨none, s, rfl, .refl s, nofun, rfl⟩
  | some c =>
    obtain ⟨r, s', hrun, hgrown, hr, hview⟩ := run_placeCall s (ho c rfl)
    refine ⟨some r, s', ?_, hgrown, ?_, congrArg some hview⟩
    · show (some <$> placeCall c : Action _).run s = _
      rw [Work.run_map, hrun]
      rfl
    · intro q hq
      cases hq
      exact hr

/-- The cell of a placed definition shows the definition. -/
theorem run_place (s : Store) {d : Definition} (hd : d.IsData) :
    ∃ r s', (place d).run s = (.ok r, s') ∧ Placed s s' ∧ HasDefinition Grown s' r ∧
      s'.bareDefinition r = d := by
  obtain ⟨o, s₁, hrun, hgrown, ho, hview⟩ := run_placeConstructor s hd.constructor_call
  obtain ⟨t, s₂, hrun', hgrown', ht, hviews⟩ := run_placeCalls d.calls.entries s₁ .empty hd.call
    nofun (by simpa [OrderedMap.keys, OrderedMap.empty] using d.calls.nodup)
  let cell : DefinitionCell := ⟨d.className, d.identifier, d.interfaces, o, t⟩
  let s₃ : Store := { s₂ with definitions := s₂.definitions.add cell }
  have hlast : Placed s₂ s₃ := ⟨⟨.refl _, .refl _, Cells.extends_add _ _, List.prefix_refl _⟩, rfl⟩
  have hget : s₃.definitions.get s₂.definitions.next = cell := Cells.get_add_next _ _
  refine ⟨s₂.definitions.next, s₃, ?_, (hgrown.trans hgrown').trans hlast, ⟨?_, ?_, ?_⟩, ?_⟩
  · unfold place
    rw [Work.run_bind_ok hrun, Work.run_bind_ok hrun', run_make]
    rfl
  · exact Cells.holds_next _ _
  · intro c hc
    rw [hget] at hc
    exact ((ho c hc).grown (hgrown'.trans hlast).toGrown).1
  · intro e he
    rw [hget] at he
    exact ((ht e he).grown hlast.toGrown).1
  · have hconstructor : o.map s₃.bareCall = d.constructor := by
      rw [← hview]
      cases o with
      | none => rfl
      | some c =>
        have hsame := ((ho c rfl).grown (hgrown'.trans hlast).toGrown).2
        exact congrArg (fun x : Call => some (x.map Argument.bare)) hsame
    have hcalls : t.map s₃.bareCall = d.calls := by
      apply OrderedMap.ext
      rw [← show (t.map s₂.bareCall).entries = d.calls.entries from hviews]
      exact List.map_congr_left fun e he => by
        unfold bareCall
        rw [((ht e he).grown hlast.toGrown).2]
    have hview : s₃.bareDefinition s₂.definitions.next
        = ⟨d.className, d.identifier, d.interfaces, o.map s₃.bareCall, t.map s₃.bareCall⟩ := by
      unfold bareDefinition definition
      rw [hget]
      unfold DefinitionOf.mapArguments DefinitionOf.map OrderedMap.map
      simp only [Option.map_map, List.map_map]
      rfl
    rw [hview, hconstructor, hcalls]

/-- The cells of placed entries show the entries, added in turn to what was there. -/
theorem run_placeEntries (todo : List (DefinitionKey × Entry)) :
    ∀ (s : Store) (c : ContainerCell) (known : List (Nat × Ref DefinitionCell)),
      (∀ e ∈ todo, e.2.definition.IsData) →
      (∀ e ∈ todo, ∀ e' ∈ todo, e.2.ident = e'.2.ident → e.2.definition = e'.2.definition) →
      (∀ k ∈ known, HasDefinition Grown s k.2 ∧
        ∀ e ∈ todo, e.2.ident = k.1 → s.bareDefinition k.2 = e.2.definition) →
      (∀ e ∈ c.entries, HasDefinition Grown s e.2) →
      ∃ c' s', (placeEntries c known todo).run s = (.ok c', s') ∧ Placed s s' ∧
        (∀ e ∈ c'.entries, HasDefinition Grown s' e.2) ∧
        c'.map s'.bareDefinition
          = (todo.map fun e => (e.1, e.2.definition)).foldl Container.addEntry
            (c.map s.bareDefinition) := by
  induction todo with
  | nil => exact fun s c _ _ _ _ hc => ⟨c, s, rfl, .refl s, hc, rfl⟩
  | cons e rest ih =>
    intro s c known hdata hsame hknown hc
    obtain ⟨q, x⟩ := e
    have hdata' : ∀ e ∈ rest, e.2.definition.IsData :=
      fun e he => hdata e (List.mem_cons_of_mem _ he)
    have hsame' : ∀ e ∈ rest, ∀ e' ∈ rest,
        e.2.ident = e'.2.ident → e.2.definition = e'.2.definition :=
      fun e he e' he' =>
        hsame e (List.mem_cons_of_mem _ he) e' (List.mem_cons_of_mem _ he')
    rw [placeEntries]
    cases hl : known.lookup x.ident with
    | some d =>
      -- The definition was placed before, and its cell is used once more.
      have hmem : (x.ident, d) ∈ known := by
        obtain ⟨before, after, rfl, -⟩ := List.lookup_eq_some_iff.mp hl
        exact List.mem_append_right _ List.mem_cons_self
      obtain ⟨hd, hview⟩ := hknown _ hmem
      obtain ⟨c', s', hrun, hgrown, hc', hviews⟩ := ih s (c.addOne q.interface q.identifier d) known
        hdata' hsame'
        (fun k hk => ⟨(hknown k hk).1,
          fun e he => (hknown k hk).2 e (List.mem_cons_of_mem _ he)⟩)
        (by
          intro e he
          rcases Container.mem_entries_addOne he with rfl | he
          · exact hd
          · exact hc e he)
      refine ⟨c', s', hrun, hgrown, hc', ?_⟩
      rw [hviews, Container.map_addOne, hview (q, x) List.mem_cons_self rfl]
      rfl
    | none =>
      obtain ⟨d, s₁, hrun, hgrown, hd, hview⟩ := run_place s (hdata (q, x) List.mem_cons_self)
      obtain ⟨c', s', hrun', hgrown', hc', hviews⟩ := ih s₁
        (c.addOne q.interface q.identifier d) ((x.ident, d) :: known) hdata' hsame'
        (by
          intro k hk
          rcases List.mem_cons.mp hk with rfl | hk
          · exact ⟨hd, fun e he hi => hview.trans
              (hsame (q, x) List.mem_cons_self e (List.mem_cons_of_mem _ he) hi.symm)⟩
          · obtain ⟨hk', hshown⟩ := hknown k hk
            have hlater := hk'.grown hgrown.toGrown
            refine ⟨hlater.1, fun e he hi => ?_⟩
            unfold bareDefinition
            rw [hlater.2]
            exact hshown e (List.mem_cons_of_mem _ he) hi)
        (by
          intro e he
          rcases Container.mem_entries_addOne he with rfl | he
          · exact hd
          · exact ((hc e he).grown hgrown.toGrown).1)
      refine ⟨c', s', ?_, hgrown.trans hgrown', hc', ?_⟩
      · rw [Work.run_bind_ok hrun, hrun']
      · have hkept : c.map s₁.bareDefinition = c.map s.bareDefinition :=
          Container.map_congr fun e he => by
            unfold bareDefinition
            rw [((hc e he).grown hgrown.toGrown).2]
        rw [hviews, Container.map_addOne, hview, hkept]
        rfl

end Store

/-! ### Catalogues -/

/-- Entries that share their number share their definition, and no number is still to be given. -/
structure Catalogue.Numbered (c : Catalogue) : Prop where
  filled : c.container.Filled
  lt : ∀ e ∈ c.container.entries, e.2.ident < c.next
  same : ∀ e ∈ c.container.entries, ∀ e' ∈ c.container.entries,
    e.2.ident = e'.2.ident → e.2.definition = e'.2.definition

theorem Catalogue.numbered_empty : Catalogue.empty.Numbered :=
  ⟨Container.filled_empty, nofun, nofun⟩

/-- An addition gives a number that is new. -/
theorem Catalogue.numbered_add {c : Catalogue} (h : c.Numbered) (names : List String)
    (d : Definition) : (c.add names d).Numbered := by
  have hcases : ∀ e ∈ (c.add names d).container.entries,
      e.2 = ⟨c.next, d⟩ ∨ e ∈ c.container.entries := by
    intro e he
    obtain ⟨q, x⟩ := e
    rw [Container.mem_entries_iff] at he
    show x = _ ∨ _
    rw [add, Container.find?_add] at he
    split at he
    · cases he
      exact Or.inl rfl
    · exact Or.inr (Container.mem_entries_iff.mpr he)
  refine ⟨Container.filled_add h.filled _ _ _, ?_, ?_⟩
  · intro e he
    rcases hcases e he with he | he
    · rw [he]
      exact Nat.lt_succ_self _
    · exact Nat.lt_succ_of_lt (h.lt e he)
  · intro e he e' he' hi
    rcases hcases e he with he | he
    · rcases hcases e' he' with he' | he'
      · rw [he, he']
      · exact absurd (h.lt e' he') (by rw [← hi, he]; exact Nat.lt_irrefl _)
    · rcases hcases e' he' with he' | he'
      · exact absurd (h.lt e he) (by rw [hi, he']; exact Nat.lt_irrefl _)
      · exact h.same e he e' he' hi

/-- Every definition of the container stands under its own identifier. -/
def Container.OwnKeys (c : Container Definition) : Prop :=
  ∀ e ∈ c.entries, e.2.identifier = e.1.identifier

/-- An addition is one under the own identifier. -/
theorem Catalogue.ownKeys_add {c : Catalogue} (h : c.definitions.OwnKeys) (names : List String)
    (d : Definition) : (c.add names d).definitions.OwnKeys := by
  rintro ⟨q, x⟩ he
  rw [Container.mem_entries_iff, definitions, add, Container.map_add, Container.find?_add] at he
  split at he
  · rename_i hq
    cases he
    exact hq.2.symm
  · exact h (q, x) (Container.mem_entries_iff.mpr he)

/-- A container cell shows a container of definitions, and goes on to do so. -/
structure Store.Shows (G : Store → Store → Prop) (s : Store) (r : Ref ContainerCell)
    (c : Container Definition) : Prop where
  held : s.containers.Holds r
  entry : ∀ e ∈ (s.containers.get r).entries, HasDefinition G s e.2
  view : s.container r = c

/-- A container of flat definitions is shown whatever lasting change follows. -/
theorem Store.Shows.of_isFlat {G G' : Store → Store → Prop} [Lasting G'] {s : Store}
    {r : Ref ContainerCell} {c : Container Definition} (h : Shows G s r c)
    (hflat : ∀ e ∈ c.entries, e.2.IsFlat) : Shows G' s r c where
  held := h.held
  entry e he := (h.entry e he).of_isFlat <| hflat (e.1, s.definition e.2) <| by
    rw [← h.view, container, Container.entries_map]
    exact List.mem_map_of_mem he
  view := h.view

/-- The cell of an installed catalogue shows its definitions. -/
theorem Store.run_install (s : Store) {c : Catalogue} (hc : c.Numbered)
    (hdata : ∀ e ∈ c.container.entries, e.2.definition.IsData) :
    ∃ r s', (install c).run s = (.ok r, s') ∧ s'.files = s.files ∧
      Shows Grown s' r (s'.container r) ∧ (s'.container r).bare = c.definitions := by
  obtain ⟨cell, s₁, hrun, hplaced, hcell, hviews⟩ := run_placeEntries c.container.entries s .empty []
    hdata hc.same nofun nofun
  let s₂ : Store := { s₁ with containers := s₁.containers.add cell }
  have hget : s₂.containers.get s₁.containers.next = cell := Cells.get_add_next _ _
  have hgrown : Grown s₁ s₂ := ⟨.refl _, .refl _, .refl _, List.prefix_refl _⟩
  refine ⟨s₁.containers.next, s₂, ?_, hplaced.files, ⟨Cells.holds_next _ _, ?_, rfl⟩, ?_⟩
  · unfold install
    rw [Work.run_bind_ok hrun, run_make]
    rfl
  · intro e he
    rw [hget] at he
    exact ((hcell e he).grown hgrown).1
  · have hsame : cell.map s₂.bareDefinition = cell.map s₁.bareDefinition :=
      Container.map_congr fun e he => by
        unfold bareDefinition
        rw [((hcell e he).grown hgrown).2]
    have hview : (s₂.container s₁.containers.next).bare = cell.map s₂.bareDefinition := by
      unfold container Container.bare
      rw [hget, Container.map_map]
      rfl
    rw [hview, hsame, hviews]
    have hfilled : c.definitions.Filled := Container.filled_map _ hc.filled
    rw [← Container.foldl_addEntry_entries hfilled, Catalogue.definitions, Container.entries_map]
    rfl

/-- The cell of an installed catalogue of flat definitions shows just these. -/
theorem Store.run_install_flat (s : Store) {c : Catalogue} (hc : c.Numbered)
    (hflat : ∀ e ∈ c.definitions.entries, e.2.IsFlat) :
    ∃ r s', (install c).run s = (.ok r, s') ∧ s'.files = s.files ∧
      Shows Grown s' r c.definitions := by
  have hdata : ∀ e ∈ c.container.entries, e.2.definition.IsData := by
    intro e he
    refine (hflat (e.1, e.2.definition) ?_).data
    rw [Catalogue.definitions, Container.entries_map]
    exact List.mem_map_of_mem he
  obtain ⟨r, s', hrun, hfiles, hshows, hbare⟩ := run_install s hc hdata
  have hsame : s'.container r = c.definitions := by
    rw [← hbare]
    exact (Container.bare_of_isFlat (hbare ▸ hflat)).symm
  exact ⟨r, s', hrun, hfiles, hsame ▸ hshows⟩

end Wiring
