import Wiring.Proofs.Declaring
import Wiring.Proofs.Overriding

/-!
# `Wiring.Proofs.CallTables`: the calls that a definition keeps

A definition keeps its calls in a table by their identifiers, and apart from them the call of its
constructor. A call is a cell, which may be added to several definitions, and which gets the next
free identifier when it has none. `DefinitionOf.Gains` lists what one addition can do to the table.

`callTable_of_additions` follows a new definition through any additions, to it and to others. Each
call stands under its own identifier, none of them is a constructor call, and the constructor is the
last one that was added. A call without an identifier of its own never replaces another one: it is
listed last, under the first number from the count of the calls on that is free. There always is
such a number (`exists_firstFree`), as there are fewer calls than numbers to try.
-/

set_option autoImplicit false

namespace Wiring

namespace DefinitionOf

/-! ### The first free number -/

/-- The number is the first one, from the count of the calls on, that no call is known by. -/
structure FirstFree {γ : Type} (d : DefinitionOf γ) (n : Nat) : Prop where
  count_le : d.calls.size ≤ n
  le_twice : n ≤ 2 * d.calls.size
  free : numbered n ∉ d.calls.keys
  taken : ∀ m, d.calls.size ≤ m → m < n → numbered m ∈ d.calls.keys

/-- The search for a free identifier ends at the first free number, whatever the calls are known
by. -/
theorem exists_firstFree {γ : Type} (d : DefinitionOf γ) :
    ∃ n, d.freeIdentifier = numbered n ∧ d.FirstFree n := by
  have hfree := d.freeIdentifier_not_mem
  have hcontains : ∀ k, d.calls.contains k = decide (k ∈ d.calls.keys) := fun _ => rfl
  unfold freeIdentifier at hfree ⊢
  dsimp only at hfree ⊢
  rw [List.find?_map] at hfree ⊢
  cases hfound : (List.range (d.calls.size + 1)).find?
      ((fun k => !d.calls.contains k) ∘ fun i => numbered (d.calls.size + i)) with
  | none =>
    -- Then the first number is taken, and no identifier would be free.
    have htaken := List.find?_eq_none.mp hfound 0 (by simp)
    rw [hfound] at hfree
    simp [hcontains] at hfree htaken
    exact absurd htaken hfree
  | some i =>
    obtain ⟨hi, hrange, hbefore⟩ := List.find?_range_eq_some.mp hfound
    have hlt : i < d.calls.size + 1 := List.mem_range.mp hrange
    refine ⟨d.calls.size + i, rfl, Nat.le_add_right _ _, by omega, ?_, fun m hcount hm => ?_⟩
    · simpa [hcontains] using hi
    · have htaken := hbefore (m - d.calls.size) (by omega)
      simpa [hcontains, Nat.add_sub_cancel' hcount] using htaken

/-! ### One addition -/

/-- What adding a call does to the table of a definition, by what the call is at that moment. -/
inductive Gains (c : Ref CallCell) (x : CallCell) (d d' : DefinitionCell) : Prop
  /-- A constructor call is kept apart. -/
  | constructor (hx : x.isConstructor = true) (hconstructor : d'.constructor = some c)
      (hcalls : d'.calls = d.calls)
  /-- A call without identifier is listed last, under the first free number. -/
  | numbered (hx : x.isConstructor = false) (hid : x.identifier = none) {n : Nat}
      (hn : d.FirstFree n) (hconstructor : d'.constructor = d.constructor)
      (hcalls : d'.calls.entries = d.calls.entries ++ [(DefinitionOf.numbered n, c)])
  /-- A call with a known identifier takes the place of the one that is known by it. -/
  | replaces (hx : x.isConstructor = false) {i : String} (hid : x.identifier = some i)
      {before after : List (String × Ref CallCell)} {y : Ref CallCell}
      (hconstructor : d'.constructor = d.constructor)
      (hknown : d.calls.entries = before ++ (i, y) :: after)
      (hcalls : d'.calls.entries = before ++ (i, c) :: after)
  /-- A call with another identifier is listed last. -/
  | appended (hx : x.isConstructor = false) {i : String} (hid : x.identifier = some i)
      (hnew : i ∉ d.calls.keys) (hconstructor : d'.constructor = d.constructor)
      (hcalls : d'.calls.entries = d.calls.entries ++ [(i, c)])

/-- Keeping a call at the place for it is such a change. -/
theorem gains_keep (d : DefinitionCell) (c : Ref CallCell) (x : CallCell) :
    d.Gains c x (d.keep (d.placeFor x) c) := by
  cases hplace : d.placeFor x with
  | constructor => exact .constructor (isConstructor_of_placeFor hplace) rfl rfl
  | keyed i =>
    obtain ⟨hx, rfl⟩ := eq_of_placeFor hplace
    cases hid : x.identifier with
    | none =>
      obtain ⟨n, hn, hfirst⟩ := d.exists_firstFree
      rw [Option.getD_none, hn]
      exact .numbered hx hid hfirst rfl (OrderedMap.entries_insert_of_not_mem hfirst.free)
    | some i =>
      rw [Option.getD_some]
      by_cases hknown : i ∈ d.calls.keys
      · obtain ⟨⟨j, y⟩, hmem, hj⟩ := List.mem_map.mp hknown
        obtain rfl : j = i := hj
        obtain ⟨before, after, hsplit⟩ := List.append_of_mem hmem
        have hbefore : j ∉ before.map Prod.fst := by
          have hnodup := d.calls.nodup
          rw [hsplit, List.map_append, List.map_cons, List.nodup_append] at hnodup
          exact fun hi => hnodup.2.2 _ hi _ List.mem_cons_self rfl
        refine .replaces hx hid rfl hsplit ?_
        show OrderedMap.put j c d.calls.entries = _
        rw [hsplit, OrderedMap.put_append_of_not_mem hbefore, OrderedMap.put, if_pos rfl]
      · exact .appended hx hid hknown rfl (OrderedMap.entries_insert_of_not_mem hknown)

end DefinitionOf

/-! ### Additions in turn -/

/-- An addition of a call to a definition. -/
structure CallAddition where
  definition : Ref DefinitionCell
  call : Ref CallCell

namespace Store

/-- Adds calls to definitions in turn. -/
def addEach : List CallAddition → Action Unit
  | [] => pure ()
  | a :: rest => do
    addCall a.definition a.call
    addEach rest

/-- The last constructor call among those that are added to a definition. -/
def lastConstructor (s : Store) (r : Ref DefinitionCell) (as : List CallAddition) :
    Option (Ref CallCell) :=
  (as.reverse.find? fun a => a.definition = r && (s.calls.get a.call).isConstructor).map
    CallAddition.call

/-- The table of a definition is in order: each call stands under its own identifier, and none of
them is a constructor call. The constructor is kept apart. -/
structure CallTable (s : Store) (r : Ref DefinitionCell) (constructor : Option (Ref CallCell)) :
    Prop where
  nodup : (s.definitions.get r).calls.keys.Nodup
  own : ∀ e ∈ (s.definitions.get r).calls.entries, (s.calls.get e.2).identifier = some e.1
  ordinary : ∀ e ∈ (s.definitions.get r).calls.entries, (s.calls.get e.2).isConstructor = false
  constructor : (s.definitions.get r).constructor = constructor

variable {s t : Store} {r : Ref DefinitionCell} {a : CallAddition}

/-- The place that a call gets. -/
def placeAmong (s : Store) (a : CallAddition) : CallPlace :=
  (s.definitions.get a.definition).placeFor (s.calls.get a.call)

/-- The calls once the added one has the identifier of its place. -/
def labelled (s : Store) (a : CallAddition) : Cells CallCell :=
  match s.placeAmong a with
  | .constructor => s.calls
  | .keyed i => s.calls.modify a.call fun x => { x with identifier := some i }

/-- The store once the call is added. -/
def gaining (s : Store) (a : CallAddition) : Store where
  __ := s
  calls := s.labelled a
  definitions := s.definitions.modify a.definition fun d => d.keep (s.placeAmong a) a.call

/-- Adding a call never fails. -/
theorem run_addition (s : Store) (a : CallAddition) :
    (addCall a.definition a.call).run s = (.ok (), s.gaining a) := by
  unfold addCall gaining labelled placeAmong
  rw [Work.run_bind_ok (run_read a.definition s), Work.run_bind_ok (run_read a.call s)]
  simp only [Stored.cells]
  cases (s.definitions.get a.definition).placeFor (s.calls.get a.call) <;> rfl

/-- Adding calls never fails. -/
theorem run_addEach (as : List CallAddition) (s : Store) :
    (addEach as).run s = (.ok (), as.foldl gaining s) := by
  induction as generalizing s with
  | nil => rfl
  | cons a rest ih =>
    rw [addEach, Work.run_bind_ok (run_addition s a), List.foldl_cons]
    exact ih _

/-! ### What an addition keeps -/

/-- Calls stay there, what they are, and known by the identifiers that they have. -/
def CallsStay (c c' : Cells CallCell) : Prop :=
  ∀ q, c.Holds q → c'.Holds q ∧ (c'.get q).method = (c.get q).method ∧
    ∀ i, (c.get q).identifier = some i → (c'.get q).identifier = some i

/-- A call that stays is a constructor call or not as before. -/
theorem CallsStay.isConstructor {c c' : Cells CallCell} (h : CallsStay c c') {q : Ref CallCell}
    (hq : c.Holds q) : (c'.get q).isConstructor = (c.get q).isConstructor := by
  rw [CallOf.isConstructor, (h q hq).2.1, CallOf.isConstructor]

/-- Calls stay when one of them is added, since it gets an identifier only if it has none. -/
theorem callsStay_labelled (s : Store) (a : CallAddition) : CallsStay s.calls (s.labelled a) := by
  intro q hq
  unfold labelled
  cases hplace : s.placeAmong a with
  | constructor => exact ⟨hq, rfl, fun _ hi => hi⟩
  | keyed i =>
    obtain ⟨-, hi⟩ := DefinitionOf.eq_of_placeFor hplace
    refine ⟨Cells.holds_modify.mpr hq, ?_, fun k hk => ?_⟩
    · rw [Cells.get_modify hq]
      split <;> rfl
    · rw [Cells.get_modify hq]
      split
      · rename_i hself
        rw [hself] at hk
        rw [hi, hk, Option.getD_some]
      · exact hk

/-- The added call fits its place. -/
theorem labelled_fits (ha : s.calls.Holds a.call) :
    match s.placeAmong a with
    | .constructor => ((s.labelled a).get a.call).isConstructor = true
    | .keyed i => ((s.labelled a).get a.call).isConstructor = false ∧
      ((s.labelled a).get a.call).identifier = some i := by
  have hsame := (callsStay_labelled s a).isConstructor ha
  cases hplace : s.placeAmong a with
  | constructor => exact hsame.trans (DefinitionOf.isConstructor_of_placeFor hplace)
  | keyed i =>
    refine ⟨hsame.trans (DefinitionOf.eq_of_placeFor hplace).1, ?_⟩
    rw [labelled, hplace, Cells.get_modify_self ha]

/-- A definition that could have been declared stays so. -/
theorem sound_gaining (ha : s.calls.Holds a.call) (hr : s.definitions.Holds r)
    (hsound : DefinitionOf.Sound s.calls (s.definitions.get r)) :
    DefinitionOf.Sound (s.gaining a).calls ((s.gaining a).definitions.get r) := by
  have hsound' := sound_definition_mono (callsStay_labelled s a) hsound
  show DefinitionOf.Sound (s.labelled a) ((s.definitions.modify a.definition _).get r)
  rw [Cells.get_modify hr]
  split
  · exact DefinitionOf.sound_keep hsound' (callsStay_labelled s a _ ha).1 (labelled_fits ha)
  · exact hsound'

/-- The definition gains the call. -/
theorem gains_gaining (hr : s.definitions.Holds r) (ha : a.definition = r) :
    (s.definitions.get r).Gains a.call (s.calls.get a.call)
      ((s.gaining a).definitions.get r) := by
  subst ha
  show DefinitionOf.Gains _ _ _ ((s.definitions.modify a.definition _).get a.definition)
  rw [Cells.get_modify_self hr]
  exact DefinitionOf.gains_keep _ _ _

/-- The other definitions stay as they are. -/
theorem get_gaining_of_ne (ha : a.definition ≠ r) :
    (s.gaining a).definitions.get r = s.definitions.get r :=
  Cells.get_modify_of_ne (Ne.symm ha) _

/-! ### What additions keep -/

/-- Calls that stay twice stay. -/
theorem CallsStay.trans {c c' c'' : Cells CallCell} (h : CallsStay c c') (h' : CallsStay c' c'') :
    CallsStay c c'' := by
  intro q hq
  obtain ⟨hq', hmethod, hid⟩ := h q hq
  obtain ⟨hq'', hmethod', hid'⟩ := h' q hq'
  exact ⟨hq'', hmethod'.trans hmethod, fun i hi => hid' i (hid i hi)⟩

/-- Additions keep the calls, and the definition in order. -/
theorem sound_foldl_gaining (hr : s.definitions.Holds r)
    (hsound : DefinitionOf.Sound s.calls (s.definitions.get r)) (as : List CallAddition)
    (has : ∀ a ∈ as, s.calls.Holds a.call) :
    CallsStay s.calls (as.foldl gaining s).calls ∧
      (as.foldl gaining s).definitions.Holds r ∧
      DefinitionOf.Sound (as.foldl gaining s).calls ((as.foldl gaining s).definitions.get r) := by
  induction as using List.reverseRecOn with
  | nil => exact ⟨fun _ hq => ⟨hq, rfl, fun _ hi => hi⟩, hr, hsound⟩
  | append_singleton as a ih =>
    obtain ⟨hstay, hheld, hsound⟩ := ih fun b hb => has b (List.mem_append_left _ hb)
    have ha := (hstay _ (has a (List.mem_append_right _ List.mem_cons_self))).1
    rw [List.foldl_concat]
    exact ⟨hstay.trans (callsStay_labelled _ a), Cells.holds_modify.mpr hheld,
      sound_gaining ha hheld hsound⟩

/-- An addition leaves the constructor, unless it is one of a constructor call to the definition. -/
theorem constructor_gaining (hr : s.definitions.Holds r) :
    ((s.gaining a).definitions.get r).constructor =
      if a.definition = r ∧ (s.calls.get a.call).isConstructor then some a.call
      else (s.definitions.get r).constructor := by
  by_cases ha : a.definition = r
  · cases gains_gaining hr ha with
    | constructor hx hconstructor _ => rw [hconstructor, if_pos ⟨ha, hx⟩]
    | numbered hx _ _ hconstructor _ => rw [hconstructor, if_neg (by simp [hx])]
    | replaces hx _ hconstructor _ _ => rw [hconstructor, if_neg (by simp [hx])]
    | appended hx _ _ hconstructor _ => rw [hconstructor, if_neg (by simp [hx])]
  · rw [get_gaining_of_ne ha, if_neg (by simp [ha])]

/-- The constructor is the last one that was added. -/
theorem constructor_foldl_gaining (hr : s.definitions.Holds r)
    (hsound : DefinitionOf.Sound s.calls (s.definitions.get r))
    (hnone : (s.definitions.get r).constructor = none) (as : List CallAddition)
    (has : ∀ a ∈ as, s.calls.Holds a.call) :
    ((as.foldl gaining s).definitions.get r).constructor = s.lastConstructor r as := by
  induction as using List.reverseRecOn with
  | nil => exact hnone
  | append_singleton as a ih =>
    have hbefore : ∀ b ∈ as, s.calls.Holds b.call := fun b hb => has b (List.mem_append_left _ hb)
    obtain ⟨hstay, hheld, -⟩ := sound_foldl_gaining hr hsound as hbefore
    have hsame := hstay.isConstructor (has a (List.mem_append_right _ List.mem_cons_self))
    rw [List.foldl_concat, constructor_gaining hheld, hsame, ih hbefore]
    unfold lastConstructor
    rw [List.reverse_concat, List.find?_cons]
    by_cases hlast : a.definition = r ∧ (s.calls.get a.call).isConstructor = true
    · simp [hlast]
    · have hother : (a.definition = r && (s.calls.get a.call).isConstructor) = false := by
        simpa using hlast
      rw [if_neg hlast, hother]

end Store

/-- Calls that are added to a new definition, and to others in between, are kept in order. No
addition fails, each call stands under its own identifier, none of them is a constructor call, and
the constructor is the last one that was added. Each addition does to the table what `Gains` lists,
and an addition to another definition leaves it. The search for a free identifier ends for every
table. -/
theorem callTable_of_additions {s : Store} {r : Ref DefinitionCell} (hr : s.definitions.Holds r)
    {className identifier interfaces : Value}
    (hnew : DefinitionOf.declare className identifier interfaces = .ok (s.definitions.get r))
    (as : List CallAddition) (has : ∀ a ∈ as, s.calls.Holds a.call) :
    (∃ t, (Store.addEach as).run s = (.ok (), t) ∧ t.CallTable r (s.lastConstructor r as)) ∧
      (∀ before a after, as = before ++ a :: after → ∃ u v,
        (Store.addEach before).run s = (.ok (), u) ∧
        (Store.addCall a.definition a.call).run u = (.ok (), v) ∧
        if a.definition = r then
          (u.definitions.get r).Gains a.call (u.calls.get a.call) (v.definitions.get r)
        else v.definitions.get r = u.definitions.get r) ∧
      ∀ d : DefinitionCell, ∃ n,
        d.freeIdentifier = DefinitionOf.numbered n ∧ d.FirstFree n := by
  have hsound : DefinitionOf.Sound s.calls (s.definitions.get r) :=
    DefinitionOf.sound_of_declare hnew
  have hnone := (DefinitionOf.parts_of_declare hnew).2.2.2.2.1
  refine ⟨⟨_, Store.run_addEach as s, ?_⟩, ?_, fun d => d.exists_firstFree⟩
  · obtain ⟨-, -, htable⟩ := Store.sound_foldl_gaining hr hsound as has
    exact {
      nodup := OrderedMap.nodup _
      own := fun e he => (htable.call e he).2.1
      ordinary := fun e he => (htable.call e he).2.2
      constructor := Store.constructor_foldl_gaining hr hsound hnone as has }
  · rintro before a after rfl
    obtain ⟨-, hheld, -⟩ := Store.sound_foldl_gaining hr hsound before
      fun b hb => has b (List.mem_append_left _ hb)
    refine ⟨_, _, Store.run_addEach before s, Store.run_addition _ a, ?_⟩
    split
    · rename_i ha
      exact Store.gains_gaining hheld ha
    · rename_i ha
      exact Store.get_gaining_of_ne ha

/-- Two new definitions, and calls with and without identifiers. One of the identifiers looks like
a number that is given out. -/
def sharingStore : Store where
  __ := Store.empty default
  definitions :=
    ⟨[⟨"app.Logger", none, ["Log"], none, .empty⟩, ⟨"app.Other", none, [], none, .empty⟩]⟩
  calls := ⟨[⟨"__construct", none, []⟩, ⟨"setName", none, []⟩, ⟨"setMode", some "c1", []⟩,
    ⟨"setLevel", some "c1", []⟩, ⟨"open", none, []⟩, ⟨"__construct", some "last", []⟩]⟩

/-- Calls that are added to the definitions. The second one is added to both, and the identifier
that it gets from the other definition stays with it. -/
def sharingAdditions : List CallAddition :=
  [⟨⟨0⟩, ⟨2⟩⟩, ⟨⟨1⟩, ⟨1⟩⟩, ⟨⟨0⟩, ⟨0⟩⟩, ⟨⟨0⟩, ⟨4⟩⟩, ⟨⟨0⟩, ⟨1⟩⟩, ⟨⟨0⟩, ⟨3⟩⟩, ⟨⟨0⟩, ⟨5⟩⟩]

/-- The table of a definition after calls that share identifiers and definitions. -/
theorem callTable_shared :
    (∃ t, (Store.addEach sharingAdditions).run sharingStore = (.ok (), t) ∧
      t.CallTable ⟨0⟩ (some ⟨5⟩)) ∧
      ((sharingAdditions.foldl Store.gaining sharingStore).definitions.get ⟨0⟩).calls.entries =
        [("c1", ⟨3⟩), ("c2", ⟨4⟩), ("c0", ⟨1⟩)] := by
  have hr : sharingStore.definitions.Holds ⟨0⟩ := Nat.two_pos
  have hnew : DefinitionOf.declare (.text "app.Logger") .null (.list none [.text "Log"]) =
      .ok (sharingStore.definitions.get ⟨0⟩) := rfl
  have hheld : ∀ a ∈ sharingAdditions, sharingStore.calls.Holds a.call := by
    unfold Cells.Holds
    decide
  have htable := (callTable_of_additions hr hnew sharingAdditions hheld).1
  exact ⟨htable, by decide +kernel⟩

end Wiring
