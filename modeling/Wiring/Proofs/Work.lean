import Mathlib
import Wiring.Store

/-!
# `Wiring.Proofs.Work`: running pieces of work

A piece of work turns a store into an outcome and a store. The equations below say what running does
to each way of putting work together, and to the few operations on cells. With them a proof about an
action reads off what the action does to the store, step by step.
-/

set_option autoImplicit false

namespace Wiring

/-- Renaming faults leaves the outcomes without a fault. -/
theorem Except.mapError_eq_ok {ε ε' α : Type} {f : ε → ε'} {x : Except ε α} {a : α} :
    x.mapError f = .ok a ↔ x = .ok a := by
  cases x <;> simp [Except.mapError]

/-- An outcome without a fault is an answer. -/
theorem Except.isOk_iff {ε α : Type} {x : Except ε α} :
    x.isOk = true ↔ ∃ a, x = .ok a := by
  cases x <;> simp [Except.isOk, Except.toBool]

/-- An outcome without a fault passed through one of its first part. -/
theorem Except.bind_eq_ok {ε α β : Type} {x : Except ε α} {f : α → Except ε β} {b : β} :
    x >>= f = .ok b ↔ ∃ a, x = .ok a ∧ f a = .ok b := by
  cases x <;> simp [bind, Except.bind]

/-- An outcome that was changed has no fault where it had none before. -/
theorem Except.map_eq_ok {ε α β : Type} {x : Except ε α} {f : α → β} {b : β} :
    x.map f = .ok b ↔ ∃ a, x = .ok a ∧ f a = b := by
  cases x <;> simp [Except.map]

/-- A list that is checked part by part succeeds with one answer for each part, in order. -/
theorem Except.mapM_eq_ok_iff {ε α β : Type} {f : α → Except ε β} (l : List α) :
    ∀ {rs : List β}, l.mapM f = .ok rs ↔ List.Forall₂ (fun a r => f a = .ok r) l rs := by
  induction l with
  | nil =>
    intro rs
    simp [List.mapM_nil, pure, Except.pure, eq_comm]
  | cons a rest ih =>
    intro rs
    rw [List.mapM_cons, List.forall₂_cons_left_iff, Except.bind_eq_ok]
    constructor
    · rintro ⟨b, hb, h⟩
      obtain ⟨bs, hbs, h⟩ := Except.bind_eq_ok.mp h
      cases h
      exact ⟨b, bs, hb, ih.mp hbs, rfl⟩
    · rintro ⟨b, bs, hb, hbs, rfl⟩
      exact ⟨b, hb, Except.bind_eq_ok.mpr ⟨bs, ih.mpr hbs, rfl⟩⟩

/-- Every answer of a checked list is the answer of one of its parts. -/
theorem Except.exists_of_mem_mapM {ε α β : Type} {f : α → Except ε β} {l : List α} {rs : List β}
    (h : l.mapM f = .ok rs) : ∀ r ∈ rs, ∃ a ∈ l, f a = .ok r := by
  intro r hr
  have hall := (Except.mapM_eq_ok_iff l).mp h
  clear h
  induction hall with
  | nil => cases hr
  | cons hb _ ih =>
    rcases List.mem_cons.mp hr with rfl | hr
    · exact ⟨_, List.mem_cons_self, hb⟩
    · obtain ⟨a, ha, hr⟩ := ih hr
      exact ⟨a, List.mem_cons_of_mem _ ha, hr⟩

/-- A checked list fails at the first of its parts that fails. -/
theorem Except.exists_of_mapM_eq_error {ε α β : Type} {f : α → Except ε β} (l : List α) {e : ε}
    (h : l.mapM f = .error e) :
    ∃ before a after, l = before ++ a :: after ∧ (∀ b ∈ before, ∃ r, f b = .ok r) ∧
      f a = .error e := by
  induction l with
  | nil => cases h
  | cons a rest ih =>
    rw [List.mapM_cons] at h
    cases ha : f a with
    | error e' =>
      rw [ha] at h
      cases h
      exact ⟨[], a, rest, rfl, nofun, ha⟩
    | ok b =>
      rw [ha] at h
      cases hrest : rest.mapM f with
      | ok bs =>
        rw [hrest] at h
        cases h
      | error e' =>
        rw [hrest] at h
        cases h
        obtain ⟨before, a', after, rfl, hbefore, ha'⟩ := ih hrest
        refine ⟨a :: before, a', after, rfl, fun c hc => ?_, ha'⟩
        rcases List.mem_cons.mp hc with rfl | hc
        · exact ⟨b, ha⟩
        · exact hbefore c hc

namespace Work

variable {ε ε' α β : Type}

@[simp] theorem run_pure (a : α) (s : Store) :
    (pure a : Work ε α).run s = (.ok a, s) := rfl

@[simp] theorem run_throw (e : ε) (s : Store) :
    (throw e : Work ε α).run s = (.error e, s) := rfl

/-- The first piece runs, and the second one goes on where it gave an answer. -/
theorem run_bind (w : Work ε α) (f : α → Work ε β) (s : Store) :
    (w >>= f).run s
      = match w.run s with
        | (.ok a, s') => (f a).run s'
        | (.error e, s') => (.error e, s') := by
  show StateT.bind w (ExceptT.bindCont f) s = _
  unfold StateT.bind
  show ExceptT.bindCont f (w s).1 (w s).2 = _
  unfold ExceptT.run
  cases w s with
  | mk result s' => cases result <;> rfl

/-- Going on after an answer. -/
theorem run_bind_ok {w : Work ε α} {f : α → Work ε β} {s s' : Store} {a : α}
    (h : w.run s = (.ok a, s')) : (w >>= f).run s = (f a).run s' := by
  rw [run_bind, h]

/-- A failure ends the work. -/
theorem run_bind_error {w : Work ε α} {f : α → Work ε β} {s s' : Store} {e : ε}
    (h : w.run s = (.error e, s')) : (w >>= f).run s = (.error e, s') := by
  rw [run_bind, h]

/-- Work that gives an answer passed through an answer of its first piece. -/
theorem bind_eq_ok {w : Work ε α} {f : α → Work ε β} {s s' : Store} {b : β}
    (h : (w >>= f).run s = (.ok b, s')) :
    ∃ a t, w.run s = (.ok a, t) ∧ (f a).run t = (.ok b, s') := by
  rw [run_bind] at h
  cases hw : w.run s with
  | mk result t =>
    rw [hw] at h
    cases result with
    | ok a => exact ⟨a, t, rfl, h⟩
    | error e => cases h

@[simp] theorem run_map (f : α → β) (w : Work ε α) (s : Store) :
    (f <$> w).run s = ((w.run s).1.map f, (w.run s).2) := by
  rw [map_eq_pure_bind, run_bind]
  cases w.run s with
  | mk result s' => cases result <;> rfl

@[simp] theorem run_get (s : Store) : (get : Work ε Store).run s = (.ok s, s) := rfl

@[simp] theorem run_set (s t : Store) : (set t : Work ε PUnit).run s = (.ok ⟨⟩, t) := rfl

@[simp] theorem run_modify (f : Store → Store) (s : Store) :
    (modify f : Work ε PUnit).run s = (.ok ⟨⟩, f s) := rfl

@[simp] theorem run_modifyGet (f : Store → α × Store) (s : Store) :
    (modifyGet f : Work ε α).run s = (.ok (f s).1, (f s).2) := rfl

@[simp] theorem run_lift (x : Except ε α) (s : Store) : (lift x).run s = (x, s) := rfl

@[simp] theorem run_mapFault (f : ε → ε') (w : Work ε α) (s : Store) :
    (mapFault f w).run s = ((w.run s).1.mapError f, (w.run s).2) := rfl

@[simp] theorem run_outcome (w : Work ε α) (s : Store) :
    (outcome w : Work ε' (Except ε α)).run s = (.ok (w.run s).1, (w.run s).2) := rfl

@[simp] theorem run_foreign (k : ForeignKind) (s : Store) :
    (foreign k : Work Fault α).run s = (.error (.foreign k), s) := rfl

end Work

namespace Store

variable {ε α : Type}

@[simp] theorem run_read [Stored α] (r : Ref α) (s : Store) :
    (read r : Work ε α).run s = (.ok ((Stored.cells s).get r), s) := rfl

@[simp] theorem run_make [Stored α] (a : α) (s : Store) :
    (make a : Work ε (Ref α)).run s
      = (.ok (Stored.cells s).next, Stored.setCells s ((Stored.cells s).add a)) := rfl

@[simp] theorem run_change [Stored α] (r : Ref α) (f : α → α) (s : Store) :
    (change r f : Work ε Unit).run s
      = (.ok (), Stored.setCells s ((Stored.cells s).modify r f)) := rfl

@[simp] theorem run_report (events : List LogEvent) (s : Store) :
    (report events : Work ε Unit).run s = (.ok (), { s with log := s.log ++ events }) := rfl

@[simp] theorem run_note (e : JournalEntry) (s : Store) :
    (note e : Work ε Unit).run s = (.ok (), { s with journal := e :: s.journal }) := rfl

/-- What is called runs between two entries of the journal. -/
theorem run_running {c : Callable} {w : Action α} {s t : Store} {x : Except Fault α}
    (h : w.run { s with journal := .ran c :: s.journal } = (x, t)) :
    (running c w).run s = (x, { t with journal := .left c (!x.isOk) :: t.journal }) := by
  unfold running
  rw [Work.run_bind_ok (run_note _ s), Work.run_bind_ok (Work.run_outcome w _), h,
    Work.run_bind_ok (run_note _ _), Work.run_lift]

end Store

end Wiring
