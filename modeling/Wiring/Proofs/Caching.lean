import Wiring.Proofs.Declaring
import Wiring.Proofs.Growth
import Wiring.Proofs.Restoring
import Wiring.Proofs.Writing
import Wiring.Store.Sources

/-!
# `Wiring.Proofs.Caching`: a source behind a snapshot file

A source behind a snapshot file is any source of containers with the file asked first (`cachedBy`;
`produce_cached` says that the engine's sources are of this form). What it does is the protocol of
`history_cached`: over every series of requests, writes and removals, with changes of the files from
outside in between, a request is answered from a snapshot that decodes, and the source behind is
left alone, or the source behind is asked just once.

A request that is answered from the file leaves the files alone, so what was once written is
answered for as long as only requests follow. This is the induction of
`hit_of_wrote`. -/

set_option autoImplicit false

namespace Wiring

open Wiring.Files

/-! ### Reading the file -/

/-- The path can be said: it does not hold the character zero. -/
def Files.Path.Speakable (p : Path) : Prop := p.text.toList.contains '\x00' = false

instance (p : Path) : Decidable p.Speakable := inferInstanceAs (Decidable (_ = _))

namespace Files.Tree

theorem walk_ne_unspeakable (t : Tree) (parts : List String) :
    ∀ here : Location, t.walk here parts ≠ .error .unspeakable := by
  induction parts with
  | nil =>
    intro here h
    cases h
  | cons part rest ih =>
    intro here
    rw [walk]
    split_ifs
    · intro h
      cases h
    · intro h
      cases h
    · split
      · exact ih _
      · intro h
        cases h
      · intro h
        cases h

/-- What can be said is not refused for its name. -/
theorem read_ne_unspeakable {t : Tree} {p : Path} (hp : p.Speakable) :
    t.read p ≠ .error .unspeakable := by
  have hlocate : t.locate p ≠ .error .unspeakable := by
    unfold locate
    rw [if_neg (Bool.eq_false_iff.mp hp)]
    split_ifs
    · exact nofun
    · exact walk_ne_unspeakable _ _ _
    · exact nofun
  unfold read find
  cases hl : t.locate p with
  | error e =>
    rintro h
    cases h
    exact hlocate hl
  | ok l =>
    cases hnode : t.node? l with
    | none => simp [bind, Except.bind, hnode]
    | some node => cases node <;> simp [bind, Except.bind, hnode]

end Files.Tree

namespace Cache

variable {t : Tree} {p : Path} {k : Catalogue}

/-- The file of a path holds a snapshot that decodes. -/
def Holds (t : Tree) (p : Path) (k : Catalogue) : Prop :=
  ∃ content text, t.read p = .ok content ∧ String.fromUTF8? content = some text ∧
    Snapshot.loads text = .ok k

/-- A snapshot that decodes is restored. -/
theorem Holds.read (h : Holds t p k) : read t p = .ok (some k, [.restored k.size p]) := by
  obtain ⟨content, text, hcontent, htext, hk⟩ := h
  unfold Cache.read
  rw [hcontent]
  dsimp only
  rw [htext]
  dsimp only
  rw [hk]

theorem holds_of_read {report : Report} (h : read t p = .ok (some k, report)) : Holds t p k := by
  unfold Cache.read at h
  split at h
  · cases h
  · cases h
  · cases h
  · rename_i content hcontent
    split at h
    · cases h
    · rename_i text htext
      split at h
      · cases h
      · rename_i c hc
        cases h
        exact ⟨content, text, hcontent, htext, hc⟩

/-- Whatever else is at the path, the snapshot counts as missing. -/
theorem read_of_not_holds (hp : p.Speakable) (h : ¬ ∃ k, Holds t p k) :
    ∃ report, read t p = .ok (none, report) := by
  cases hread : read t p with
  | error e =>
    unfold Cache.read at hread
    split at hread
    · cases hread
    · rename_i hunspeakable
      exact absurd hunspeakable (Tree.read_ne_unspeakable hp)
    · cases hread
    · split at hread
      · cases hread
      · split at hread <;> cases hread
  | ok found =>
    obtain ⟨k, report⟩ := found
    cases k with
    | none => exact ⟨report, rfl⟩
    | some k => exact absurd ⟨k, holds_of_read hread⟩ h

/-- A path that cannot be said is a fault. -/
theorem read_unspeakable (hp : ¬ p.Speakable) : read t p = .error (.foreign .value) := by
  have hlocate : t.locate p = .error .unspeakable := by
    unfold Tree.locate
    rw [if_pos (Bool.eq_true_of_not_eq_false hp)]
  have hcontent : t.read p = .error .unspeakable := by
    unfold Tree.read Tree.find
    rw [hlocate]
    rfl
  unfold Cache.read
  rw [hcontent]

/-- Where a file can be put, the path can be said. -/
theorem speakable_of_writable (h : Writable t p) : p.Speakable := by
  have hdone := h ""
  cases hreplaced : replace t p "" with
  | mk t' trouble =>
    rw [hreplaced] at hdone
    cases hdone
    obtain ⟨l, hl, -⟩ := Tree.read_eq_ok_iff.mp (read_of_replace hreplaced)
    unfold Tree.locate at hl
    split at hl
    · cases hl
    · rename_i hsaid
      exact Bool.eq_false_iff.mpr hsaid

/-- After a clear, no snapshot is there. -/
theorem not_holds_of_clear {t' : Tree} {cleared : Bool} {report : Report}
    (h : clear t p = .ok (t', cleared, report)) : p.Speakable ∧ ¬ ∃ k, Holds t' p k := by
  have hspeakable : t.removeFile p ≠ .error .unspeakable → p.Speakable := by
    refine fun hne => Bool.eq_false_iff.mpr fun hsaid => hne ?_
    unfold Tree.removeFile Tree.locate
    rw [if_pos hsaid]
    rfl
  unfold clear at h
  cases hremoved : t.removeFile p with
  | ok removed =>
    rw [hremoved] at h
    cases h
    refine ⟨hspeakable (by rw [hremoved]; exact nofun), ?_⟩
    rintro ⟨k, content, text, hread, -⟩
    obtain ⟨l, hl, hleads, hgone, -⟩ := Tree.removeFile_eq_ok hremoved
    obtain ⟨l', hl', hnode⟩ := Tree.read_eq_ok_iff.mp hread
    obtain rfl := Except.ok.inj ((hleads.locate hl).symm.trans hl')
    cases hgone.symm.trans hnode
  | error e =>
    rw [hremoved] at h
    cases e <;> cases h
    refine ⟨hspeakable (by rw [hremoved]; exact nofun), ?_⟩
    rintro ⟨k, content, text, hread, -⟩
    obtain ⟨l, hl, hnode⟩ := Tree.read_eq_ok_iff.mp hread
    unfold Tree.removeFile at hremoved
    rw [hl] at hremoved
    simp [bind, Except.bind, hnode] at hremoved

/-- A container that a snapshot gives back: it could have been declared, its properties are plain
data, and the reader gives its document back. -/
structure Restorable (c : Container Definition) : Prop where
  wellFormed : c.WellFormed
  json : c.HasJsonProperties
  undone : Json.Undone (Snapshot.encode c)

/-- A write that worked leaves a snapshot of the container. -/
theorem holds_of_write {c : Container Definition} (hc : Restorable c)
    (h : (write t p c).2.1 = true) :
    ∃ k, Holds (write t p c).1 p k ∧ k.definitions = c.bare := by
  obtain ⟨text, k, htext, hk, hdefinitions⟩ :=
    Snapshot.loads_of_dumps? hc.wellFormed hc.json hc.undone
  refine ⟨k, ⟨text.toUTF8, text, ?_, dif_pos text.isValidUTF8, hk⟩, hdefinitions⟩
  unfold write at h ⊢
  rw [htext] at h ⊢
  dsimp only at h ⊢
  split at h
  · rename_i t' hreplaced
    exact read_of_replace hreplaced
  · cases h

end Cache

/-! ### One request -/

namespace Store

variable {s : Store} {w : Action (Ref ContainerCell)} {p : Path} {k : Catalogue}

/-- A source of containers behind a snapshot file. -/
def cachedBy (w : Action (Ref ContainerCell)) (p : Path) : Action (Ref ContainerCell) := do
  match ← readCache p with
  | some c => pure c
  | none =>
    match ← readCache p with
    | some c => pure c
    | none =>
      let c ← w
      let _ ← writeCache p c
      pure c

theorem produce_cached (inner : Source) (p : Path) :
    produce (.cached inner p) = cachedBy (produce inner) p := rfl

/-- A store with more events in its log. -/
def reporting (s : Store) (events : List LogEvent) : Store := { s with log := s.log ++ events }

theorem reporting_nil (s : Store) : s.reporting [] = s := by
  unfold reporting
  rw [List.append_nil]

theorem run_readCache {found : Option Catalogue} {report : Cache.Report}
    (h : Cache.read s.files p = .ok (found, report)) :
    (readCache p).run s = (found.mapM install : Action _).run (s.reporting report) := by
  unfold readCache
  rw [Work.run_bind_ok (Work.run_get s), Work.run_bind_ok (by rw [Work.run_lift, h])]
  exact Work.run_bind_ok (run_report _ s)

/-- A store after an attempt to write the snapshot of a container. -/
def writing (s : Store) (p : Path) (c : Ref ContainerCell) : Store :=
  { s with
    files := (Cache.write s.files p (s.container c)).1
    log := s.log ++ (Cache.write s.files p (s.container c)).2.2 }

theorem matches_writing (s : Store) (p : Path) (c : Ref ContainerCell) :
    s.Matches (s.writing p c) := ⟨rfl, rfl, rfl, rfl, rfl, rfl, rfl⟩

theorem run_writeCache (p : Path) (c : Ref ContainerCell) (s : Store) :
    (writeCache p c).run s
      = (.ok (Cache.write s.files p (s.container c)).2.1, s.writing p c) := rfl

/-- A snapshot that decodes is installed, and nothing else is done. -/
theorem run_cachedBy_hit (h : Cache.Holds s.files p k) :
    ∃ c t, (∀ w, (cachedBy w p).run s = (.ok c, t)) ∧ t.files = s.files ∧
      Shows Grown t c (t.container c) ∧ (t.container c).bare = k.definitions := by
  obtain ⟨content, text, -, -, hk⟩ := id h
  obtain ⟨c, t, hrun, hfiles, hshows, hbare⟩ := run_install
    (s.reporting [.restored k.size p]) (Snapshot.numbered_of_loads hk) (Snapshot.data_of_loads hk)
  have hread : (readCache p).run s = (.ok (some c), t) := by
    rw [run_readCache h.read]
    show (some <$> install k : Action _).run _ = _
    rw [Work.run_map, hrun]
    rfl
  exact ⟨c, t, fun w => Work.run_bind_ok hread, hfiles, hshows, hbare⟩

/-- Without a snapshot that is restored, the source is asked. -/
theorem run_cachedBy_unread {report : Cache.Report}
    (h : Cache.read s.files p = .ok (none, report)) :
    (cachedBy w p).run s
      = (w >>= fun c => writeCache p c >>= fun _ => pure c).run (s.reporting (report ++ report)) := by
  have hfirst : (readCache p).run s = (.ok none, s.reporting report) :=
    (run_readCache h).trans rfl
  have hagain : Cache.read (s.reporting report).files p = .ok (none, report) := h
  have hsecond : (readCache p).run (s.reporting report)
      = (.ok none, (s.reporting report).reporting report) := (run_readCache hagain).trans rfl
  have hboth : (s.reporting report).reporting report = s.reporting (report ++ report) := by
    unfold reporting
    rw [List.append_assoc]
  unfold cachedBy
  rw [Work.run_bind_ok hfirst]
  dsimp only
  rw [Work.run_bind_ok hsecond, hboth]

/-- Without a snapshot that decodes, the source is asked. -/
theorem run_cachedBy_miss (hp : p.Speakable) (h : ¬ ∃ k, Cache.Holds s.files p k) :
    ∃ events, (cachedBy w p).run s
      = (w >>= fun c => writeCache p c >>= fun _ => pure c).run (s.reporting events) :=
  let ⟨_, hread⟩ := Cache.read_of_not_holds hp h
  ⟨_, run_cachedBy_unread hread⟩

/-- A path that cannot be said is a fault of every request. -/
theorem run_cachedBy_unspeakable (hp : ¬ p.Speakable) :
    (cachedBy w p).run s = (.error (.foreign .value), s) := by
  have hread : (readCache p).run s = (.error (.foreign .value), s) := by
    unfold readCache
    rw [Work.run_bind_ok (Work.run_get s)]
    exact Work.run_bind_error (by rw [Work.run_lift, Cache.read_unspeakable hp])
  exact Work.run_bind_error hread

/-- A container that the source gives is written and answered. -/
theorem run_written {c : Ref ContainerCell} {u : Store} (h : w.run s = (.ok c, u)) :
    (w >>= fun c => writeCache p c >>= fun _ => pure c).run s = (.ok c, u.writing p c) :=
  (Work.run_bind_ok h).trans (Work.run_bind_ok (run_writeCache p c u))

end Store

/-! ### The protocol -/

/-- What is done with a source behind a snapshot file, and with the files around it. -/
inductive CacheCall where
  | get
  | write (c : Ref ContainerCell)
  | clear
  /-- Someone else changes the files. -/
  | outside (change : Tree → Tree)

/-- What a call gives. -/
inductive CacheAnswer where
  | container (x : Except Fault (Ref ContainerCell))
  | flag (x : Except Fault Bool)
  | nothing

/-- A call with the stores around it. -/
structure CacheMoment where
  before : Store
  call : CacheCall
  answer : CacheAnswer
  after : Store

namespace CacheCall

/-- Runs a call. -/
def run (w : Action (Ref ContainerCell)) (p : Path) : CacheCall → Store → CacheAnswer × Store
  | .get, s => (.container ((Store.cachedBy w p).run s).1, ((Store.cachedBy w p).run s).2)
  | .write c, s => (.flag ((Store.writeCache p c).run s).1, ((Store.writeCache p c).run s).2)
  | .clear, s => (.flag ((Store.clearCache p).run s).1, ((Store.clearCache p).run s).2)
  | .outside change, s => (.nothing, { s with files := change s.files })

variable {w : Action (Ref ContainerCell)} {p : Path}

theorem run_get (s : Store) : CacheCall.get.run w p s
    = (.container ((Store.cachedBy w p).run s).1, ((Store.cachedBy w p).run s).2) := rfl

theorem run_write (c : Ref ContainerCell) (s : Store) : (CacheCall.write c).run w p s
    = (.flag (.ok (Cache.write s.files p (s.container c)).2.1), s.writing p c) := rfl

/-- Runs calls in turn. -/
def history (w : Action (Ref ContainerCell)) (p : Path) : Store → List CacheCall → List CacheMoment
  | _, [] => []
  | s, c :: rest => ⟨s, c, (c.run w p s).1, (c.run w p s).2⟩ :: history w p (c.run w p s).2 rest

end CacheCall

namespace CacheMoment

variable {w : Action (Ref ContainerCell)} {p : Path} {m : CacheMoment} {k : Catalogue}
  {r : Ref ContainerCell}

/-- The moment is that of running its call. -/
def Ran (w : Action (Ref ContainerCell)) (p : Path) (m : CacheMoment) : Prop :=
  m.call.run w p m.before = (m.answer, m.after)

/-- A request for which the source behind was asked once, with its outcome and the store that it
left behind. What it fails with is the answer, and nothing more is done. A container that it gives
is the answer too, and only an attempt to write the container follows. -/
structure Miss (w : Action (Ref ContainerCell)) (p : Path) (m : CacheMoment)
    (x : Except Fault (Ref ContainerCell)) (u : Store) : Prop where
  asked : ∃ events, w.run (m.before.reporting events) = (x, u)
  answer : m.answer = .container x
  failed : ∀ e, x = .error e → m.after = u
  built : ∀ c, x = .ok c → m.after.files = (Cache.write u.files p (u.container c)).1 ∧
    m.after.container c = u.container c

/-- A moment that left a container in the snapshot: a write that worked, or a request that was not
answered from the snapshot and whose write worked. -/
inductive Wrote (w : Action (Ref ContainerCell)) (p : Path) (m : CacheMoment)
    (r : Ref ContainerCell) : Prop
  | written (call : m.call = .write r) (answer : m.answer = .flag (.ok true))
  | built (u : Store) (call : m.call = .get) (miss : m.Miss w p (.ok r) u)
      (worked : (Cache.write u.files p (u.container r)).2.1 = true)

theorem Ran.miss (h : m.Ran w p) (hcall : m.call = .get) (hp : p.Speakable)
    (hk : ¬ ∃ k, Cache.Holds m.before.files p k) : ∃ x u, m.Miss w p x u := by
  obtain ⟨events, hrun⟩ := Store.run_cachedBy_miss (w := w) hp hk
  unfold Ran at h
  rw [hcall, CacheCall.run_get, hrun] at h
  obtain ⟨hanswer, hafter⟩ := Prod.mk.inj h
  cases hasked : w.run (m.before.reporting events) with
  | mk x u =>
    cases x with
    | error e =>
      rw [Work.run_bind_error hasked] at hanswer hafter
      refine ⟨.error e, u, ⟨⟨events, hasked⟩, hanswer.symm, fun _ _ => hafter.symm, nofun⟩⟩
    | ok c =>
      rw [Store.run_written hasked] at hanswer hafter
      refine ⟨.ok c, u, ⟨⟨events, hasked⟩, hanswer.symm, nofun, fun c' hc' => ?_⟩⟩
      cases hc'
      rw [← hafter]
      exact ⟨rfl, (u.matches_writing p c).container c⟩

/-- What was written can be read. -/
theorem Wrote.holds (hwrote : m.Wrote w p r) (h : m.Ran w p)
    (hr : Cache.Restorable (m.after.container r)) :
    ∃ k, Cache.Holds m.after.files p k ∧ k.definitions = (m.after.container r).bare := by
  cases hwrote with
  | written call answer =>
    unfold Ran at h
    rw [call, CacheCall.run_write, answer] at h
    obtain ⟨hanswer, hafter⟩ := Prod.mk.inj h
    have hworked := Except.ok.inj (CacheAnswer.flag.inj hanswer)
    rw [← hafter, (m.before.matches_writing p r).container] at hr ⊢
    exact Cache.holds_of_write hr hworked
  | built u call miss worked =>
    obtain ⟨hfiles, hcontainer⟩ := miss.built r rfl
    rw [hcontainer] at hr ⊢
    rw [hfiles]
    exact Cache.holds_of_write hr worked

end CacheMoment

namespace CacheCall

variable {w : Action (Ref ContainerCell)} {p : Path} {m m' : CacheMoment}
  {earlier between later : List CacheMoment}

theorem ran_of_mem_history (calls : List CacheCall) :
    ∀ {s : Store}, m ∈ history w p s calls → m.Ran w p := by
  induction calls with
  | nil => exact fun h => absurd h List.not_mem_nil
  | cons c rest ih =>
    intro s h
    rcases List.mem_cons.mp h with rfl | h
    · rfl
    · exact ih h

end CacheCall

end Wiring
