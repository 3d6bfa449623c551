import Wiring.Proofs.Declaring
import Wiring.Proofs.Producing

/-!
# `Wiring.Proofs.Browsing`: what a browser answers while it remembers

A browser is changed and asked in any order, and remembers the include directories in between.
`Browsed` are the stores that this can lead to, next to what was done to the modules directories and
the tree that was there when the include directories were last computed or forgotten. The rest of
the store, and the tree itself, may change at any time.

While the tree is still that one, the browser answers as a new one would (`answers_of_browsed`). The
modules directories that stand are those that were added and not removed behind that, in the order
in which they were added (`standing`). The browser fails if it has to ask for a path that is too
long for the tree to tell whether it is there (`fails_on_long_name`), and on an empty file name.
-/

set_option autoImplicit false

namespace Wiring

open Wiring.Files

namespace Files

/-! ### Modules directories that stand -/

/-- What is done to the modules directories of a browser. -/
inductive Change where
  | added (p : Path)
  | removed (p : Path)
  deriving DecidableEq

/-- The modules directories that were added and not removed behind that. -/
def standing : List Change → List Path
  | [] => []
  | .removed _ :: rest => standing rest
  | .added p :: rest =>
    if .removed p ∈ rest then standing rest else p :: (standing rest).filter (· ≠ p)

/-- A directory stands if it was added and not removed behind that. -/
theorem mem_standing_iff {changes : List Change} {p : Path} :
    p ∈ standing changes ↔
      ∃ before after, changes = before ++ .added p :: after ∧ .removed p ∉ after := by
  induction changes with
  | nil => simp [standing]
  | cons c rest ih =>
    have hrest : (∃ before after, c :: rest = before ++ .added p :: after ∧ .removed p ∉ after) ↔
        (c = .added p ∧ .removed p ∉ rest) ∨ p ∈ standing rest := by
      rw [ih]
      constructor
      · rintro ⟨before, after, hsplit, hafter⟩
        cases before with
        | nil =>
          cases hsplit
          exact .inl ⟨rfl, hafter⟩
        | cons b before =>
          cases hsplit
          exact .inr ⟨before, after, rfl, hafter⟩
      · rintro (⟨rfl, hafter⟩ | ⟨before, after, rfl, hafter⟩)
        · exact ⟨[], rest, rfl, hafter⟩
        · exact ⟨c :: before, after, rfl, hafter⟩
    rw [hrest]
    cases c with
    | removed q => simp [standing]
    | added q =>
      rw [standing]
      split
      · rename_i hremoved
        refine ⟨.inr, ?_⟩
        rintro (⟨hq, hnot⟩ | h)
        · cases hq
          exact absurd hremoved hnot
        · exact h
      · rename_i hnot
        by_cases hp : p = q
        · subst hp
          exact ⟨fun _ => .inl ⟨rfl, hnot⟩, fun _ => List.mem_cons_self⟩
        · simp [hp, Ne.symm hp]

/-- No directory stands twice. -/
theorem nodup_standing (changes : List Change) : (standing changes).Nodup := by
  induction changes with
  | nil => exact List.nodup_nil
  | cons c rest ih =>
    cases c with
    | removed p => exact ih
    | added p =>
      rw [standing]
      split
      · exact ih
      · exact List.nodup_cons.mpr ⟨by simp, ih.filter _⟩

/-- A directory that is added stands last, unless it stands already. -/
theorem standing_added (changes : List Change) (p : Path) :
    standing (changes ++ [.added p]) =
      if p ∈ standing changes then standing changes else standing changes ++ [p] := by
  induction changes with
  | nil => simp [standing]
  | cons c rest ih =>
    cases c with
    | removed q =>
      rw [List.cons_append, standing, standing]
      exact ih
    | added q =>
      rw [List.cons_append, standing, standing, ih]
      by_cases hremoved : .removed q ∈ rest
      · simp [hremoved]
      · rw [if_neg (by simp [hremoved]), if_neg hremoved]
        by_cases hp : p = q
        · subst hp
          by_cases hstands : p ∈ standing rest <;> simp [hstands]
        · by_cases hstands : p ∈ standing rest <;> simp [hstands, hp]

/-- A directory that is removed does not stand any more. -/
theorem standing_removed (changes : List Change) (p : Path) :
    standing (changes ++ [.removed p]) = (standing changes).erase p := by
  have hfilter : standing (changes ++ [.removed p]) = (standing changes).filter (· ≠ p) := by
    induction changes with
    | nil => rfl
    | cons c rest ih =>
      cases c with
      | removed q =>
        rw [List.cons_append, standing, standing]
        exact ih
      | added q =>
        rw [List.cons_append, standing, standing, ih]
        by_cases hremoved : .removed q ∈ rest
        · simp [hremoved]
        · by_cases hp : q = p
          · subst hp
            simp [hremoved, List.filter_filter]
          · have hother : Change.removed q ≠ .removed p := fun h => hp (Change.removed.inj h)
            rw [if_neg (by simp [hremoved, hother]), if_neg hremoved,
              List.filter_cons_of_pos (by simp [hp]), List.filter_filter, List.filter_filter]
            simp only [Bool.and_comm]
  rw [hfilter, (nodup_standing changes).erase_eq_filter]
  refine List.filter_congr fun q _ => ?_
  by_cases hq : q = p <;> simp [hq]

/-- What is only added stands once. -/
theorem standing_map_added (ps : List Path) : standing (ps.map .added) = ps.eraseDups := by
  induction ps using List.reverseRecOn with
  | nil => rfl
  | append_singleton ps p ih =>
    rw [List.map_append, List.map_singleton, standing_added, ih,
      Container.eraseDups_append_singleton]
    simp only [List.mem_eraseDups]

/-! ### Asking a tree -/

namespace Tree

variable {t : Tree} {p : Path}

/-- The path is not too long for the tree to tell whether it is there. -/
def CanTell (t : Tree) (p : Path) : Prop := t.find p ≠ .error .tooLong

instance (t : Tree) (p : Path) : Decidable (t.CanTell p) :=
  match h : t.find p with
  | .error e => decidable_of_iff (e ≠ .tooLong) (by simp [CanTell, h])
  | .ok n => .isTrue (by simp [CanTell, h])

/-- What can be told is told. -/
theorem CanTell.asks (h : t.CanTell p) (f : Node → Bool) : ∃ b, t.asks p f = .ok b := by
  unfold Tree.asks
  cases hfind : t.find p with
  | ok n => exact ⟨f n, rfl⟩
  | error e =>
    cases e with
    | tooLong => exact absurd hfind h
    | _ => exact ⟨false, rfl⟩

/-- No name is listed twice in a directory. -/
theorem nodup_namesIn (t : Tree) (l : Location) : (t.namesIn l).Nodup := by
  refine List.Nodup.filterMap (fun k k' n hn hn' => ?_) t.nodes.nodup
  -- A location is told by its directory and its name.
  have hlast : ∀ {k : Location}, n ∈ (if k.dropLast = l then k.getLast? else none) →
      k = l ++ [n] := by
    intro k hk
    split at hk
    · rename_i hdir
      rw [← hdir]
      exact (List.dropLast_append_getLast? n hk).symm
    · cases hk
  rw [hlast hn, hlast hn']

/-- A name is listed in a directory if something stands there. -/
theorem mem_namesIn_iff {l : Location} {n : String} :
    n ∈ t.namesIn l ↔ l ++ [n] ∈ t.nodes.keys := by
  unfold namesIn
  rw [List.mem_filterMap]
  constructor
  · rintro ⟨k, hk, hn⟩
    split at hn
    · rename_i hdir
      rw [← hdir, List.dropLast_append_getLast? n hn]
      exact hk
    · cases hn
  · intro hk
    exact ⟨_, hk, by simp⟩

/-- The subdirectories of a directory are those of its names that lead to a directory, sorted. -/
theorem subdirectories_sorted {l : Location} (hp : t.find p = .ok .directory)
    (hl : t.locate p = .ok l) :
    ∃ names : List String, t.subdirectories p = names.map p.join ∧ names.Pairwise (· < ·) ∧
      ∀ n, n ∈ names ↔ l ++ [n] ∈ t.nodes.keys ∧ t.isDirectory (p.join n) = true := by
  let sorted := (t.namesIn l).mergeSort fun a b => decide (a ≤ b)
  have hperm : sorted.Perm (t.namesIn l) := List.mergeSort_perm _ _
  have hordered : sorted.Pairwise fun a b => decide (a ≤ b) = true := by
    refine List.pairwise_mergeSort ?_ ?_ _
    · intro a b c hab hbc
      simpa using le_trans (by simpa using hab) (by simpa using hbc)
    · intro a b
      simpa using le_total a b
  have hle : sorted.Pairwise (· ≤ ·) := hordered.imp of_decide_eq_true
  have hlt : sorted.Pairwise (· < ·) :=
    (hle.and (hperm.nodup_iff.mpr (t.nodup_namesIn l))).imp fun h => lt_of_le_of_ne h.1 h.2
  refine ⟨sorted.filter fun n => t.isDirectory (p.join n), ?_, hlt.filter _, fun n => ?_⟩
  · unfold subdirectories
    rw [hp, hl]
    exact List.filter_map
  · rw [List.mem_filter, hperm.mem_iff, mem_namesIn_iff]

end Tree

/-! ### What can be told -/

namespace Browser

variable {b : Browser} {t : Tree}

/-- Of everything that asking for the include directories looks at, it can be told whether it is
there. -/
def CanTell (b : Browser) (t : Tree) : Prop :=
  ∀ p ∈ b.modules, t.CanTell p ∧ (t.find p = .ok .directory →
    ∀ l, t.locate p = .ok l → ∀ n ∈ t.namesIn l, t.CanTell (p.join n))

/-- A question that has an answer for each path has one for all of them. -/
theorem exists_passing {f : Path → Except Trouble Bool} {ps : List Path}
    (h : ∀ p ∈ ps, ∃ b, f p = .ok b) : ∃ found, passing f ps = .ok found := by
  induction ps with
  | nil => exact ⟨[], rfl⟩
  | cons p rest ih =>
    obtain ⟨yes, hyes⟩ := h p List.mem_cons_self
    obtain ⟨more, hmore⟩ := ih fun q hq => h q (List.mem_cons_of_mem _ hq)
    refine ⟨if yes then p :: more else more, ?_⟩
    rw [passing, hyes, hmore]
    rfl

/-- The first path for which the answer is yes is the first of all of them. -/
theorem firstPassing_of_passing {f : Path → Except Trouble Bool} (ps : List Path) :
    ∀ {found : List Path}, passing f ps = .ok found → firstPassing f ps = .ok found.head? := by
  induction ps with
  | nil =>
    intro found h
    cases h
    rfl
  | cons p rest ih =>
    intro found h
    obtain ⟨yes, hyes, h⟩ := Except.bind_eq_ok.mp h
    obtain ⟨more, hmore, h⟩ := Except.bind_eq_ok.mp h
    cases h
    rw [firstPassing, hyes]
    cases yes with
    | true => rfl
    | false => exact ih hmore

/-- The directories inside a modules directory are found, as far as it can be told. -/
theorem exists_modulesIn {p : Path} (hp : t.CanTell p)
    (hnames : t.find p = .ok .directory →
      ∀ l, t.locate p = .ok l → ∀ n ∈ t.namesIn l, t.CanTell (p.join n)) :
    ∃ found, modulesIn t p = .ok found := by
  unfold modulesIn
  cases hfind : t.find p with
  | ok n =>
    cases n with
    | file content =>
      refine ⟨[], ?_⟩
      rw [Tree.isDirectory?, Tree.asks, hfind]
      rfl
    | directory =>
      obtain ⟨l, hl, -⟩ := Except.bind_eq_ok.mp hfind
      have hlist : t.list p = .ok ((t.namesIn l).mergeSort fun a b => decide (a ≤ b)) := by
        rw [Tree.list, hfind, hl]
        rfl
      have hall : ∀ q ∈ ((t.namesIn l).mergeSort fun a b => decide (a ≤ b)).map p.join,
          ∃ b, t.isDirectory? q = .ok b := by
        intro q hq
        obtain ⟨n, hn, rfl⟩ := List.mem_map.mp hq
        exact (hnames hfind l hl n (List.mem_mergeSort.mp hn)).asks _
      obtain ⟨found, hfound⟩ := exists_passing hall
      refine ⟨found, ?_⟩
      rw [Tree.isDirectory?, Tree.asks, hfind, hlist]
      exact hfound
  | error e =>
    have hno : t.isDirectory? p = .ok false := by
      rw [Tree.isDirectory?, Tree.asks, hfind]
      cases e with
      | tooLong => exact absurd hfind hp
      | _ => rfl
    rw [hno]
    exact ⟨[], rfl⟩

/-- The include directories are found, as far as it can be told. -/
theorem computed_of_canTell (h : b.CanTell t) : b.computed t = .ok (b.directories t) := by
  have hall : ∀ ps : List Path, (∀ p ∈ ps, t.CanTell p ∧ (t.find p = .ok .directory →
      ∀ l, t.locate p = .ok l → ∀ n ∈ t.namesIn l, t.CanTell (p.join n))) →
      ∃ found, modulesInAll t ps = .ok found := by
    intro ps
    induction ps with
    | nil => exact fun _ => ⟨[], rfl⟩
    | cons p rest ih =>
      intro hps
      obtain ⟨here, hhere⟩ := exists_modulesIn (hps p List.mem_cons_self).1
        (hps p List.mem_cons_self).2
      obtain ⟨more, hmore⟩ := ih fun q hq => hps q (List.mem_cons_of_mem _ hq)
      refine ⟨here ++ more, ?_⟩
      rw [modulesInAll, hhere, hmore]
      rfl
  obtain ⟨found, hfound⟩ := hall b.modules h
  have hcomputed : b.computed t = .ok (b.application.toList ++ found) := by
    rw [computed, hfound]
    rfl
  rw [hcomputed, computed_eq_ok hcomputed]

end Browser

end Files

/-! ### Browsers in turn -/

/-- What is done with a browser. -/
inductive Browsing where
  | add (directory : Value)
  | remove (directory : Value)
  | reset
  | includes (refresh : Bool)
  | file (name : Value)
  | files (name : Value)

namespace Browsing

/-- Does it. -/
def run (r : Ref Browser) : Browsing → Action Unit
  | .add v => Store.addModules r v
  | .remove v => Store.removeModules r v
  | .reset => Store.change r Browser.reset
  | .includes refresh => do
    let _ ← Store.includes r refresh
  | .file v => do
    let _ ← Store.fileNamed r v
  | .files v => do
    let _ ← Store.filesNamed r v

/-- What it does to the modules directories. -/
def changes : Browsing → List Change
  | .add v => (v.path?.map .added).toList
  | .remove v => (v.path?.map .removed).toList
  | _ => []

/-- Whether a name is looked up. -/
def isName (v : Value) : Bool := v.truthy && v.display ≠ ""

/-- Whether it computes the include directories or forgets them. -/
def renews (b : Browser) (t : Tree) : Browsing → Bool
  | .add v => v.path?.isSome
  | .remove v => v.path?.isSome
  | .reset => true
  | .includes refresh => b.looks refresh && (b.computed t).isOk
  | .file v => isName v && b.looks false && (b.computed t).isOk
  | .files v => isName v && b.looks false && (b.computed t).isOk

end Browsing

/-- The stores that a browser can be in, what was done to its modules directories since it was made,
and the tree that was there when its include directories were last computed or forgotten. -/
inductive Browsed (r : Ref Browser) (application : Option Path) :
    List Change → Tree → Store → Prop
  | made {s : Store} (modules : List Path) (hr : s.browsers.Holds r)
    (hb : s.browsers.get r = Browser.of application modules) :
    Browsed r application (modules.map .added) s.files s
  | step {changes : List Change} {since : Tree} {s : Store} (a : Browsing)
    (h : Browsed r application changes since s) :
    Browsed r application (changes ++ a.changes)
      (if a.renews (s.browsers.get r) s.files then s.files else since) (ExceptT.run (a.run r) s).2
  | elsewhere {changes : List Change} {since : Tree} {s s' : Store}
    (h : Browsed r application changes since s) (hr : s'.browsers.Holds r)
    (hb : s'.browsers.get r = s.browsers.get r) : Browsed r application changes since s'

namespace Store

variable {s t : Store} {r : Ref Browser}

/-- Only the browser is another one, and the files are the same. -/
structure Turns (s : Store) (r : Ref Browser) (b : Browser) (t : Store) : Prop where
  files : t.files = s.files
  holds : t.browsers.Holds r
  browser : t.browsers.get r = b

/-- What asking a browser for its include directories answers, and what the browser remembers. -/
theorem run_includes (hr : s.browsers.Holds r) (refresh : Bool) :
    ∃ t, (includes r refresh).run s
        = (((s.browsers.get r).includes s.files refresh).mapError fun e => .foreign e.kind, t) ∧
      s.Turns r ((s.browsers.get r).looked s.files refresh) t := by
  let b := s.browsers.get r
  -- The report about missing modules is the only thing that may come first.
  have hrest : ∀ s₁ : Store, s₁.files = s.files → s₁.browsers = s.browsers → ∃ t,
      (do
        let found ← onFiles fun t => b.includes t refresh
        change r fun b => b.looked s.files refresh
        pure found : Action (List Path)).run s₁
          = ((b.includes s.files refresh).mapError fun e => .foreign e.kind, t) ∧
      s.Turns r (b.looked s.files refresh) t := by
    intro s₁ hfiles hbrowsers
    have hasked := run_onFiles (fun t => b.includes t refresh) s₁
    rw [hfiles] at hasked
    cases hfound : b.includes s.files refresh with
    | error e =>
      rw [hfound] at hasked
      have hsame : b.looked s.files refresh = b := by rw [Browser.looked, hfound]
      rw [hsame]
      exact ⟨s₁, Work.run_bind_error hasked, hfiles, hbrowsers ▸ hr, congrArg (·.get r) hbrowsers⟩
    | ok found =>
      rw [hfound] at hasked
      refine ⟨_, (Work.run_bind_ok hasked).trans rfl, hfiles, ?_, ?_⟩
      · exact Cells.holds_modify.mpr (hbrowsers ▸ hr : s₁.browsers.Holds r)
      · show (s₁.browsers.modify r _).get r = _
        rw [hbrowsers, Cells.get_modify_self hr]
  unfold includes
  rw [Work.run_bind_ok (Work.run_get s)]
  dsimp only
  split
  · rw [Work.run_bind_ok (run_report _ s)]
    exact hrest _ rfl rfl
  · exact hrest s rfl rfl

/-- What looking a name up answers, and what the browser remembers behind that. The two ways of
looking up differ only in how the include directories are gone through. -/
theorem run_lookup {α : Type} {g : Browser → Tree → String → Except Trouble α}
    (hcongr : ∀ {b c : Browser} {t : Tree} (n : String),
      b.includes t false = c.includes t false → g b t n = g c t n)
    (herror : ∀ {b : Browser} {t : Tree} (n : String) {e : Trouble},
      b.includes t false = .error e → g b t n = .error e)
    (hr : s.browsers.Holds r) (v : Value) (a : α) :
    ∃ x t, (soughtName r v >>= fun found => found.elim (pure a) fun n => do
        let b ← read r
        onFiles fun t => g b t n : Action α).run s = (x, t) ∧
      s.Turns r (if Browsing.isName v then (s.browsers.get r).looked s.files false
        else s.browsers.get r) t ∧
      (Browsing.isName v = true → v.path?.isSome = true →
        x = (g (s.browsers.get r) s.files v.display).mapError fun e => .foreign e.kind) := by
  let b := s.browsers.get r
  by_cases hname : Browsing.isName v = true
  · have hguard : (!v.truthy || v.display = "") = false := by
      simpa [Browsing.isName] using hname
    obtain ⟨t, hrun, hturns⟩ := run_includes hr false
    have hagain : (b.looked s.files false).includes s.files false = b.includes s.files false := by
      unfold Browser.looked
      cases hfound : b.includes s.files false with
      | ok found => rfl
      | error e => exact hfound
    have hsought : soughtName r v = (includes r false >>= fun directories => v.path?.elim
        (if directories.isEmpty then pure none else Work.foreign .type)
        fun _ => pure (some v.display)) := by
      unfold soughtName
      rw [hguard]
      cases v.path? <;> rfl
    rw [if_pos hname, hsought]
    cases hfound : b.includes s.files false with
    | error e =>
      rw [hfound] at hrun
      refine ⟨_, t, Work.run_bind_error (Work.run_bind_error hrun), hturns, fun _ _ => ?_⟩
      rw [herror v.display hfound]
      rfl
    | ok found =>
      rw [hfound] at hrun
      rw [bind_assoc, Work.run_bind_ok hrun]
      cases hpath : v.path? with
      | none =>
        have hnone : ∀ {p : Prop}, (none : Option Path).isSome = true → p :=
          fun hsome => absurd hsome Bool.false_ne_true
        rw [Option.elim_none]
        split
        · exact ⟨_, t, rfl, hturns, fun _ => hnone⟩
        · exact ⟨_, t, rfl, hturns, fun _ => hnone⟩
      | some p =>
        refine ⟨_, t, rfl, hturns, fun _ _ => ?_⟩
        show (g (t.browsers.get r) t.files v.display).mapError _ = _
        rw [hturns.files, hturns.browser, hcongr v.display hagain]
  · have hguard : (!v.truthy || v.display = "") = true := by
      simpa [Browsing.isName, or_iff_not_imp_left] using hname
    have hsought : soughtName r v = throw .fileName := by
      unfold soughtName
      rw [hguard]
      rfl
    rw [if_neg hname, hsought]
    exact ⟨_, s, rfl, ⟨rfl, hr, rfl⟩, fun h => absurd h hname⟩

/-- What looking for all files of a name answers. -/
theorem run_files (hr : s.browsers.Holds r) (v : Value) :
    ∃ x t, (filesNamed r v).run s = (x, t) ∧
      s.Turns r (if Browsing.isName v then (s.browsers.get r).looked s.files false
        else s.browsers.get r) t ∧
      (Browsing.isName v = true → v.path?.isSome = true →
        x = ((s.browsers.get r).hits s.files v.display).mapError fun e => .foreign e.kind) := by
  have hlookup : filesNamed r v = (soughtName r v >>= fun found => found.elim (pure []) fun n => do
      let b ← read r
      onFiles fun t => b.hits t n) := bind_congr fun found => by cases found <;> rfl
  rw [hlookup]
  exact run_lookup (fun n h => by unfold Browser.hits; rw [h])
    (fun n e h => by unfold Browser.hits; rw [h]; rfl) hr v []

/-- What looking for the first file of a name answers. -/
theorem run_file (hr : s.browsers.Holds r) (v : Value) :
    ∃ x t, (fileNamed r v).run s = (x, t) ∧
      s.Turns r (if Browsing.isName v then (s.browsers.get r).looked s.files false
        else s.browsers.get r) t ∧
      (Browsing.isName v = true → v.path?.isSome = true →
        x = ((s.browsers.get r).firstHit s.files v.display).mapError fun e => .foreign e.kind) := by
  have hlookup : fileNamed r v = (soughtName r v >>= fun found => found.elim (pure none) fun n => do
      let b ← read r
      onFiles fun t => b.firstHit t n) := bind_congr fun found => by cases found <;> rfl
  rw [hlookup]
  exact run_lookup (fun n h => by unfold Browser.firstHit; rw [h])
    (fun n e h => by unfold Browser.firstHit; rw [h]; rfl) hr v none

/-! ### What is kept -/

/-- A new browser for the modules directories that stand. -/
def newBrowser (application : Option Path) (changes : List Change) : Browser :=
  ⟨application, standing changes, none⟩

/-- The browser has the modules directories that stand, and what it remembers is what was computed
from them. -/
structure Coherent (application : Option Path) (changes : List Change) (since : Tree)
    (b : Browser) : Prop where
  application_eq : b.application = application
  modules_eq : b.modules = standing changes
  remembered : ∀ dirs, b.remembered = some dirs →
    (newBrowser application changes).computed since = .ok dirs

variable {application : Option Path} {changes : List Change} {since : Tree} {b : Browser}

/-- A coherent browser computes what a new one does. -/
theorem Coherent.computed (h : Coherent application changes since b) (t : Tree) :
    b.computed t = (newBrowser application changes).computed t := by
  rw [Browser.computed, Browser.computed, h.application_eq, h.modules_eq, newBrowser]

/-- A browser that has forgotten its include directories is coherent with any tree. -/
theorem Coherent.forgotten (b : Browser) (happlication : b.application = application)
    (hmodules : b.modules = standing changes) (hremembered : b.remembered = none) (t : Tree) :
    Coherent application changes t b :=
  ⟨happlication, hmodules, fun dirs h => by rw [hremembered] at h; cases h⟩

/-- A browser that was asked is coherent with the tree that was there when it computed. -/
theorem Coherent.looked (h : Coherent application changes since b) (t : Tree) (refresh : Bool) :
    Coherent application changes
      (if b.looks refresh && (b.computed t).isOk then t else since) (b.looked t refresh) := by
  have hkept : b.looks refresh = false → ∃ dirs, b.remembered = some dirs ∧
      b.includes t refresh = .ok dirs := by
    intro hlooks
    obtain ⟨hrefresh, hsome⟩ := Bool.or_eq_false_iff.mp hlooks
    cases hremembered : b.remembered with
    | none => simp [hremembered] at hsome
    | some dirs =>
      refine ⟨dirs, rfl, ?_⟩
      rw [Browser.includes, hremembered, hrefresh]
      rfl
  have hcomputed : b.looks refresh = true → b.includes t refresh = b.computed t := by
    intro hlooks
    unfold Browser.includes
    cases hremembered : b.remembered with
    | none => rfl
    | some dirs =>
      have hrefresh : refresh = true := by simpa [Browser.looks, hremembered] using hlooks
      rw [hrefresh]
      rfl
  unfold Browser.looked
  by_cases hlooks : b.looks refresh = true
  · rw [hcomputed hlooks, hlooks, Bool.true_and]
    cases hfound : b.computed t with
    | ok dirs =>
      refine ⟨h.application_eq, h.modules_eq, fun found hf => ?_⟩
      cases hf
      show (newBrowser application changes).computed t = _
      rw [← h.computed, hfound]
    | error e => exact h
  · rw [Bool.not_eq_true] at hlooks
    obtain ⟨dirs, hremembered, hincludes⟩ := hkept hlooks
    rw [hincludes, hlooks]
    exact ⟨h.application_eq, h.modules_eq, fun found hf => by
      cases hf
      exact h.remembered dirs hremembered⟩

/-- A coherent browser answers as a new one, while the tree is the same. -/
theorem Coherent.includes (h : Coherent application changes since b) (refresh : Bool) :
    b.includes since refresh = (newBrowser application changes).computed since := by
  unfold Browser.includes
  cases hremembered : b.remembered with
  | none => exact h.computed since
  | some dirs =>
    cases refresh with
    | true => exact h.computed since
    | false => exact (h.remembered dirs hremembered).symm

/-- What is done with a browser leaves the tree, and keeps the browser coherent. -/
theorem Coherent.run (hr : s.browsers.Holds r)
    (h : Coherent application changes since (s.browsers.get r)) (a : Browsing) :
    (ExceptT.run (a.run r) s).2.files = s.files ∧
      (ExceptT.run (a.run r) s).2.browsers.Holds r ∧
      Coherent application (changes ++ a.changes)
        (if a.renews (s.browsers.get r) s.files then s.files else since)
        ((ExceptT.run (a.run r) s).2.browsers.get r) := by
  let b := s.browsers.get r
  -- Looking a name up leaves the browser as asking for the include directories does.
  have hlookup : ∀ (v : Value) {t : Store}, s.Turns r
      (if Browsing.isName v then b.looked s.files false else b) t → t.files = s.files ∧
      t.browsers.Holds r ∧ Coherent application (changes ++ [])
        (if Browsing.isName v && b.looks false && (b.computed s.files).isOk then s.files else since)
        (t.browsers.get r) := by
    intro v t hturns
    refine ⟨hturns.files, hturns.holds, ?_⟩
    rw [hturns.browser, List.append_nil]
    cases Browsing.isName v with
    | true => exact h.looked s.files false
    | false => exact h
  -- A change of the modules directories is refused, or makes the browser forget.
  have hchange : ∀ (v : Value) (f : Path → Browser → Browser) (c : Path → Change),
      (∀ p, (f p b).application = b.application ∧ (f p b).remembered = none ∧
        (f p b).modules = standing (changes ++ [c p])) →
      let t := (ExceptT.run (do
        let p ← Work.lift (Settings.directory v)
        change r (f p) : Action Unit) s).2
      t.files = s.files ∧ t.browsers.Holds r ∧
        Coherent application (changes ++ (v.path?.map c).toList)
          (if v.path?.isSome then s.files else since) (t.browsers.get r) := by
    intro v f c hf
    unfold Settings.directory
    split
    · rename_i p hp
      obtain ⟨happlication, hremembered, hmodules⟩ := hf p
      refine ⟨rfl, Cells.holds_modify.mpr hr, ?_⟩
      show Coherent application _ _ ((s.browsers.modify r (f p)).get r)
      rw [Cells.get_modify_self hr, hp]
      exact .forgotten _ (happlication.trans h.application_eq) hmodules hremembered _
    · rename_i hp
      refine ⟨rfl, hr, ?_⟩
      rw [hp, Option.map_none, Option.toList_none, List.append_nil]
      exact h
  cases a with
  | add v =>
    refine hchange v (fun p b => b.add p) .added fun p => ⟨rfl, rfl, ?_⟩
    rw [standing_added, ← h.modules_eq]
    rfl
  | remove v =>
    refine hchange v (fun p b => b.remove p) .removed fun p => ⟨rfl, rfl, ?_⟩
    rw [standing_removed, ← h.modules_eq]
    rfl
  | reset =>
    have hforgotten : Coherent application changes s.files b.reset :=
      .forgotten b.reset h.application_eq h.modules_eq rfl s.files
    refine ⟨rfl, Cells.holds_modify.mpr hr, ?_⟩
    show Coherent application (changes ++ []) s.files ((s.browsers.modify r Browser.reset).get r)
    rw [Cells.get_modify_self hr, List.append_nil]
    exact hforgotten
  | includes refresh =>
    obtain ⟨t, hrun, hturns⟩ := run_includes hr refresh
    have hleft : (ExceptT.run (Browsing.run r (.includes refresh)) s).2 = t :=
      (run_discarded _).trans (congrArg Prod.snd hrun)
    rw [hleft, hturns.browser]
    show _ ∧ _ ∧ Coherent application (changes ++ []) _ _
    rw [List.append_nil]
    exact ⟨hturns.files, hturns.holds, h.looked s.files refresh⟩
  | file v =>
    obtain ⟨x, t, hrun, hturns, -⟩ := run_file hr v
    have hleft : (ExceptT.run (Browsing.run r (.file v)) s).2 = t :=
      (run_discarded _).trans (congrArg Prod.snd hrun)
    rw [hleft]
    exact hlookup v hturns
  | files v =>
    obtain ⟨x, t, hrun, hturns, -⟩ := run_files hr v
    have hleft : (ExceptT.run (Browsing.run r (.files v)) s).2 = t :=
      (run_discarded _).trans (congrArg Prod.snd hrun)
    rw [hleft]
    exact hlookup v hturns

end Store

namespace Browsed

variable {r : Ref Browser} {application : Option Path} {changes : List Change} {since : Tree}
  {s : Store}

/-- A browser stays coherent, whatever is done with it. -/
theorem coherent (h : Browsed r application changes since s) :
    s.browsers.Holds r ∧ Store.Coherent application changes since (s.browsers.get r) := by
  induction h with
  | @made s modules hr hb =>
    have hnew : Store.Coherent application (modules.map .added) s.files
        ⟨application, modules.eraseDups, none⟩ :=
      .forgotten ⟨application, modules.eraseDups, none⟩ rfl (standing_map_added modules).symm rfl _
    rw [hb, Browser.of_eq]
    exact ⟨hr, hnew⟩
  | step a _ ih => exact (Store.Coherent.run ih.1 ih.2 a).2
  | elsewhere _ hr hb ih => exact ⟨hr, hb ▸ ih.2⟩

/-- As long as only the browser is used, the tree is the one that it computes from. -/
theorem run (h : Browsed r application changes s.files s) (as : List Browsing) :
    let t := as.foldl (fun s a => (ExceptT.run (a.run r) s).2) s
    Browsed r application (changes ++ as.flatMap Browsing.changes) t.files t := by
  induction as generalizing changes s with
  | nil => simpa using h
  | cons a rest ih =>
    have hfiles := (Store.Coherent.run h.coherent.1 h.coherent.2 a).1
    have hstep := h.step a
    rw [ite_self, ← hfiles] at hstep
    rw [List.flatMap_cons, ← List.append_assoc]
    exact ih hstep

end Browsed

/-! ### Answers -/

namespace Store

variable {s : Store} {r : Ref Browser}

/-- The paths of a name below some directories that are there. -/
def existing (t : Tree) (dirs : List Path) (name : String) : List Path :=
  (dirs.map fun d => d.join name).filter t.holds

/-- The browser answers as another one that remembers nothing. -/
structure AnswersAfresh (r : Ref Browser) (b : Browser) (s : Store) : Prop where
  /-- The include directories are computed, and where they cannot be, the failure is the same. -/
  computed : ∀ refresh, ∃ t, (includes r refresh).run s
    = ((b.computed s.files).mapError fun e => .foreign e.kind, t)
  includes : b.CanTell s.files → ∀ refresh, ∃ t,
    (includes r refresh).run s = (.ok (b.directories s.files), t)
  files : b.CanTell s.files → ∀ name : Value, name.path?.isSome = true → name.display ≠ "" →
    (∀ d ∈ b.directories s.files, s.files.CanTell (d.join name.display)) → ∃ t,
      (filesNamed r name).run s = (.ok (existing s.files (b.directories s.files) name.display), t)
  file : ∀ name : Value, name.path?.isSome = true → ∀ found t,
    (filesNamed r name).run s = (.ok found, t) →
      ∃ u, (fileNamed r name).run s = (.ok found.head?, u)
  empty : (filesNamed r (.text "")).run s = (.error .fileName, s) ∧
    (fileNamed r (.text "")).run s = (.error .fileName, s)

/-- A name for files that is not empty is looked up. -/
theorem isName_of_path {v : Value} (hpath : v.path?.isSome = true) (hne : v.display ≠ "") :
    Browsing.isName v = true := by
  cases v with
  | text n =>
    have hn : n ≠ "" := hne
    simp [Browsing.isName, Value.truthy, Value.display, hn]
  | path p => simpa [Browsing.isName, Value.truthy] using hne
  | _ => cases hpath

/-- A name that is looked up. -/
theorem isName_of_run {v : Value} {found : List Path} {t : Store}
    (h : (filesNamed r v).run s = (.ok found, t)) : Browsing.isName v = true := by
  by_contra hname
  have hguard : (!v.truthy || v.display = "") = true := by
    simpa [Browsing.isName, or_iff_not_imp_left] using hname
  have hrun : (filesNamed r v).run s = (.error .fileName, s) := by
    unfold filesNamed soughtName
    rw [hguard]
    rfl
  rw [hrun] at h
  cases h

/-- A coherent browser answers as a new one, as long as the tree is the one that it was asked of. -/
theorem Coherent.answersAfresh {application : Option Path} {changes : List Change}
    (hr : s.browsers.Holds r) (h : Coherent application changes s.files (s.browsers.get r)) :
    s.AnswersAfresh r (newBrowser application changes) := by
  let b := newBrowser application changes
  have hincludes : ∀ refresh, (s.browsers.get r).includes s.files refresh = b.computed s.files :=
    h.includes
  have hcomputed : ∀ refresh, ∃ t, (Store.includes r refresh).run s
      = ((b.computed s.files).mapError fun e => .foreign e.kind, t) := by
    intro refresh
    obtain ⟨t, hrun, -⟩ := run_includes hr refresh
    rw [hincludes] at hrun
    exact ⟨t, hrun⟩
  exact {
    computed := hcomputed
    includes := by
      intro htell refresh
      obtain ⟨t, hrun⟩ := hcomputed refresh
      rw [Browser.computed_of_canTell htell] at hrun
      exact ⟨t, hrun⟩
    files := by
      intro htell name hpath hne hnames
      obtain ⟨x, t, hrun, -, hx⟩ := run_files hr name
      have hall : ∀ p ∈ (b.directories s.files).map fun d => d.join name.display,
          ∃ yes, s.files.exists? p = .ok yes := by
        intro p hp
        obtain ⟨d, hd, rfl⟩ := List.mem_map.mp hp
        exact (hnames d hd).asks _
      obtain ⟨found, hfound⟩ := Browser.exists_passing hall
      have hheld : ∀ p yes, s.files.exists? p = .ok yes → s.files.holds p = yes := by
        intro p yes hp
        rw [Tree.holds, hp]
      have hhits : (s.browsers.get r).hits s.files name.display = .ok found := by
        rw [Browser.hits, hincludes, Browser.computed_of_canTell htell]
        exact hfound
      rw [hx (isName_of_path hpath hne) hpath, hhits] at hrun
      rw [Browser.passing_eq_ok hheld _ hfound] at hrun
      exact ⟨t, hrun⟩
    file := by
      intro name hpath found t hfound
      have hname := isName_of_run hfound
      obtain ⟨x, u, hrun, -, hx⟩ := run_files hr name
      obtain ⟨y, v, hrun', -, hy⟩ := run_file hr name
      rw [hfound] at hrun
      cases hrun
      have hhits := Except.mapError_eq_ok.mp (hx hname hpath).symm
      obtain ⟨dirs, hdirs, hpassing⟩ := Except.bind_eq_ok.mp hhits
      have hfirst : (s.browsers.get r).firstHit s.files name.display = .ok found.head? := by
        rw [Browser.firstHit, hdirs]
        exact Browser.firstPassing_of_passing _ hpassing
      rw [hy hname hpath, hfirst] at hrun'
      exact ⟨v, hrun'⟩
    empty := ⟨rfl, rfl⟩ }

end Store

/-- While the tree is the one that was there when the include directories were last computed or
forgotten, a browser answers as a new one does for the modules directories that stand: those that
were added and not removed behind that, each once. A directory gives its subdirectories sorted by
name, and what is no directory gives none. -/
theorem answers_of_browsed {r : Ref Browser} {application : Option Path} {changes : List Change}
    {s : Store} (h : Browsed r application changes s.files s) :
    s.AnswersAfresh r ⟨application, standing changes, none⟩ ∧
      ((standing changes).Nodup ∧ ∀ p, p ∈ standing changes ↔
        ∃ before after, changes = before ++ .added p :: after ∧ .removed p ∉ after) ∧
      ∀ p, (s.files.find p ≠ .ok .directory → s.files.subdirectories p = []) ∧
        ∀ l, s.files.find p = .ok .directory → s.files.locate p = .ok l →
          ∃ names : List String, s.files.subdirectories p = names.map p.join ∧
            names.Pairwise (· < ·) ∧
            ∀ n, n ∈ names ↔ l ++ [n] ∈ s.files.nodes.keys ∧
              s.files.isDirectory (p.join n) = true := by
  refine ⟨Store.Coherent.answersAfresh h.coherent.1 h.coherent.2,
    ⟨nodup_standing changes, fun _ => mem_standing_iff⟩,
    fun p => ⟨fun hp => ?_, fun l hp hl => Tree.subdirectories_sorted hp hl⟩⟩
  unfold Tree.subdirectories
  split
  · rename_i hfind _
    exact absurd hfind hp
  · rfl

/-- An application with modules in two directories. A file stands among the modules. -/
def moduleTree : Tree :=
  ⟨⟨[(["app"], .directory), (["app", "x.xml"], .file .empty), (["more"], .directory),
      (["more", "b"], .directory), (["more", "b", "x.xml"], .file .empty),
      (["more", "c"], .file .empty), (["more", "a"], .directory), (["last"], .directory),
      (["last", "d"], .directory), (["last", "d", "x.xml"], .file .empty)], by decide⟩⟩

/-- The store with a browser of the application, for modules that are missing so far. -/
def browsingStore : Store where
  __ := Store.empty default
  files := moduleTree
  browsers := ⟨[Browser.of (some ⟨"", ["app"]⟩) [⟨"", ["missing"]⟩]]⟩

/-- Changes and questions in turn. -/
def browsingSteps : List Browsing :=
  [.includes false, .add (.text "last"), .add (.text "more"), .files (.text "x.xml"),
    .remove (.text "last"), .add (.text "more"), .add (.text "last"), .file (.text "x.xml")]

/-- The store that they lead to. -/
def browsedStore : Store :=
  browsingSteps.foldl (fun s a => (ExceptT.run (a.run ⟨0⟩) s).2) browsingStore

/-- What they do to the modules directories. -/
def browsedChanges : List Change :=
  [.added ⟨"", ["missing"]⟩, .added ⟨"", ["last"]⟩, .added ⟨"", ["more"]⟩, .removed ⟨"", ["last"]⟩,
    .added ⟨"", ["more"]⟩, .added ⟨"", ["last"]⟩]

/-- The answers of a browser that remembers, after changes that make it forget. -/
theorem answers_of_browsedStore :
    (browsedStore.AnswersAfresh ⟨0⟩ ⟨some ⟨"", ["app"]⟩, standing browsedChanges, none⟩ ∧
        ((standing browsedChanges).Nodup ∧ ∀ p, p ∈ standing browsedChanges ↔
          ∃ before after, browsedChanges = before ++ .added p :: after ∧ .removed p ∉ after) ∧
        ∀ p, (browsedStore.files.find p ≠ .ok .directory →
            browsedStore.files.subdirectories p = []) ∧
          ∀ l, browsedStore.files.find p = .ok .directory → browsedStore.files.locate p = .ok l →
            ∃ names : List String, browsedStore.files.subdirectories p = names.map p.join ∧
              names.Pairwise (· < ·) ∧
              ∀ n, n ∈ names ↔ l ++ [n] ∈ browsedStore.files.nodes.keys ∧
                browsedStore.files.isDirectory (p.join n) = true) ∧
      standing browsedChanges = [⟨"", ["missing"]⟩, ⟨"", ["more"]⟩, ⟨"", ["last"]⟩] := by
  have hmade := Browsed.made (s := browsingStore) [⟨"", ["missing"]⟩] Nat.one_pos rfl
  have hchanges : browsedChanges =
      [⟨"", ["missing"]⟩].map .added ++ browsingSteps.flatMap Browsing.changes := by
    decide +kernel
  have hbrowsed : Browsed ⟨0⟩ (some ⟨"", ["app"]⟩) browsedChanges browsedStore.files
      browsedStore := hchanges ▸ hmade.run browsingSteps
  exact ⟨answers_of_browsed hbrowsed, by decide +kernel⟩

/-- A browser fails where it has to ask for a modules directory with a name that is too long,
instead of passing over it as one that is missing. -/
theorem fails_on_long_name :
    ∃ s, Browsed ⟨0⟩ (some ⟨"", ["app"]⟩) [.added ⟨"", [String.ofList (List.replicate 256 'x')]⟩]
        s.files s ∧
      s.files.subdirectories ⟨"", [String.ofList (List.replicate 256 'x')]⟩ = [] ∧
      ∀ t, (Store.includes ⟨0⟩ false).run s ≠ (.ok [⟨"", ["app"]⟩], t) := by
  let long : Path := ⟨"", [String.ofList (List.replicate 256 'x')]⟩
  let s : Store := { Store.empty default with
    browsers := ⟨[Browser.of (some ⟨"", ["app"]⟩) [long]]⟩ }
  refine ⟨s, .made [long] Nat.one_pos rfl, by decide +kernel, fun t hrun => ?_⟩
  have hfails : ((Store.includes ⟨0⟩ false).run s).1.isOk = false := by decide +kernel
  rw [hrun] at hfails
  cases hfails

end Wiring
