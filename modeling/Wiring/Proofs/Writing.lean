import Wiring.Cache
import Wiring.Proofs.OrderedMaps
import Wiring.Proofs.Spellings
import Wiring.Proofs.Work

/-!
# `Wiring.Proofs.Writing`: files that are written and read

A path is followed through directories, so writing and removing files does not lead it elsewhere:
where a directory was there still is one, as neither operation touches it. `read_of_write` says that
a file that is written reads as what was written, and `Cache.read_of_replace` carries this through a
temporary file that takes the place of the snapshot.

What else changes is said by `Adds`: the files of a tree after a write are those from before, the
one that was written and at most a temporary one beside
it. -/

set_option autoImplicit false

namespace Wiring

namespace Files.Tree

variable {t t' : Tree} {p q : Path} {l : Location} {content : ByteArray}

/-- Where one tree has a directory, the other has one too. -/
def Leads (t t' : Tree) : Prop := ∀ l, t.node? l = some .directory → t'.node? l = some .directory

/-- A way through directories leads to the same location. -/
theorem Leads.walk (h : t.Leads t') (parts : List String) :
    ∀ {here : Location}, t.walk here parts = .ok l → t'.walk here parts = .ok l := by
  induction parts with
  | nil => exact fun hwalk => hwalk
  | cons part rest ih =>
    intro here hwalk
    rw [Tree.walk] at hwalk ⊢
    split_ifs at hwalk ⊢ with hlong hlast
    · exact hwalk
    · cases hnode : t.node? (enter here part) with
      | none =>
        rw [hnode] at hwalk
        cases hwalk
      | some node =>
        rw [hnode] at hwalk
        cases node with
        | file content => cases hwalk
        | directory =>
          rw [h _ hnode]
          exact ih hwalk

theorem Leads.locate (h : t.Leads t') (hlocate : t.locate p = .ok l) : t'.locate p = .ok l := by
  unfold Tree.locate at hlocate ⊢
  split_ifs at hlocate ⊢
  exact h.walk _ hlocate

/-- A file that is read stands at the location of its path. -/
theorem read_eq_ok_iff : t.read p = .ok content ↔
    ∃ l, t.locate p = .ok l ∧ t.node? l = some (.file content) := by
  unfold read find
  cases t.locate p with
  | error e => simp [bind, Except.bind]
  | ok l =>
    cases hnode : t.node? l with
    | none => simp [bind, Except.bind, hnode]
    | some node => cases node <;> simp [bind, Except.bind, hnode]

/-- What stands at a location that is not above the tree. -/
theorem node?_of_not_above (h : isAbove l = false) : t.node? l = t.nodes.get? l := by
  rw [node?, h]
  rfl

/-- A location without directory is not above the tree. -/
theorem not_above (h : t.node? l ≠ some .directory) : isAbove l = false := by
  cases habove : isAbove l with
  | false => rfl
  | true => exact absurd (by rw [node?, habove]; rfl) h

/-- Writing a file puts it at the location of its path, where no directory was. -/
theorem write_eq_ok (h : t.write p content = .ok t') : ∃ l, t.locate p = .ok l ∧
    t.node? l ≠ some .directory ∧ t' = ⟨t.nodes.insert l (.file content)⟩ := by
  unfold write at h
  obtain ⟨l, hl, h⟩ := Except.bind_eq_ok.mp h
  refine ⟨l, hl, ?_⟩
  split at h
  · cases h
  · rename_i hnode
    cases h
    exact ⟨hnode, rfl⟩

/-- Putting a file where no directory was leaves all directories. -/
theorem leads_insert (h : t.node? l ≠ some .directory) :
    t.Leads ⟨t.nodes.insert l (.file content)⟩ := by
  intro m hm
  have hne : m ≠ l := fun he => h (he ▸ hm)
  unfold node? at hm ⊢
  rw [OrderedMap.get?_insert_of_ne _ _ hne]
  exact hm

/-- A file that is written reads as what was written. -/
theorem read_of_write (h : t.write p content = .ok t') : t'.read p = .ok content := by
  obtain ⟨l, hl, hnode, rfl⟩ := write_eq_ok h
  refine read_eq_ok_iff.mpr ⟨l, (leads_insert hnode).locate hl, ?_⟩
  rw [node?_of_not_above (not_above hnode), OrderedMap.get?_insert_self]

theorem leads_of_write (h : t.write p content = .ok t') : t.Leads t' := by
  obtain ⟨l, -, hnode, rfl⟩ := write_eq_ok h
  exact leads_insert hnode

/-- Removing a file leaves all directories and every other location. -/
theorem removeFile_eq_ok (h : t.removeFile p = .ok t') : ∃ l, t.locate p = .ok l ∧
    t.Leads t' ∧ t'.node? l = none ∧ ∀ m, m ≠ l → t'.node? m = t.node? m := by
  unfold removeFile at h
  obtain ⟨l, hl, h⟩ := Except.bind_eq_ok.mp h
  split at h
  · rename_i content hnode
    cases h
    -- Only the removed node changes, and it holds a file, so no way leads over it.
    have hothers : ∀ m, m ≠ l →
        (⟨t.nodes.erase l⟩ : Tree).node? m = t.node? m := by
      intro m hm
      unfold node?
      rw [OrderedMap.get?_erase_of_ne _ hm]
    have hgone : (⟨t.nodes.erase l⟩ : Tree).node? l = none := by
      unfold node? at hnode ⊢
      split at hnode
      · cases hnode
      · rename_i habove
        rw [if_neg habove, OrderedMap.get?_erase_self]
    refine ⟨l, hl, fun m hm => ?_, hgone, hothers⟩
    have hne : m ≠ l := by
      rintro rfl
      rw [hnode] at hm
      cases hm
    rw [hothers m hne]
    exact hm
  · cases h
  · cases h

/-- A file that is moved reads as it did at its old path. -/
theorem read_of_moveFile (h : t.moveFile q p = .ok t') (hread : t.read q = .ok content) :
    t'.read p = .ok content := by
  unfold moveFile at h
  rw [hread] at h
  obtain ⟨read, hcontent, h⟩ := Except.bind_eq_ok.mp h
  cases hcontent
  obtain ⟨written, hwritten, h⟩ := Except.bind_eq_ok.mp h
  obtain ⟨source, hsource, h⟩ := Except.bind_eq_ok.mp h
  obtain ⟨target, htarget, h⟩ := Except.bind_eq_ok.mp h
  -- The content is written to the target before the source is removed.
  have hmoved := read_of_write hwritten
  split at h
  · cases h
    exact hmoved
  · rename_i hne
    obtain ⟨l, hl, hnode⟩ := read_eq_ok_iff.mp hmoved
    have hleads := leads_of_write hwritten
    obtain ⟨removed, hremoved, hkept, -, hothers⟩ := removeFile_eq_ok h
    rw [hleads.locate hsource] at hremoved
    cases hremoved
    rw [hleads.locate htarget] at hl
    cases hl
    refine read_eq_ok_iff.mpr ⟨target, hkept.locate (hleads.locate htarget), ?_⟩
    rw [hothers target fun he => hne he.symm]
    exact hnode

/-! ### Files that are added -/

/-- The files of a later tree are those of an earlier one, and some more. -/
def Adds (t t' : Tree) (P : Location → ByteArray → Prop) : Prop :=
  ∀ l content, t'.node? l = some (.file content) → t.node? l = some (.file content) ∨ P l content

variable {P Q : Location → ByteArray → Prop}

theorem Adds.trans {t'' : Tree} (h : t.Adds t' P) (h' : t'.Adds t'' P) : t.Adds t'' P :=
  fun l content hl => (h' l content hl).elim (h l content) .inr

theorem Adds.mono (h : t.Adds t' P) (hle : ∀ l content, P l content → Q l content) : t.Adds t' Q :=
  fun l content hl => (h l content hl).imp_right (hle l content)

/-- What a node is put at holds that node, and everything else is as before. -/
theorem adds_insert {node : Node} (l : Location) (h : ∀ content, node = .file content → P l content) :
    t.Adds ⟨t.nodes.insert l node⟩ P := by
  intro m content hm
  unfold node? at hm ⊢
  split at hm
  · cases hm
  · rename_i habove
    rw [if_neg habove]
    by_cases he : m = l
    · subst he
      rw [OrderedMap.get?_insert_self] at hm
      exact .inr (h content (Option.some.inj hm))
    · rw [OrderedMap.get?_insert_of_ne _ _ he] at hm
      exact .inl hm

theorem adds_write (h : t.write p content = .ok t') :
    t.Adds t' fun l c => l = p.destination ∧ c = content := by
  obtain ⟨l, hl, -, rfl⟩ := write_eq_ok h
  exact adds_insert l fun _ hc => ⟨locate_eq_destination hl, (Node.file.inj hc).symm⟩

theorem adds_removeFile (h : t.removeFile p = .ok t') : t.Adds t' P := by
  unfold removeFile at h
  obtain ⟨l, -, h⟩ := Except.bind_eq_ok.mp h
  split at h
  · cases h
    intro m content hm
    unfold node? at hm ⊢
    split at hm
    · cases hm
    · rename_i habove
      rw [if_neg habove]
      exact .inl (OrderedMap.get?_of_erase hm)
  · cases h
  · cases h

theorem adds_moveFile (h : t.moveFile q p = .ok t') (hread : t.read q = .ok content) :
    t.Adds t' fun l c => l = p.destination ∧ c = content := by
  unfold moveFile at h
  rw [hread] at h
  obtain ⟨_, hcontent, h⟩ := Except.bind_eq_ok.mp h
  cases hcontent
  obtain ⟨written, hwritten, h⟩ := Except.bind_eq_ok.mp h
  obtain ⟨source, -, h⟩ := Except.bind_eq_ok.mp h
  obtain ⟨target, -, h⟩ := Except.bind_eq_ok.mp h
  have hadds := adds_write hwritten
  split at h
  · cases h
    exact hadds
  · exact hadds.trans (adds_removeFile h)

/-- Making a directory adds no file. -/
theorem adds_makeDirectory (h : t.makeDirectory p = .ok t') : t.Adds t' P := by
  unfold makeDirectory at h
  obtain ⟨l, -, h⟩ := Except.bind_eq_ok.mp h
  split at h
  · cases h
  · cases h
    exact adds_insert l nofun

theorem adds_makeDirectories (root : String) (parts : List String) :
    ∀ t : Tree, t.Adds (t.makeDirectories root parts).1 P := by
  induction parts with
  | nil => exact fun t l content hl => .inl hl
  | cons last before ih =>
    intro t
    have hbefore := ih t
    have hsame : ∀ t : Tree, t.Adds t P := fun t l content hl => .inl hl
    rw [makeDirectories]
    dsimp only
    split
    · rename_i t' hmade
      exact adds_makeDirectory hmade
    -- The directory above is missing, so it is made first.
    · split
      · rename_i t' e hmade
        rw [hmade] at hbefore
        exact hbefore
      · rename_i t' hmade
        rw [hmade] at hbefore
        split
        · rename_i t'' hlast
          exact hbefore.trans (adds_makeDirectory hlast)
        · exact hbefore
    · exact hsame t

/-- A temporary file has its own ending. -/
theorem freshName_ending (t : Tree) (directory : Path) (stem : String) (fuel n : Nat) :
    ∃ before, t.freshName directory stem fuel n = before ++ ".tmp" := by
  fun_induction freshName t directory stem fuel n with
  | case1 n => exact ⟨_, rfl⟩
  | case2 n fuel name node hfound ih => exact ih
  | case3 n fuel name e hmissing => exact ⟨_, rfl⟩

end Files.Tree

namespace Cache

open Wiring.Files

/-- The location is that of a temporary file beside a path. -/
def IsTemporary (p : Path) (l : Location) : Prop :=
  ∃ stem : String, l = (p.parent.join (stem ++ ".tmp")).destination

/-- What putting a content of some kind at a path may leave. -/
def Leaves (p : Path) (P : ByteArray → Prop) (l : Location) (content : ByteArray) : Prop :=
  (l = p.destination ∧ P content) ∨ IsTemporary p l

/-- A text that takes the place of a file is the only file that is new, apart from a temporary
one. -/
theorem adds_replace (t : Tree) (p : Path) (s : String) :
    t.Adds (replace t p s).1 (Leaves p (· = s.toUTF8)) := by
  have hmade : t.Adds (t.ensureDirectory p.parent).1 (Leaves p (· = s.toUTF8)) :=
    Tree.adds_makeDirectories _ _ _
  unfold replace
  split
  · rename_i t' e hdirectory
    rw [hdirectory] at hmade
    exact hmade
  · rename_i t' hdirectory
    rw [hdirectory] at hmade
    dsimp only
    split
    · exact hmade
    · rename_i written hwritten
      -- The text is written beside the file first, to a name that is temporary.
      have htemporary : IsTemporary p (t'.temporaryBeside p).destination := by
        obtain ⟨stem, hstem⟩ := Tree.freshName_ending t' p.parent p.name t'.nodes.size 0
        exact ⟨stem, by rw [Tree.temporaryBeside, hstem]⟩
      have hput : t'.Adds written (Leaves p (· = s.toUTF8)) :=
        (Tree.adds_write hwritten).mono fun l content hl => .inr (hl.1 ▸ htemporary)
      split
      · rename_i moved hmoved
        have hmoved : written.Adds moved (Leaves p (· = s.toUTF8)) :=
          (Tree.adds_moveFile hmoved (Tree.read_of_write hwritten)).mono fun _ _ hl => .inl hl
        exact hmade.trans (hput.trans hmoved)
      · split
        · rename_i removed hremoved
          exact hmade.trans (hput.trans (Tree.adds_removeFile hremoved))
        · exact hmade.trans hput

/-- Writing a snapshot adds nothing but the snapshot and a temporary file. -/
theorem adds_write (t : Tree) (p : Path) (c : Container Definition) :
    t.Adds (write t p c).1
      (Leaves p fun content => ∃ s, Snapshot.dumps? c = some s ∧ content = s.toUTF8) := by
  unfold write
  cases hs : Snapshot.dumps? c with
  | none => exact fun l content hl => .inl hl
  | some s =>
    have hadds : t.Adds (replace t p s).1
        (Leaves p fun content => ∃ s', some s = some s' ∧ content = s'.toUTF8) :=
      (adds_replace t p s).mono fun l content hl => hl.imp_left fun hl => ⟨hl.1, s, rfl, hl.2⟩
    dsimp only
    cases hreplaced : replace t p s with
    | mk t' trouble =>
      rw [hreplaced] at hadds
      cases trouble <;> exact hadds

/-- A text that took the place of a file is what the file reads as. -/
theorem read_of_replace {t t' : Tree} {p : Path} {s : String} (h : replace t p s = (t', none)) :
    t'.read p = .ok s.toUTF8 := by
  unfold replace at h
  split at h
  · cases h
  · dsimp only at h
    split at h
    · cases h
    · rename_i written hwritten
      split at h
      · rename_i moved hmoved
        cases h
        exact Tree.read_of_moveFile hmoved (Tree.read_of_write hwritten)
      · split at h <;> cases h

/-- A file can be put at a path. -/
def Writable (t : Tree) (p : Path) : Prop := ∀ s, (replace t p s).2 = none

/-- Where a file can be put, a snapshot that is written is restored, if it gives its container
back. -/
theorem read_of_write {t : Tree} {p : Path} (hp : Writable t p) {c : Container Definition}
    {s : String} {k : Catalogue} (hs : Snapshot.dumps? c = some s) (hk : Snapshot.loads s = .ok k) :
    ∃ report, read (write t p c).1 p = .ok (some k, report) := by
  have hdone := hp s
  cases hreplaced : replace t p s with
  | mk t' trouble =>
    rw [hreplaced] at hdone
    cases hdone
    have hcontent := read_of_replace hreplaced
    refine ⟨[.restored k.size p], ?_⟩
    unfold write
    rw [hs]
    dsimp only
    rw [hreplaced]
    unfold read
    rw [hcontent]
    have htext : String.fromUTF8? s.toUTF8 = some s := dif_pos s.isValidUTF8
    dsimp only
    rw [htext]
    dsimp only
    rw [hk]

end Cache

end Wiring
