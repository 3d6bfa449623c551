import Wiring.Proofs.Caching

/-!
# `Wiring.Proofs.Replacing`: snapshots are written as a whole or not at all

A snapshot is written to a temporary file beside its path, which then takes the place of what was
there. `Cache.atomic_write` says what this comes to, whatever the tree: the path reads as the whole
text and nothing else changed, or no file changed at all. Only directories on the way to the path
may be new, and no temporary file is left.

That rests on two facts. A directory is never full: among one name more than it has entries, one is
free, so the temporary file replaces nothing (`Tree.find_temporaryBeside`). And each step touches
one location only, which is followed through the write as `Tree.Makes`.

A path may go up again from a directory that it made on its way, and so lead to that directory or
past it. Then a write that failed may have put something at the path (`writeCache_upwards`), which
no path without such a part allows.
-/

set_option autoImplicit false

namespace Wiring

namespace Files

/-- A location that the path goes through before its end. -/
def Path.Passes (p : Path) (l : Location) : Prop :=
  ∃ before after, p.parts = before ++ after ∧ after ≠ [] ∧ l = before.foldl Tree.enter []

/-- A path that never goes up does not pass its own end. -/
theorem Path.not_passes_destination {p : Path} (h : ".." ∉ p.parts) : ¬ p.Passes p.destination := by
  rintro ⟨before, after, hparts, hafter, hl⟩
  have hbefore : ".." ∉ before := fun hmem => h (hparts ▸ List.mem_append_left _ hmem)
  rw [destination, Tree.foldl_enter [] h, Tree.foldl_enter [] hbefore, hparts, List.nil_append,
    List.nil_append] at hl
  exact hafter (List.append_right_eq_self.mp hl)

namespace Tree

variable {t t' t'' : Tree} {p q : Path} {l : Location} {content : ByteArray}
  {P Q : Location → Prop}

/-! ### One location at a time -/

theorem node?_insert_self {node : Node} (h : isAbove l = false) :
    (⟨t.nodes.insert l node⟩ : Tree).node? l = some node := by
  rw [node?_of_not_above h, OrderedMap.get?_insert_self]

theorem node?_insert_of_ne {node : Node} {m : Location} (h : m ≠ l) :
    (⟨t.nodes.insert l node⟩ : Tree).node? m = t.node? m := by
  unfold node?
  rw [OrderedMap.get?_insert_of_ne _ _ h]

/-- What is there is found at the destination of its path. -/
theorem find_eq_ok_iff {node : Node} :
    t.find p = .ok node ↔ t.locate p = .ok p.destination ∧ t.node? p.destination = some node := by
  unfold find
  cases hlocate : t.locate p with
  | error e => simp [bind, Except.bind]
  | ok l =>
    obtain rfl := locate_eq_destination hlocate
    cases hnode : t.node? p.destination <;> simp [bind, Except.bind, hnode]

/-- Directories were made at some locations where nothing was, and everything else is as before. -/
def Makes (t t' : Tree) (P : Location → Prop) : Prop :=
  ∀ l, t'.node? l = t.node? l ∨ t.node? l = none ∧ t'.node? l = some .directory ∧ P l

theorem Makes.refl (t : Tree) (P : Location → Prop) : t.Makes t P := fun _ => .inl rfl

theorem Makes.trans (h : t.Makes t' P) (h' : t'.Makes t'' P) : t.Makes t'' P := by
  intro l
  rcases h' l with hsame | ⟨hnone, hmade, hl⟩
  · rw [hsame]
    exact h l
  · rcases h l with hsame' | ⟨-, hmade', -⟩
    · exact .inr ⟨hsame' ▸ hnone, hmade, hl⟩
    · rw [hnone] at hmade'
      cases hmade'

theorem Makes.mono (h : t.Makes t' P) (hle : ∀ l, P l → Q l) : t.Makes t' Q :=
  fun l => (h l).imp_right fun hl => ⟨hl.1, hl.2.1, hle l hl.2.2⟩

/-- What is there stays. -/
theorem Makes.node? (h : t.Makes t' P) {node : Node} (hl : t.node? l = some node) :
    t'.node? l = some node := by
  rcases h l with hsame | ⟨hnone, -⟩
  · rw [hsame, hl]
  · rw [hl] at hnone
    cases hnone

theorem Makes.leads (h : t.Makes t' P) : t.Leads t' := fun _ hl => h.node? hl

theorem makes_makeDirectory (h : t.makeDirectory p = .ok t') : t.Makes t' (· = p.destination) := by
  unfold makeDirectory at h
  obtain ⟨l, hl, h⟩ := Except.bind_eq_ok.mp h
  split at h
  · cases h
  · rename_i hnone
    cases h
    intro m
    by_cases hm : m = l
    · subst hm
      have habove : isAbove m = false := not_above (by rw [hnone]; exact nofun)
      exact .inr ⟨hnone, node?_insert_self habove, locate_eq_destination hl⟩
    · exact .inl (node?_insert_of_ne hm)

/-- Directories are made on the way to a path only, whose parts are given in reverse. -/
theorem makes_makeDirectories (root : String) (parts : List String) (t : Tree) :
    t.Makes (t.makeDirectories root parts).1
      fun l => ∃ before after, parts.reverse = before ++ after ∧ l = before.foldl enter [] := by
  induction parts generalizing t with
  | nil => exact .refl _ _
  | cons last before ih =>
    have hlonger : ∀ l, (∃ some after, before.reverse = some ++ after ∧ l = some.foldl enter []) →
        ∃ some after, (last :: before).reverse = some ++ after ∧ l = some.foldl enter [] := by
      rintro l ⟨some, after, hparts, rfl⟩
      exact ⟨some, after ++ [last], by rw [List.reverse_cons, hparts, List.append_assoc], rfl⟩
    have hlast : ∀ {t t' : Tree}, t.makeDirectory ⟨root, (last :: before).reverse⟩ = .ok t' →
        t.Makes t' fun l => ∃ some after, (last :: before).reverse = some ++ after ∧
          l = some.foldl enter [] := fun h =>
      (makes_makeDirectory h).mono fun l hl => ⟨_, [], (List.append_nil _).symm, hl⟩
    have hbefore := (ih t).mono hlonger
    rw [makeDirectories]
    dsimp only
    split
    · exact hlast ‹_›
    -- The directory above is missing, so it is made first.
    · split
      · rename_i hmade
        rw [hmade] at hbefore
        exact hbefore
      · rename_i hmade
        rw [hmade] at hbefore
        split
        · exact hbefore.trans (hlast ‹_›)
        · exact hbefore
    · exact .refl _ _

/-- So the directories that are made for a file are passed on the way to it. -/
theorem makes_ensureDirectory (t : Tree) (p : Path) :
    t.Makes (t.ensureDirectory p.parent).1 p.Passes := by
  unfold ensureDirectory Path.parent
  dsimp only
  rcases List.eq_nil_or_concat' p.parts with hparts | ⟨front, last, hparts⟩
  · rw [hparts]
    exact .refl _ _
  · rw [hparts, List.dropLast_concat]
    refine (makes_makeDirectories _ _ t).mono ?_
    rintro l ⟨before, after, hfront, rfl⟩
    rw [List.reverse_reverse] at hfront
    exact ⟨before, after ++ [last], by rw [hparts, hfront, List.append_assoc], by simp, rfl⟩

/-! ### Temporary names -/

theorem toList_eightDigits (n : Nat) : ∃ k,
    (eightDigits n).toList = List.replicate k '0' ++ Nat.toDigits 10 n := by
  refine ⟨8 - (toString n).length, ?_⟩
  unfold eightDigits
  simp [String.toList_append]

theorem ofDigitChars_zeros (k : Nat) (cs : List Char) :
    Nat.ofDigitChars 10 (List.replicate k '0' ++ cs) 0 = Nat.ofDigitChars 10 cs 0 := by
  induction k with
  | zero => rfl
  | succ k ih => simpa [List.replicate_succ, Nat.ofDigitChars] using ih

theorem eightDigits_injective : Function.Injective eightDigits := by
  intro n m h
  obtain ⟨k, hk⟩ := toList_eightDigits n
  obtain ⟨k', hk'⟩ := toList_eightDigits m
  have hvalue := congrArg (fun s : String => Nat.ofDigitChars 10 s.toList 0) h
  simp only [hk, hk', ofDigitChars_zeros] at hvalue
  rwa [Nat.ofDigitChars_ten_toDigits, Nat.ofDigitChars_ten_toDigits] at hvalue

theorem isDigit_of_mem_eightDigits {n : Nat} {c : Char} (h : c ∈ (eightDigits n).toList) :
    c.isDigit = true := by
  obtain ⟨k, hk⟩ := toList_eightDigits n
  rw [hk, List.mem_append] at h
  rcases h with h | h
  · rw [List.eq_of_mem_replicate h]
    rfl
  · exact Nat.isDigit_of_mem_toDigits (by decide) (by decide) h

/-- The temporary name with a number. -/
def numbered (stem : String) (n : Nat) : String := stem ++ "." ++ eightDigits n ++ ".tmp"

/-- What stands in front of the first occurrence of a character. -/
theorem before_first {c : Char} : ∀ {before before' after after' : List Char},
    before ++ c :: after = before' ++ c :: after' → c ∉ before → c ∉ before' → before = before'
  | [], [], _, _, _, _, _ => rfl
  | [], d :: before', _, _, h, _, hfree => by
    obtain ⟨rfl, -⟩ := List.cons.inj h
    exact absurd List.mem_cons_self hfree
  | d :: before, [], _, _, h, hfree, _ => by
    obtain ⟨rfl, -⟩ := List.cons.inj h
    exact absurd List.mem_cons_self hfree
  | d :: before, d' :: before', _, _, h, hfree, hfree' => by
    obtain ⟨rfl, hrest⟩ := List.cons.inj h
    rw [before_first hrest (fun hmem => hfree (List.mem_cons_of_mem _ hmem))
      fun hmem => hfree' (List.mem_cons_of_mem _ hmem)]

/-- What stands behind the last occurrence of a character. -/
theorem behind_last {c : Char} {before before' after after' : List Char}
    (h : before ++ c :: after = before' ++ c :: after') (hafter : c ∉ after)
    (hafter' : c ∉ after') : after = after' := by
  have hreversed :
      after.reverse ++ c :: before.reverse = after'.reverse ++ c :: before'.reverse := by
    simpa using congrArg List.reverse h
  exact List.reverse_injective
    (before_first hreversed (by simpa using hafter) (by simpa using hafter'))

/-- Temporary files with different numbers have different places, none of which is above the
tree. -/
theorem destination_numbered {directory : Path} {stem : String} {n : Nat} :
    isAbove (directory.join (numbered stem n)).destination = false ∧
      ∀ m, (directory.join (numbered stem m)).destination
          = (directory.join (numbered stem n)).destination → m = n := by
  have hspelled : ∀ n, numbered stem n
      = String.ofList (stem.toList ++ ('.' :: (eightDigits n).toList ++ ".tmp".toList)) := by
    intro n
    apply String.toList_injective
    simp [numbered, String.toList_append]
  have hdot : ∀ n, '.' ∉ (eightDigits n).toList := fun n h => by
    have hdigit := isDigit_of_mem_eightDigits h
    revert hdigit
    decide
  have hslash : ∀ n, '/' ∉ '.' :: (eightDigits n).toList ++ ".tmp".toList := fun n h => by
    rw [List.mem_append, List.mem_cons] at h
    rcases h with (h | h) | h
    · cases h
    · have hdigit := isDigit_of_mem_eightDigits h
      revert hdigit
      decide
    · revert h
      decide
  have hplace : ∀ n, ∃ before last, (directory.join (numbered stem n)).destination
      = before ++ [String.ofList (last ++ ('.' :: (eightDigits n).toList ++ ".tmp".toList))] :=
    fun n => hspelled n ▸ Path.destination_of_ending (hslash n) (by simp) directory stem.toList
  obtain ⟨before, last, hn⟩ := hplace n
  refine ⟨?_, fun m hm => ?_⟩
  · rw [hn]
    unfold isAbove
    simp only [List.all_append, Bool.and_eq_false_imp, List.all_cons, List.all_nil, Bool.and_true,
      decide_eq_false_iff_not]
    intro _ hdots
    have hlength := congrArg String.length hdots
    have htwo : "..".length = 2 := by decide
    have htmp : ".tmp".toList.length = 4 := by decide
    rw [String.length_ofList, List.length_append, List.length_append, htmp, htwo] at hlength
    omega
  · -- What stands between the last two dots of the name is the number.
    obtain ⟨before', last', hm'⟩ := hplace m
    rw [hm, hn] at hm'
    have hlast := congrArg List.getLast? hm'
    rw [List.getLast?_concat, List.getLast?_concat] at hlast
    have hname := String.ofList_injective (Option.some.inj hlast)
    rw [← List.append_assoc, ← List.append_assoc] at hname
    have hdigits := behind_last (List.append_cancel_right hname) (hdot n) (hdot m)
    exact (eightDigits_injective (String.toList_injective hdigits)).symm

/-- If the chosen name is taken, so are all names that were tried before it. -/
theorem find_numbered_of_freshName {directory : Path} {stem : String} {fuel n : Nat} {node : Node}
    (h : t.find (directory.join (t.freshName directory stem fuel n)) = .ok node) :
    ∀ i ≤ fuel, ∃ node, t.find (directory.join (numbered stem (n + i))) = .ok node := by
  fun_induction freshName t directory stem fuel n with
  | case1 n =>
    intro i hi
    rw [Nat.le_zero.mp hi, Nat.add_zero]
    unfold numbered
    exact ⟨node, h⟩
  | case2 n fuel name node' hfound ih =>
    intro i hi
    cases i with
    | zero =>
      rw [Nat.add_zero]
      unfold numbered
      exact ⟨node', hfound⟩
    | succ i =>
      rw [Nat.add_succ, ← Nat.succ_add]
      exact ih h i (Nat.le_of_succ_le_succ hi)
  | case3 n fuel name e hmissing =>
    rw [hmissing] at h
    cases h

/-- Nothing stands at the temporary path: more names are tried than there are files. -/
theorem find_temporaryBeside (t : Tree) (p : Path) (node : Node) :
    t.find (t.temporaryBeside p) ≠ .ok node := by
  intro h
  have htaken := find_numbered_of_freshName h
  let place := fun n => (p.parent.join (numbered p.name n)).destination
  have hknown : ∀ n ≤ t.nodes.size, place n ∈ t.nodes.keys := by
    intro n hn
    obtain ⟨node, hnode⟩ := htaken n hn
    rw [Nat.zero_add] at hnode
    have hthere := (find_eq_ok_iff.mp hnode).2
    rw [node?_of_not_above destination_numbered.1] at hthere
    by_contra hnew
    rw [OrderedMap.get?_eq_none_iff.mpr hnew] at hthere
    cases hthere
  have hnodup : ((List.range (t.nodes.size + 1)).map place).Nodup :=
    List.Nodup.map (fun m n hmn => destination_numbered.2 m hmn) List.nodup_range
  have hsub : (List.range (t.nodes.size + 1)).map place ⊆ t.nodes.keys := by
    intro l hl
    obtain ⟨n, hn, rfl⟩ := List.mem_map.mp hl
    exact hknown n (Nat.le_of_lt_succ (List.mem_range.mp hn))
  have hlength := (List.subperm_of_subset hnodup hsub).length_le
  rw [List.length_map, List.length_range, OrderedMap.keys, List.length_map] at hlength
  exact absurd hlength (Nat.not_succ_le_self _)

/-! ### Moving a file -/

/-- A file that is moved leaves its old place, and nothing else but the new place changes. -/
theorem moveFile_eq_ok (h : t.moveFile q p = .ok t') :
    ∀ l, l ≠ p.destination →
      t'.node? l = if l = q.destination then none else t.node? l := by
  unfold moveFile at h
  obtain ⟨content, hread, h⟩ := Except.bind_eq_ok.mp h
  obtain ⟨written, hwritten, h⟩ := Except.bind_eq_ok.mp h
  obtain ⟨source, hsource, h⟩ := Except.bind_eq_ok.mp h
  obtain ⟨target, htarget, h⟩ := Except.bind_eq_ok.mp h
  obtain ⟨l, hl, -, rfl⟩ := write_eq_ok hwritten
  obtain rfl := locate_eq_destination hl
  obtain rfl := locate_eq_destination hsource
  obtain rfl := locate_eq_destination htarget
  intro m hm
  split at h
  · rename_i hsame
    cases h
    rw [if_neg (hsame ▸ hm), node?_insert_of_ne hm]
  · obtain ⟨removed, hremoved, -, hnone, hothers⟩ := removeFile_eq_ok h
    obtain rfl := locate_eq_destination hremoved
    split
    · rename_i hq
      rw [hq, hnone]
    · rename_i hq
      rw [hothers m hq, node?_insert_of_ne hm]

/-! ### Rooted trees -/

/-- Whatever is there is in a directory that is there. -/
def Rooted (t : Tree) : Prop := ∀ l name, t.node? (l ++ [name]) ≠ none → t.node? l = some .directory

theorem rooted_empty : Tree.empty.Rooted := by
  intro l name h
  have habove : isAbove (l ++ [name]) = true := by
    by_contra hbelow
    rw [node?_of_not_above (by simpa using hbelow)] at h
    exact h rfl
  unfold isAbove at habove
  rw [List.all_append, Bool.and_eq_true] at habove
  rw [node?, isAbove, if_pos habove.1]

/-- All directories above what is there are there. -/
theorem Rooted.above (h : t.Rooted) {more : Location} (hmore : more ≠ [])
    (hl : t.node? (l ++ more) ≠ none) : t.node? l = some .directory := by
  induction more using List.reverseRecOn with
  | nil => exact absurd rfl hmore
  | append_singleton front name ih =>
    rw [← List.append_assoc] at hl
    have hfront := h _ _ hl
    cases front with
    | nil => rwa [List.append_nil] at hfront
    | cons first rest => exact ih nofun (by rw [hfront]; exact nofun)

/-- A name leads from a directory to a place in a directory. -/
theorem Rooted.enter (h : t.Rooted) {here : Location} (hhere : t.node? here = some .directory)
    {part : String} {name : String} (hl : Tree.enter here part = l ++ [name]) :
    t.node? l = some .directory := by
  unfold Tree.enter at hl
  split at hl
  · -- Going up leads to a directory that is there.
    obtain ⟨front, last, rfl⟩ := (List.eq_nil_or_concat' here).resolve_left
      fun hnil => by rw [hnil] at hl; exact absurd hl (by simp)
    rw [List.dropLast_concat] at hl
    have hfront := h _ _ (by rw [hhere]; exact nofun)
    exact h l name (by rw [← hl, hfront]; exact nofun)
  · rw [← (List.append_inj' hl rfl).1]
    exact hhere

/-- A path that can be followed leads to a place in a directory. -/
theorem Rooted.walk (h : t.Rooted) (parts : List String) :
    ∀ {here : Location}, t.node? here = some .directory → ∀ {name : String},
      parts ≠ [] → t.walk here parts = .ok (l ++ [name]) → t.node? l = some .directory := by
  induction parts with
  | nil => exact fun _ _ hne => absurd rfl hne
  | cons part rest ih =>
    intro here hhere name _ hwalk
    rw [Tree.walk] at hwalk
    split_ifs at hwalk with hlong hlast
    · exact h.enter hhere (Except.ok.inj hwalk)
    · split at hwalk
      · exact ih ‹_› (fun hnil => hlast (by rw [hnil]; rfl)) hwalk
      · cases hwalk
      · cases hwalk

theorem Rooted.locate (h : t.Rooted) {name : String} (hl : t.locate p = .ok (l ++ [name])) :
    t.node? l = some .directory := by
  unfold Tree.locate at hl
  split_ifs at hl
  refine h.walk p.parts (by rfl) (fun hnil => ?_) hl
  rw [hnil] at hl
  exact absurd (Except.ok.inj hl) (by simp)

/-- What is put where a path leads is in a directory, and takes the place of none. -/
theorem Rooted.insert (h : t.Rooted) (hl : t.locate p = .ok l)
    (hnode : t.node? l ≠ some .directory) (node : Node) :
    Rooted ⟨t.nodes.insert l node⟩ := by
  intro m name hm
  have hparent : t.node? m = some .directory := by
    by_cases hsame : m ++ [name] = l
    · exact h.locate (hsame ▸ hl)
    · rw [node?_insert_of_ne hsame] at hm
      exact h m name hm
  have hne : m ≠ l := by
    rintro rfl
    exact hnode hparent
  rw [node?_insert_of_ne hne]
  exact hparent

theorem rooted_removeFile (h : t.Rooted) (hremoved : t.removeFile p = .ok t') : t'.Rooted := by
  obtain ⟨l, -, hleads, hnone, hothers⟩ := removeFile_eq_ok hremoved
  intro m name hm
  have hne : m ++ [name] ≠ l := fun he => hm (he ▸ hnone)
  exact hleads m (h m name (by rwa [← hothers _ hne]))

theorem rooted_write (h : t.Rooted) (hwritten : t.write p content = .ok t') : t'.Rooted := by
  obtain ⟨l, hl, hnode, rfl⟩ := write_eq_ok hwritten
  exact h.insert hl hnode _

theorem rooted_moveFile (h : t.Rooted) (hmoved : t.moveFile q p = .ok t') : t'.Rooted := by
  unfold moveFile at hmoved
  obtain ⟨content, -, hmoved⟩ := Except.bind_eq_ok.mp hmoved
  obtain ⟨written, hwritten, hmoved⟩ := Except.bind_eq_ok.mp hmoved
  obtain ⟨source, -, hmoved⟩ := Except.bind_eq_ok.mp hmoved
  obtain ⟨target, -, hmoved⟩ := Except.bind_eq_ok.mp hmoved
  split at hmoved
  · cases hmoved
    exact rooted_write h hwritten
  · exact rooted_removeFile (rooted_write h hwritten) hmoved

theorem rooted_makeDirectory (h : t.Rooted) (hmade : t.makeDirectory p = .ok t') : t'.Rooted := by
  unfold makeDirectory at hmade
  obtain ⟨l, hl, hmade⟩ := Except.bind_eq_ok.mp hmade
  split at hmade
  · cases hmade
  · rename_i hnone
    cases hmade
    exact h.insert hl (by rw [hnone]; exact nofun) _

theorem rooted_makeDirectories (root : String) (parts : List String) (h : t.Rooted) :
    (t.makeDirectories root parts).1.Rooted := by
  induction parts generalizing t with
  | nil => exact h
  | cons last before ih =>
    have hbefore := ih h
    rw [makeDirectories]
    dsimp only
    split
    · exact rooted_makeDirectory h ‹_›
    · split
      · rename_i hmade
        rw [hmade] at hbefore
        exact hbefore
      · rename_i hmade
        rw [hmade] at hbefore
        split
        · exact rooted_makeDirectory hbefore ‹_›
        · exact hbefore
    · exact h

/-- In a rooted tree a path that never goes up is followed to what stands at its end, if its names
are not too long. -/
theorem Rooted.walk_of_node? (h : t.Rooted) (parts : List String) :
    ∀ {here : Location}, ".." ∉ parts → t'.walk here parts = .ok l →
      t.node? (here ++ parts) ≠ none → t.walk here parts = .ok l := by
  induction parts with
  | nil => exact fun _ hwalk _ => hwalk
  | cons part rest ih =>
    intro here hup hwalk hnode
    rw [List.mem_cons, not_or] at hup
    have henter : Tree.enter here part = here ++ [part] := by
      simp [Tree.enter, Ne.symm hup.1]
    rw [Tree.walk] at hwalk ⊢
    split_ifs at hwalk ⊢ with hlong hlast
    · exact hwalk
    · rw [← List.singleton_append, ← List.append_assoc] at hnode
      have hne : rest ≠ [] := fun hnil => hlast (by rw [hnil]; rfl)
      rw [henter] at hwalk ⊢
      rw [h.above hne hnode]
      dsimp only
      split at hwalk
      · exact ih hup.2 hwalk hnode
      · cases hwalk
      · cases hwalk

theorem Rooted.find (h : t.Rooted) (hup : ".." ∉ p.parts) {node : Node}
    (hfound : t'.find p = .ok node) (hnode : t.node? p.destination = some node) :
    t.find p = .ok node := by
  refine find_eq_ok_iff.mpr ⟨?_, hnode⟩
  have hlocate := (find_eq_ok_iff.mp hfound).1
  unfold Tree.locate at hlocate ⊢
  split_ifs at hlocate ⊢
  refine h.walk_of_node? p.parts hup hlocate ?_
  rw [← foldl_enter [] hup]
  show t.node? p.destination ≠ none
  rw [hnode]
  exact nofun

end Tree

end Files

namespace Cache

open Wiring.Files

variable {t t' : Tree} {p : Path}

/-- A file that was just written can be removed. -/
theorem removeFile_of_write {content : ByteArray} (h : t.write p content = .ok t') :
    ∃ t'', t'.removeFile p = .ok t'' := by
  obtain ⟨l, hl, hnode⟩ := Tree.read_eq_ok_iff.mp (Tree.read_of_write h)
  unfold Tree.removeFile
  rw [hl]
  exact ⟨_, by simp [bind, Except.bind, hnode]; rfl⟩

/-- A text that takes the place of a file changes nothing else, and one that does not changes
nothing, apart from the directories on the way. -/
theorem makes_replace (t : Tree) (p : Path) (s : String) (l : Location)
    (hl : (replace t p s).2 = none → l ≠ p.destination) :
    (replace t p s).1.node? l = t.node? l ∨
      t.node? l = none ∧ (replace t p s).1.node? l = some .directory ∧ p.Passes l := by
  have hmade := Tree.makes_ensureDirectory t p l
  revert hl
  unfold replace
  cases hdirectory : t.ensureDirectory p.parent with
  | mk made trouble =>
  rw [hdirectory] at hmade
  cases trouble with
  | some e => exact fun _ => hmade
  | none =>
  dsimp only
  cases hwritten : made.write (made.temporaryBeside p) s.toUTF8 with
  | error e => exact fun _ => hmade
  | ok written =>
  dsimp only
  obtain ⟨place, hplace, -, hinsert⟩ := Tree.write_eq_ok hwritten
  obtain rfl := Tree.locate_eq_destination hplace
  -- The temporary file is new, so it is the only difference until it is gone.
  have hfree : made.node? (made.temporaryBeside p).destination = none := by
    by_contra hnode
    obtain ⟨node, hnode⟩ := Option.ne_none_iff_exists'.mp hnode
    exact Tree.find_temporaryBeside made p node (Tree.find_eq_ok_iff.mpr ⟨hplace, hnode⟩)
  have hsame : ∀ {u : Tree}, (u.node? l = if l = (made.temporaryBeside p).destination then none
      else written.node? l) → u.node? l = made.node? l := by
    intro u hu
    rw [hu]
    split
    · rename_i he
      rw [he, hfree]
    · rename_i hne
      rw [hinsert, Tree.node?_insert_of_ne hne]
  cases hmoved : written.moveFile (made.temporaryBeside p) p with
  | ok moved =>
    intro hl
    have hlast := hsame (Tree.moveFile_eq_ok hmoved l (hl rfl))
    rw [hlast]
    exact hmade
  | error e =>
    obtain ⟨removed, hremoved⟩ := removeFile_of_write hwritten
    obtain ⟨gone, hgone, -, hnone, hothers⟩ := Tree.removeFile_eq_ok hremoved
    obtain rfl := Tree.locate_eq_destination hgone
    dsimp only
    rw [hremoved]
    intro _
    have hlast := hsame (u := removed) (by
      split
      · rename_i he
        rw [he, hnone]
      · rename_i hne
        exact hothers l hne)
    rw [hlast]
    exact hmade

/-- A tree stays rooted. -/
theorem rooted_replace (h : t.Rooted) (p : Path) (s : String) : (replace t p s).1.Rooted := by
  have hmade : (t.ensureDirectory p.parent).1.Rooted := Tree.rooted_makeDirectories _ _ h
  unfold replace
  split
  · rename_i hdirectory
    rw [hdirectory] at hmade
    exact hmade
  · rename_i hdirectory
    rw [hdirectory] at hmade
    dsimp only
    split
    · exact hmade
    · rename_i hwritten
      have hput := Tree.rooted_write hmade hwritten
      split
      · exact Tree.rooted_moveFile hput ‹_›
      · split
        · exact Tree.rooted_removeFile hput ‹_›
        · exact hput

end Cache

/-! ### Values without a form -/

/-- A value has no form in a snapshot, inside of the collections of some places: it or something in
it is a byte string, an object that is no plain data of its own, a component, a path, a parser or
another value of the host program, a whole number of too many digits, or a collection inside of
itself. -/
inductive Store.Formless (s : Store) : List Nat → Value → Prop
  | bytes (way : List Nat) (data : List UInt8) : Formless s way (.bytes data)
  | object (way : List Nat) (id : Nat) (h : (s.objects[id]?).bind Object.part = none) :
    Formless s way (.object id)
  | component (way : List Nat) (c : Component) (parts : List (String × Value)) :
    Formless s way (.component c parts)
  | path (way : List Nat) (p : Files.Path) : Formless s way (.path p)
  | parser (way : List Nat) (p : Parser Nat) : Formless s way (.parser p)
  | other (way : List Nat) (className : String) : Formless s way (.other className)
  | digits (way : List Nat) (n : Int)
    (h : Json.digitLimit < (Nat.toDigits 10 n.natAbs).length) : Formless s way (.int n)
  | listInside {way : List Nat} {place : Nat} (h : place ∈ way) (items : List Value) :
    Formless s way (.list (some place) items)
  | mapInside {way : List Nat} {place : Nat} (h : place ∈ way) (entries : List (Value × Value)) :
    Formless s way (.map (some place) entries)
  | item {way : List Nat} {place : Option Nat} {items : List Value} {v : Value} (hv : v ∈ items)
    (h : Formless s (place.toList ++ way) v) : Formless s way (.list place items)
  | key {way : List Nat} {place : Option Nat} {entries : List (Value × Value)} {k v : Value}
    (hk : (k, v) ∈ entries) (h : Formless s [] k) : Formless s way (.map place entries)
  | value {way : List Nat} {place : Option Nat} {entries : List (Value × Value)} {k v : Value}
    (hv : (k, v) ∈ entries) (h : Formless s (place.toList ++ way) v) :
    Formless s way (.map place entries)

namespace Json

theorem itemsObstacle?_ne_none {way : List Nat} {items : List Value} {v : Value} (hv : v ∈ items)
    (h : obstacle? way v ≠ none) : itemsObstacle? way items ≠ none := by
  induction items with
  | nil => cases hv
  | cons first rest ih =>
    rw [itemsObstacle?, ne_eq, Option.or_eq_none_iff, not_and_or]
    rcases List.mem_cons.mp hv with rfl | hv
    · exact .inl h
    · exact .inr (ih hv)

theorem entriesObstacle?_ne_none {way : List Nat} {entries : List (Value × Value)} {k v : Value}
    (hv : (k, v) ∈ entries) (h : scalarObstacle? k ≠ none ∨ obstacle? way v ≠ none) :
    entriesObstacle? way entries ≠ none := by
  induction entries with
  | nil => cases hv
  | cons first rest ih =>
    rw [entriesObstacle?, ne_eq, Option.or_eq_none_iff, Option.or_eq_none_iff, not_and_or,
      not_and_or]
    rcases List.mem_cons.mp hv with rfl | hv
    · exact h.imp_right .inl
    · exact .inr (.inr (ih hv))

/-- A value that meets no obstacle as a document meets none as a key, unless it is a collection. -/
theorem scalarObstacle?_ne_none {way : List Nat} {k : Value} (h : obstacle? way k ≠ none) :
    scalarObstacle? k ≠ none := by
  cases k with
  | list place items => exact nofun
  | map place entries => exact nofun
  | _ => exact h

/-- What has no form meets an obstacle. -/
theorem obstacle?_of_formless {s : Store} {way : List Nat} {v : Value} (h : s.Formless way v) :
    obstacle? way v ≠ none := by
  induction h with
  | bytes | object | component | path | parser | other => exact Option.some_ne_none _
  | digits way n h =>
    show scalarObstacle? (.int n) ≠ none
    rw [scalarObstacle?, if_pos h]
    exact Option.some_ne_none _
  | listInside h items =>
    rw [obstacle?, if_pos (by simpa using h)]
    exact Option.some_ne_none _
  | mapInside h entries =>
    rw [obstacle?, if_pos (by simpa using h)]
    exact Option.some_ne_none _
  | item hv _ ih =>
    rw [obstacle?]
    split
    · exact Option.some_ne_none _
    · exact itemsObstacle?_ne_none hv ih
  | key hk _ ih =>
    rw [obstacle?]
    split
    · exact Option.some_ne_none _
    · exact entriesObstacle?_ne_none hk (.inl (scalarObstacle?_ne_none ih))
  | value hv _ ih =>
    rw [obstacle?]
    split
    · exact Option.some_ne_none _
    · exact entriesObstacle?_ne_none hv (.inr ih)

end Json

/-! ### Writing a snapshot -/

namespace Store

open Wiring.Files

variable {s : Store} {t t' : Tree} {p : Path} {r : Ref ContainerCell}

/-- A property of an argument of the container has no form in a snapshot. -/
def HoldsFormless (s : Store) (r : Ref ContainerCell) : Prop :=
  ∃ e ∈ (s.container r).entries, ∃ a ∈ e.2.allArguments, ∃ x ∈ a.properties,
    s.Formless [] x.1 ∨ s.Formless [] x.2

/-- A container with such a property has no text. -/
theorem HoldsFormless.dumps?_eq_none (h : s.HoldsFormless r) :
    Snapshot.dumps? (s.container r) = none := by
  obtain ⟨e, he, a, ha, x, hx, hformless⟩ := h
  by_contra hsome
  have hnone := (Snapshot.dumps?_isSome_iff _).mp (Option.isSome_iff_ne_none.mpr hsome) e he a ha
  refine absurd hnone (Json.entriesObstacle?_ne_none hx ?_)
  exact hformless.imp (fun hk => Json.scalarObstacle?_ne_none (Json.obstacle?_of_formless hk))
    Json.obstacle?_of_formless

/-- What has become of the files after the attempt to write the snapshot of a container. -/
structure Written (s : Store) (p : Path) (r : Ref ContainerCell) (done : Bool) (t : Tree) :
    Prop where
  /-- A snapshot that was written is the whole content of the file. -/
  whole : done = true → ∃ text, Snapshot.dumps? (s.container r) = some text ∧
    t.read p = .ok text.toUTF8
  /-- All else is as before, but for directories that were missing on the way. -/
  others : ∀ l, (done = true → l ≠ p.destination) → t.node? l = s.files.node? l ∨
    s.files.node? l = none ∧ t.node? l = some .directory ∧ p.Passes l
  /-- What was found at the path is still found there if nothing was written. -/
  kept : done = false → ∀ node, s.files.find p = .ok node → t.find p = .ok node
  /-- A path that never goes up leads to nothing else either. -/
  missing : done = false → s.files.Rooted → ".." ∉ p.parts → ∀ node, t.find p = .ok node →
    s.files.find p = .ok node
  rooted : s.files.Rooted → t.Rooted
  refused : s.HoldsFormless r → done = false

/-- What is found after an attempt that changed no file. -/
theorem find_of_makes (h : s.files.Makes t p.Passes) :
    (∀ node, s.files.find p = .ok node → t.find p = .ok node) ∧
      (s.files.Rooted → ".." ∉ p.parts → ∀ node, t.find p = .ok node →
        s.files.find p = .ok node) := by
  refine ⟨fun node hfound => ?_, fun hrooted hup node hfound => ?_⟩
  · obtain ⟨hlocate, hnode⟩ := Tree.find_eq_ok_iff.mp hfound
    exact Tree.find_eq_ok_iff.mpr ⟨h.leads.locate hlocate, h.node? hnode⟩
  · refine hrooted.find hup hfound ?_
    have hnode := (Tree.find_eq_ok_iff.mp hfound).2
    rcases h p.destination with hsame | ⟨-, -, hpasses⟩
    · rw [← hsame, hnode]
    · exact absurd hpasses (Path.not_passes_destination hup)

/-- A snapshot is written as a whole or not at all, and no attempt fails. Either the path then reads
as the text of the container, or what stood there before is unchanged. In both cases no other file
and no other directory changes, no temporary file is left, and at most directories that were missing
on the way to the path are new. -/
theorem writeCache_atomic (s : Store) (p : Path) (r : Ref ContainerCell) :
    ∃ done t events, (writeCache p r).run s
        = (.ok done, { s with files := t, log := s.log ++ events }) ∧ s.Written p r done t := by
  refine ⟨_, _, _, run_writeCache p r s, ?_⟩
  cases htext : Snapshot.dumps? (s.container r) with
  | none =>
    obtain ⟨hkept, hmissing⟩ := find_of_makes (s := s) (p := p) (Tree.Makes.refl s.files _)
    simp only [Cache.write, htext]
    exact ⟨nofun, fun _ _ => .inl rfl, fun _ => hkept, fun _ => hmissing, id, fun _ => rfl⟩
  | some text =>
    have hmade := Cache.makes_replace s.files p text
    have hrooted := fun h : s.files.Rooted => Cache.rooted_replace h p text
    have hrefused : ¬ s.HoldsFormless r := fun h => by
      rw [h.dumps?_eq_none] at htext
      cases htext
    cases hreplaced : Cache.replace s.files p text with
    | mk t trouble =>
    rw [hreplaced] at hmade hrooted
    cases trouble with
    | none =>
      simp only [Cache.write, htext, hreplaced]
      exact ⟨fun _ => ⟨text, htext, Cache.read_of_replace hreplaced⟩,
        fun l hl => hmade l fun _ => hl rfl, (nomatch ·), (nomatch ·), hrooted,
        fun h => absurd h hrefused⟩
    | some e =>
      obtain ⟨hkept, hmissing⟩ := find_of_makes (s := s) fun l => hmade l (nomatch ·)
      simp only [Cache.write, htext, hreplaced]
      exact ⟨(nomatch ·), fun l _ => hmade l (nomatch ·), fun _ => hkept, fun _ => hmissing,
        hrooted, fun h => absurd h hrefused⟩

/-- A path that goes up again from a directory that is missing leads to that directory once it was
made on the way. The snapshot is not written there, but something is at the path that was not. -/
theorem writeCache_upwards :
    let p := Path.ofText "x/../x"
    (Store.empty default).files.find p = .error .missing ∧
      ∃ t, (writeCache p ⟨0⟩).run (Store.empty default)
          = (.ok false, t) ∧ t.files.find p = .ok .directory :=
  ⟨by rfl, _, by rfl, by rfl⟩

end Store

end Wiring
