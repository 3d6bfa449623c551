import Mathlib.Data.List.Basic
import Wiring.Proofs.Configuring
import Wiring.Store.Configs

/-!
# `Wiring.Proofs.IniFiles`: which of several ini files decides

Files are read in turn into one document. `Document.read_eq_merge` takes this apart: it is the same
to read a file on its own and to merge what it holds. Merging lists sections, and options within a
section, in the order in which they first come up, each with its last value. That reading does not
depend on what was read before is shown for each step of a cursor (`Cursor.Uniform`).

The configuration of a document sets its options in the order of this listing, so under a key the
last option counts that is not beside it (`Config.node?_foldl_setLeaf_append`). Options of different
sections can come to the same key, or to keys on the way to each other. Then the listing and the
order of the files may disagree: `configValue_of_ini` says when the last file decides, and
`configValue_of_ini_hidden` shows a value that an earlier file hides.
-/

set_option autoImplicit false

namespace Wiring

/-! ### Maps that are combined -/

namespace OrderedMap

variable {κ ν μ : Type} [DecidableEq κ]

/-- Combines every entry of the second map in turn with what the first one has under its key. -/
def mergeWith (f : Option ν → μ → ν) (m : OrderedMap κ ν) (n : OrderedMap κ μ) : OrderedMap κ ν :=
  n.entries.foldl (fun a e => a.insert e.1 (f (a.get? e.1) e.2)) m

/-- Listings of the same keys with the same values are the same. -/
theorem eq_of_lookup {l l' : List (κ × ν)} (hl : (l.map Prod.fst).Nodup)
    (hkeys : l.map Prod.fst = l'.map Prod.fst) (hvalues : ∀ k, lookup k l = lookup k l') :
    l = l' := by
  induction l generalizing l' with
  | nil => exact (List.map_eq_nil_iff.mp hkeys.symm).symm
  | cons e rest ih =>
    obtain ⟨e', rest', rfl, hfirst, hrest⟩ := List.map_eq_cons_iff.mp hkeys.symm
    rw [List.map_cons, List.nodup_cons] at hl
    have hvalue := hvalues e.1
    rw [lookup, lookup, if_pos rfl, if_pos hfirst] at hvalue
    have he : e = e' := Prod.ext hfirst.symm (Option.some.inj hvalue)
    subst he
    refine congrArg (e :: ·) (ih hl.2 hrest.symm fun k => ?_)
    by_cases hk : e.1 = k
    · subst hk
      rw [lookup_eq_none_iff.mpr hl.1, lookup_eq_none_iff.mpr (hrest.symm ▸ hl.1)]
    · have hvalue := hvalues k
      rwa [lookup, lookup, if_neg hk, if_neg hk] at hvalue

/-- Maps with the same keys and the same values are the same. -/
theorem eq_of_get? {m n : OrderedMap κ ν} (hkeys : m.keys = n.keys)
    (hvalues : ∀ k, m.get? k = n.get? k) : m = n :=
  ext (eq_of_lookup m.nodup hkeys hvalues)

variable {f : Option ν → μ → ν}

/-- A combined map has what the second map combines, and the rest of the first one. -/
theorem get?_mergeWith (m : OrderedMap κ ν) (n : OrderedMap κ μ) (k : κ) :
    (m.mergeWith f n).get? k
      = ((n.get? k).map (f (m.get? k))).or (m.get? k) := by
  obtain ⟨l, hl⟩ := n
  show (l.foldl (fun a e => a.insert e.1 (f (a.get? e.1) e.2)) m).get? k
    = ((lookup k l).map (f (m.get? k))).or (m.get? k)
  induction l generalizing m with
  | nil => rfl
  | cons e rest ih =>
    rw [List.map_cons, List.nodup_cons] at hl
    rw [List.foldl_cons, ih _ hl.2, get?_insert, lookup]
    by_cases hk : e.1 = k
    · subst hk
      rw [if_pos rfl, if_pos rfl, lookup_eq_none_iff.mpr hl.1]
      rfl
    · rw [if_neg (Ne.symm hk), if_neg hk]

/-- A combined map lists the keys of the first map, and then those that only the second one has. -/
theorem keys_mergeWith (m : OrderedMap κ ν) (n : OrderedMap κ μ) :
    (m.mergeWith f n).keys = m.keys ++ n.keys.filter fun k => decide (k ∉ m.keys) := by
  obtain ⟨l, hl⟩ := n
  show (l.foldl (fun a e => a.insert e.1 (f (a.get? e.1) e.2)) m).keys
    = m.keys ++ (l.map Prod.fst).filter fun k => decide (k ∉ m.keys)
  induction l generalizing m with
  | nil => simp
  | cons e rest ih =>
    rw [List.map_cons, List.nodup_cons] at hl
    rw [List.foldl_cons, ih _ hl.2, keys_insert, List.map_cons]
    by_cases hk : e.1 ∈ m.keys
    · rw [if_pos hk, List.filter_cons_of_neg (by simpa using hk)]
    · rw [if_neg hk, List.filter_cons_of_pos (by simpa using hk), List.append_assoc,
        List.singleton_append]
      refine congrArg (m.keys ++ e.1 :: ·) (List.filter_congr fun k hmem => ?_)
      have hne : k ≠ e.1 := fun h => hl.1 (h ▸ hmem)
      simp [hne]

theorem contains_iff {m : OrderedMap κ ν} {k : κ} : m.contains k = true ↔ k ∈ m.keys :=
  decide_eq_true_iff

theorem mem_keys_mergeWith {m : OrderedMap κ ν} {n : OrderedMap κ μ} {k : κ} :
    k ∈ (m.mergeWith f n).keys ↔ k ∈ m.keys ∨ k ∈ n.keys := by
  rw [keys_mergeWith]
  by_cases hk : k ∈ m.keys <;> simp [hk]

/-- An entry that is written first is combined where it stands. -/
theorem mergeWith_insert (m : OrderedMap κ ν) (n : OrderedMap κ μ) (k : κ) (v : μ) :
    m.mergeWith f (n.insert k v) = (m.mergeWith f n).insert k (f (m.get? k) v) := by
  refine eq_of_get? ?_ fun k' => ?_
  · have hmem : k ∈ (m.mergeWith f n).keys ↔ k ∈ m.keys ∨ k ∈ n.keys := mem_keys_mergeWith
    rw [keys_insert, keys_mergeWith, keys_insert]
    by_cases hn : k ∈ n.keys
    · rw [if_pos hn, if_pos (hmem.mpr (.inr hn)), keys_mergeWith]
    · by_cases hm : k ∈ m.keys
      · rw [if_neg hn, if_pos (hmem.mpr (.inl hm)), keys_mergeWith]
        simp [hm]
      · rw [if_neg hn, if_neg fun h => (hmem.mp h).elim hm hn, keys_mergeWith]
        simp [hm]
  · rw [get?_mergeWith, get?_insert, get?_insert, get?_mergeWith]
    by_cases hk : k' = k
    · subst hk
      simp
    · rw [if_neg hk, if_neg hk]

end OrderedMap

namespace Ini

open OrderedMap

namespace Document

/-- The options of a section, those that there are and later ones. -/
def combined (old : Option (OrderedMap String String)) (later : OrderedMap String String) :
    OrderedMap String String :=
  (old.getD .empty).mergeWith (fun _ v => v) later

/-- A document with all that another one holds: what is new is listed behind, and a later value
stands in the place of the first. -/
def merge (d f : Document) : Document where
  defaults := d.defaults.mergeWith (fun _ v => v) f.defaults
  sections := d.sections.mergeWith combined f.sections

/-- No section goes by the name of the defaults. -/
def Sound (d : Document) : Prop := defaultSection ∉ d.sections.keys

variable {d f : Document} {s k v : String}

theorem Sound.merge (hd : d.Sound) (hf : f.Sound) : (d.merge f).Sound := fun h =>
  (mem_keys_mergeWith.mp h).elim hd hf

theorem options_of_ne (hs : s ≠ defaultSection) : d.options s = (d.sections.get? s).getD .empty :=
  if_neg hs

theorem options_merge (hs : s ≠ defaultSection) :
    (d.merge f).options s = combined (d.sections.get? s) (f.options s) := by
  rw [options_of_ne hs, options_of_ne hs]
  unfold merge
  dsimp only
  rw [get?_mergeWith]
  cases f.sections.get? s <;> rfl

/-- Writing an option and putting documents together can be done in either order. -/
theorem setOption_merge : (d.merge f).setOption s k v = d.merge (f.setOption s k v) := by
  unfold setOption
  by_cases hs : s = defaultSection
  · rw [if_pos hs, if_pos hs]
    unfold merge
    dsimp only
    rw [mergeWith_insert]
  · rw [if_neg hs, if_neg hs, options_merge hs]
    have hinner : (combined (d.sections.get? s) (f.options s)).insert k v
        = combined (d.sections.get? s) ((f.options s).insert k v) := (mergeWith_insert _ _ _ _).symm
    rw [hinner]
    unfold merge
    dsimp only
    rw [mergeWith_insert]

/-- Opening a section that the second document does not have. -/
theorem insert_merge (hs : s ∉ f.sections.keys) :
    d.merge { f with sections := f.sections.insert s .empty }
      = if s ∈ (d.merge f).sections.keys then d.merge f
        else { d.merge f with sections := (d.merge f).sections.insert s .empty } := by
  have hold : (d.merge f).sections.get? s = d.sections.get? s := by
    unfold merge
    dsimp only
    rw [get?_mergeWith, get?_eq_none_iff.mpr hs]
    rfl
  have hnew : d.merge { f with sections := f.sections.insert s .empty }
      = { d.merge f with
          sections := (d.merge f).sections.insert s ((d.sections.get? s).getD .empty) } := by
    unfold merge
    dsimp only
    rw [mergeWith_insert]
    rfl
  rw [hnew]
  split
  · rename_i hmem
    obtain ⟨o, ho⟩ := Option.ne_none_iff_exists'.mp fun h => (get?_eq_none_iff.mp h) hmem
    rw [← hold, ho]
    have hput : (d.merge f).sections.insert s o = (d.merge f).sections := ext (put_of_lookup ho)
    rw [Option.getD_some, hput]
  · rename_i hmem
    rw [← hold, get?_eq_none_iff.mpr hmem]
    rfl

theorem keys_setOption (hs : s = defaultSection ∨ s ∈ d.sections.keys) :
    (d.setOption s k v).sections.keys = d.sections.keys := by
  unfold setOption
  split
  · rfl
  · rename_i hne
    exact keys_insert_of_mem (hs.resolve_left hne)

end Document

/-! ### Reading into a document -/

namespace Cursor

/-- The cursor as it is where another document had been read before. -/
def onto (d : Document) (c : Cursor) : Cursor := { c with document := d.merge c.document }

/-- The sections are those that were opened, among them the open one. -/
structure Sound (c : Cursor) : Prop where
  sections : ∀ s, s ∈ c.document.sections.keys ↔ s ∈ c.seenSections
  document : c.document.Sound
  current : ∀ s, c.current = some s → s = defaultSection ∨ s ∈ c.document.sections.keys

/-- A step does the same where another document had been read before. -/
structure Uniform (step : Cursor → Except Fault Cursor) (c : Cursor) : Prop where
  same : ∀ d : Document, d.Sound → step (c.onto d) = (step c).map (onto d)
  sound : ∀ c', step c = .ok c' → c'.Sound

variable {c : Cursor} {d : Document}

/-- At the start of a text no section is open. -/
theorem sound_start : Sound ⟨.empty, none, none, 0, [], [], false⟩ :=
  ⟨fun _ => Iff.rfl, List.not_mem_nil, nofun⟩

/-- Writing an option of the open section opens none. -/
theorem Sound.setOption {name k v : String} (h : c.Sound) (hcurrent : c.current = some name) :
    Sound { c with document := c.document.setOption name k v } := by
  have hkeys : (c.document.setOption name k v).sections.keys = c.document.sections.keys :=
    Document.keys_setOption (h.current name hcurrent)
  refine ⟨fun s => ?_, fun hs => h.document ?_, fun s hs => ?_⟩
  · rw [hkeys]
    exact h.sections s
  · rwa [hkeys] at hs
  · rw [hkeys]
    exact h.current s hs

theorem flush_onto : (c.onto d).flush = c.flush.onto d := by
  obtain ⟨document, current, pending, indent, seenSections, seenOptions, broken⟩ := c
  cases current with
  | none => rfl
  | some name =>
    cases pending with
    | none => rfl
    | some option =>
      unfold flush onto
      dsimp only
      rw [Document.setOption_merge]

theorem Sound.flush (h : c.Sound) : c.flush.Sound := by
  unfold Cursor.flush
  split
  · rename_i name key lines hcurrent hpending
    have hset := h.setOption (k := key) (v := joinLines lines) hcurrent
    exact ⟨hset.sections, hset.document, hset.current⟩
  · exact ⟨h.sections, h.document, h.current⟩

theorem openSection_of_seen {name : String} (hlisted : name ∈ c.flush.document.sections.keys)
    (hseen : name ∈ c.flush.seenSections) :
    c.openSection name = .error (.foreign .sectionRepeated) := by
  unfold openSection
  dsimp only
  rw [if_pos (contains_iff.mpr hlisted), if_pos hseen]

theorem openSection_of_default (h : c.flush.document.Sound) :
    c.openSection defaultSection = .ok { c.flush with current := some defaultSection } := by
  unfold openSection
  dsimp only
  rw [if_neg (mt contains_iff.mp h), if_pos rfl]

theorem openSection_of_new {name : String} (hseen : name ∉ c.flush.seenSections)
    (hdefault : name ≠ defaultSection) :
    c.openSection name = .ok { c.flush with
      document := if name ∈ c.flush.document.sections.keys then c.flush.document
        else { c.flush.document with sections := c.flush.document.sections.insert name .empty }
      current := some name, seenSections := name :: c.flush.seenSections } := by
  unfold openSection
  dsimp only
  by_cases hlisted : name ∈ c.flush.document.sections.keys
  · rw [if_pos (contains_iff.mpr hlisted), if_neg hseen, if_pos hlisted]
  · rw [if_neg (mt contains_iff.mp hlisted), if_neg hdefault, if_neg hlisted]

/-- A section is refused when this text had it before, and goes on from what other texts had. -/
theorem uniform_openSection (h : c.Sound) (name : String) :
    Uniform (fun c => c.openSection name) c := by
  have hflush := h.flush
  have hsound : ∀ d : Document, d.Sound → (c.onto d).flush.document.Sound := fun d hd => by
    rw [flush_onto]
    exact hd.merge hflush.document
  by_cases hseen : name ∈ c.flush.seenSections
  · have hlisted := (hflush.sections name).mpr hseen
    refine ⟨fun d hd => ?_, fun c' hrun => ?_⟩
    · have hlater : name ∈ (c.onto d).flush.document.sections.keys := by
        rw [flush_onto]
        exact mem_keys_mergeWith.mpr (.inr hlisted)
      rw [openSection_of_seen hlisted hseen,
        openSection_of_seen hlater (by rw [flush_onto]; exact hseen)]
      rfl
    · rw [openSection_of_seen hlisted hseen] at hrun
      cases hrun
  by_cases hdefault : name = defaultSection
  · subst hdefault
    refine ⟨fun d hd => ?_, fun c' hrun => ?_⟩
    · rw [openSection_of_default hflush.document, openSection_of_default (hsound d hd), flush_onto]
      rfl
    · rw [openSection_of_default hflush.document] at hrun
      cases hrun
      exact ⟨hflush.sections, hflush.document, fun s hs => .inl (Option.some.inj hs).symm⟩
  -- Without the other document the section is new, and with it the section may be there.
  have hnew : name ∉ c.flush.document.sections.keys := fun hk =>
    hseen ((hflush.sections name).mp hk)
  refine ⟨fun d hd => ?_, fun c' hrun => ?_⟩
  · rw [openSection_of_new hseen hdefault,
      openSection_of_new (by rw [flush_onto]; exact hseen) hdefault, flush_onto, if_neg hnew]
    exact congrArg (fun document => Except.ok { c.flush with
      document, current := some name, seenSections := name :: c.flush.seenSections })
      (Document.insert_merge hnew).symm
  · rw [openSection_of_new hseen hdefault, if_neg hnew] at hrun
    cases hrun
    refine ⟨fun s => ?_, fun hs => ?_, fun s hs => ?_⟩
    · rw [show s ∈ (c.flush.document.sections.insert name .empty).keys ↔ _ from mem_keys_put,
        List.mem_cons]
      exact or_congr_right (hflush.sections s)
    · exact (mem_keys_put.mp hs).elim (fun he => hdefault he.symm) hflush.document
    · exact .inr (mem_keys_put.mpr (.inl (Option.some.inj hs).symm))

theorem uniform_openOption (h : c.Sound) {name : String} (hname : c.current = some name)
    (key value : String) : Uniform (fun c => c.openOption name key value) c := by
  have hcurrent : c.flush.current = some name := by
    unfold flush
    split <;> exact hname
  unfold openOption
  by_cases hseen : (name, key) ∈ c.flush.seenOptions
  · refine ⟨fun d hd => ?_, fun c' hrun => ?_⟩
    · dsimp only
      rw [flush_onto, if_pos hseen,
        if_pos (show (name, key) ∈ (c.flush.onto d).seenOptions from hseen)]
      rfl
    · dsimp only at hrun
      rw [if_pos hseen] at hrun
      cases hrun
  · refine ⟨fun d hd => ?_, fun c' hrun => ?_⟩
    · dsimp only
      rw [flush_onto, if_neg hseen,
        if_neg (show (name, key) ∉ (c.flush.onto d).seenOptions from hseen)]
      exact congrArg (fun document => Except.ok { c.flush with
        document, pending := some (key, [value]), seenOptions := (name, key) :: c.flush.seenOptions
        broken := c.flush.broken || key = "" }) Document.setOption_merge
    · dsimp only at hrun
      rw [if_neg hseen] at hrun
      cases hrun
      have hset := h.flush.setOption (k := key) (v := "") hcurrent
      exact ⟨hset.sections, hset.document, hset.current⟩

theorem uniform_startLine (h : c.Sound) (content : List Char) :
    Uniform (fun c => c.startLine content) c := by
  unfold startLine
  cases header? content with
  | some name => exact uniform_openSection h name
  | none =>
    cases hcurrent : c.current with
    | none =>
      refine ⟨fun d hd => ?_, fun c' hrun => ?_⟩
      · dsimp only
        rw [show (c.onto d).current = none from hcurrent, hcurrent]
        rfl
      · dsimp only at hrun
        rw [hcurrent] at hrun
        cases hrun
    | some name =>
      cases option? content with
      | none =>
        refine ⟨fun d hd => ?_, fun c' hrun => ?_⟩
        · dsimp only
          rw [show (c.onto d).current = some name from hcurrent, hcurrent]
          rfl
        · dsimp only at hrun
          rw [hcurrent] at hrun
          cases hrun
          exact ⟨h.sections, h.document, fun s hs => h.current s (hcurrent.trans hs)⟩
      | some option =>
        have hopen := uniform_openOption h hcurrent option.1 option.2
        refine ⟨fun d hd => ?_, fun c' hrun => ?_⟩
        · dsimp only
          rw [show (c.onto d).current = some name from hcurrent, hcurrent]
          exact hopen.same d hd
        · dsimp only at hrun
          rw [hcurrent] at hrun
          exact hopen.sound c' hrun

/-- A line goes on with the option that is being read, or it starts anew. Which of the two does not
depend on the document. -/
theorem line_cases (c : Cursor) (cs : List Char) :
    (∃ pending, ∀ document, line { c with document } cs = .ok { c with document, pending }) ∨
      ∃ indent content, ∀ document,
        line { c with document } cs = startLine { c with document, indent } content := by
  obtain ⟨-, current, pending, indent, seenSections, seenOptions, broken⟩ := c
  cases htrim : Text.trim cs with
  | nil =>
    cases pending with
    | none => exact .inl ⟨none, fun _ => by simp only [line, htrim]⟩
    | some option =>
      by_cases hkey : option.1 = ""
      · exact .inl ⟨some option, fun _ => by simp only [line, htrim, if_pos hkey]⟩
      · exact .inl ⟨some (option.1, "" :: option.2), fun _ => by
          simp only [line, htrim, if_neg hkey]⟩
  | cons first rest =>
    by_cases hcomment : (first = '#' || first = ';') = true
    · exact .inl ⟨pending, fun _ => by simp only [line, htrim, if_pos hcomment]⟩
    cases pending with
    | none =>
      exact .inr ⟨_, first :: rest, fun _ => by simp only [line, htrim, if_neg hcomment]; rfl⟩
    | some option =>
      by_cases hdeeper : (option.1 ≠ "" && indent < (cs.takeWhile Text.isBlank).length) = true
      · exact .inl ⟨some (option.1, String.ofList (first :: rest) :: option.2), fun _ => by
          simp only [line, htrim, if_neg hcomment, if_pos hdeeper]⟩
      · exact .inr ⟨_, first :: rest, fun _ => by
          simp only [line, htrim, if_neg hcomment, if_neg hdeeper]; rfl⟩

theorem uniform_line (h : c.Sound) (cs : List Char) : Uniform (fun c => c.line cs) c := by
  obtain ⟨pending, hline⟩ | ⟨indent, content, hline⟩ := line_cases c cs
  · have hown : c.line cs = .ok { c with pending } := hline c.document
    refine ⟨fun d hd => ?_, fun c' hrun => ?_⟩
    · rw [hown]
      exact hline (d.merge c.document)
    · rw [hown] at hrun
      cases hrun
      exact ⟨h.sections, h.document, h.current⟩
  · have hindented : Sound { c with indent } := ⟨h.sections, h.document, h.current⟩
    have hstart := uniform_startLine hindented content
    have hown : c.line cs = startLine { c with indent } content := hline c.document
    refine ⟨fun d hd => ?_, fun c' hrun => hstart.sound c' (hown ▸ hrun)⟩
    rw [hown]
    exact (hline (d.merge c.document)).trans (hstart.same d hd)

theorem uniform_lines (h : c.Sound) (all : List (List Char)) :
    Uniform (fun c => c.lines all) c := by
  induction all generalizing c with
  | nil => exact ⟨fun d hd => rfl, fun c' hrun => by cases hrun; exact h⟩
  | cons cs rest ih =>
    have hline := uniform_line h cs
    refine ⟨fun d hd => ?_, fun c' hrun => ?_⟩
    · rw [lines, lines, hline.same d hd]
      cases hrun : c.line cs with
      | error e => rfl
      | ok c' => exact (ih (hline.sound c' hrun)).same d hd
    · rw [lines] at hrun
      cases hfirst : c.line cs with
      | error e => rw [hfirst] at hrun; cases hrun
      | ok middle =>
        rw [hfirst] at hrun
        exact (ih (hline.sound middle hfirst)).sound c' hrun

end Cursor

namespace Document

variable {d : Document}

/-- Reading a text into a document gives what the text holds on its own, merged into it. -/
theorem read_eq_merge (hd : d.Sound) (s : String) : d.read s = (empty.read s).map d.merge := by
  have hlines := (Cursor.uniform_lines Cursor.sound_start (linesOf s)).same d hd
  unfold read
  rw [show (⟨d, none, none, 0, [], [], false⟩ : Cursor)
    = Cursor.onto d ⟨empty, none, none, 0, [], [], false⟩ from rfl, hlines]
  cases Cursor.lines ⟨empty, none, none, 0, [], [], false⟩ (linesOf s) with
  | error e => rfl
  | ok c =>
    show (if c.broken then _ else Except.ok (c.onto d).flush.document) = _
    rw [Cursor.flush_onto]
    dsimp only
    split <;> rfl

/-- No text has a section that goes by the name of the defaults. -/
theorem sound_of_read {s : String} {f : Document} (h : empty.read s = .ok f) : f.Sound := by
  unfold read at h
  cases hrun : Cursor.lines ⟨empty, none, none, 0, [], [], false⟩ (linesOf s) with
  | error e => rw [hrun] at h; cases h
  | ok c =>
    rw [hrun] at h
    dsimp only at h
    split at h
    · cases h
    · cases h
      exact ((Cursor.uniform_lines Cursor.sound_start (linesOf s)).sound c hrun).flush.document

/-! ### Options and where they are listed -/

/-- The value of an option, which is given with its section. -/
def value? (d : Document) (a : String × String) : Option String :=
  (d.sections.get? a.1).bind (·.get? a.2)

/-- The options with their sections and values, as they are listed. -/
def assignments (d : Document) : List ((String × String) × String) :=
  d.sections.entries.flatMap fun e => e.2.entries.map fun o => ((e.1, o.1), o.2)

/-- The key that an option of a section is set under. -/
def keyOf (a : String × String) : String := a.1 ++ "." ++ a.2

/-- The first option is listed before the second. -/
def Lists (d : Document) (a b : String × String) : Prop :=
  ∃ l r, d.assignments.map Prod.fst = l ++ b :: r ∧ a ∈ l

variable {f : Document} {a b : String × String}

/-- A later value counts, and an earlier one where there is no later one. -/
theorem value?_merge (a : String × String) :
    (d.merge f).value? a = (f.value? a).or (d.value? a) := by
  unfold value? merge
  dsimp only
  rw [get?_mergeWith]
  cases f.sections.get? a.1 with
  | none => rfl
  | some later =>
    show (combined (d.sections.get? a.1) later).get? a.2 = (later.get? a.2).or _
    rw [combined, get?_mergeWith]
    cases d.sections.get? a.1 <;> cases later.get? a.2 <;> rfl

/-- Documents without an option do not change its value. -/
theorem value?_foldl_merge {docs : List Document} (h : ∀ e ∈ docs, e.value? a = none) :
    (docs.foldl merge d).value? a = d.value? a := by
  induction docs generalizing d with
  | nil => rfl
  | cons e rest ih =>
    rw [List.foldl_cons, ih fun e' he' => h e' (List.mem_cons_of_mem _ he'), value?_merge,
      h e List.mem_cons_self]
    rfl

/-- What has a value in the end had one somewhere. -/
theorem exists_value?_of_foldl_merge {docs : List Document} {v : String}
    (h : (docs.foldl merge d).value? a = some v) :
    d.value? a = some v ∨ ∃ e ∈ docs, e.value? a = some v := by
  induction docs generalizing d with
  | nil => exact .inl h
  | cons e rest ih =>
    obtain hhere | ⟨e', he', hlater⟩ := ih h
    · rw [value?_merge, Option.or_eq_some_iff] at hhere
      obtain hv | ⟨-, hv⟩ := hhere
      · exact .inr ⟨e, List.mem_cons_self, hv⟩
      · exact .inl hv
    · exact .inr ⟨e', List.mem_cons_of_mem _ he', hlater⟩

theorem mem_assignments {v : String} : (a, v) ∈ d.assignments ↔ d.value? a = some v := by
  unfold assignments value?
  rw [List.mem_flatMap, Option.bind_eq_some_iff]
  constructor
  · rintro ⟨⟨s, options⟩, hs, hmem⟩
    obtain ⟨⟨o, v'⟩, ho, he⟩ := List.mem_map.mp hmem
    cases he
    exact ⟨options, get?_eq_some_iff.mpr hs, get?_eq_some_iff.mpr ho⟩
  · rintro ⟨options, hs, ho⟩
    exact ⟨(a.1, options), get?_eq_some_iff.mp hs,
      List.mem_map.mpr ⟨(a.2, v), get?_eq_some_iff.mp ho, rfl⟩⟩

/-- No option is listed twice. -/
theorem nodup_assignments (d : Document) : (d.assignments.map Prod.fst).Nodup := by
  unfold assignments
  rw [List.map_flatMap]
  refine List.nodup_flatMap.mpr ⟨fun e _ => ?_, ?_⟩
  · rw [List.map_map]
    have hkeys : (e.2.entries.map (Prod.fst ∘ fun o => ((e.1, o.1), o.2)))
        = (e.2.entries.map Prod.fst).map fun o => (e.1, o) := by
      rw [List.map_map]
      rfl
    rw [hkeys]
    exact e.2.nodup.map fun _ _ h => congrArg Prod.snd h
  · have hsections := List.pairwise_map.mp d.sections.nodup
    refine hsections.imp fun {e e'} hne => ?_
    refine List.disjoint_left.mpr fun p hp hp' => hne ?_
    simp only [List.map_map, List.mem_map, Function.comp_apply] at hp hp'
    obtain ⟨o, -, rfl⟩ := hp
    obtain ⟨o', -, he⟩ := hp'
    exact (congrArg Prod.fst he).symm

/-- Of what is listed behind an option, nothing is listed before it. -/
theorem not_lists {l r : List (String × String)}
    (hlisted : d.assignments.map Prod.fst = l ++ a :: r) (hb : b ∈ r) : ¬ d.Lists b a := by
  rintro ⟨l', r', hlisted', hb'⟩
  have hnodup := hlisted ▸ d.nodup_assignments
  rw [List.nodup_middle, List.nodup_cons, List.mem_append, not_or] at hnodup
  obtain ⟨rfl, -, rfl⟩ := (List.append_cons_inj_of_notMem hnodup.1.1 hnodup.1.2).mp
    (hlisted.symm.trans hlisted')
  exact (List.disjoint_of_nodup_append hnodup.2) hb' hb

/-- Without defaults, the options are set in turn as they are listed. -/
theorem toConfig_eq (h : d.defaults = .empty) :
    d.toConfig = d.assignments.foldl (fun c a => c.setLeaf (keyOf a.1) (.text a.2)) .empty := by
  have hitems : ∀ options, d.items options = options.entries := fun options => by
    unfold items
    rw [h]
    exact congrArg OrderedMap.entries (foldl_insert_entries options)
  unfold toConfig assignments
  simp only [List.foldl_flatMap, List.foldl_map, hitems]
  rfl

end Document

end Ini

namespace Config

variable {α : Type} {key : α → String} {value : α → Value} {k : String}

/-- Leaves that are set beside a key are not seen under it. -/
theorem node?_foldl_setLeaf_of_apart {l : List α} {c : Config}
    (h : ∀ a ∈ l, Apart (key a) k) :
    (l.foldl (fun c a => c.setLeaf (key a) (value a)) c).node? k = c.node? k := by
  induction l generalizing c with
  | nil => rfl
  | cons a rest ih =>
    rw [List.foldl_cons, ih fun b hb => h b (List.mem_cons_of_mem _ hb),
      node?_setLeaf_of_apart (h a List.mem_cons_self)]

/-- What is found under a key is decided by the last leaf that is not set beside it. -/
theorem node?_foldl_setLeaf_append {l r : List α} {a : α} {c : Config}
    (h : ∀ b ∈ r, Apart (key b) k) :
    ((l ++ a :: r).foldl (fun c a => c.setLeaf (key a) (value a)) c).node? k =
      ((l.foldl (fun c a => c.setLeaf (key a) (value a)) c).setLeaf (key a) (value a)).node?
        k := by
  rw [List.foldl_append, List.foldl_cons, node?_foldl_setLeaf_of_apart h]

end Config

namespace Ini.Document

variable {docs : List Document} {a : String × String} {v : String}

/-- The sections and options of some documents, merged in turn. -/
def merged (docs : List Document) : Document := docs.foldl merge .empty

/-- The key of an option is no empty text. -/
theorem keyOf_ne_empty (a : String × String) : keyOf a ≠ "" := fun h => by
  have hlength := congrArg String.length h
  simp [keyOf, String.length_append] at hlength

/-- What is listed behind an option comes from some document, and from another option. -/
theorem exists_of_listed_behind {l r : List ((String × String) × String)}
    (hsplit : (merged docs).assignments = l ++ (a, v) :: r) {x : (String × String) × String}
    (hx : x ∈ r) :
    x.1 ≠ a ∧ ¬ (merged docs).Lists x.1 a ∧ ∃ e ∈ docs, e.value? x.1 = some x.2 := by
  have hlisted : (merged docs).assignments.map Prod.fst
      = l.map Prod.fst ++ a :: r.map Prod.fst := by
    rw [hsplit, List.map_append, List.map_cons]
  refine ⟨fun he => ?_, not_lists hlisted (List.mem_map_of_mem hx), ?_⟩
  · have hnodup := hlisted ▸ (merged docs).nodup_assignments
    rw [List.nodup_middle, List.nodup_cons, List.mem_append, not_or] at hnodup
    exact hnodup.1.2 (he ▸ List.mem_map_of_mem hx)
  · have hassigned : (merged docs).value? x.1 = some x.2 :=
      mem_assignments.mp (hsplit ▸ List.mem_append_right _ (List.mem_cons_of_mem _ hx))
    exact (exists_value?_of_foldl_merge hassigned).resolve_left nofun

/-- The value that the last of some documents gives to an option is found under its key when all
that is listed behind the option is beside the key. -/
theorem node?_merged {before later : List Document} {f : Document}
    (hplain : (merged (before ++ f :: later)).defaults = .empty) (hv : f.value? a = some v)
    (hnone : ∀ e ∈ later, e.value? a = none)
    (hbehind : ∀ e ∈ before ++ f :: later, ∀ b w, e.value? b = some w →
      b ≠ a → ¬ (merged (before ++ f :: later)).Lists b a → Config.Apart (keyOf b) (keyOf a)) :
    (merged (before ++ f :: later)).toConfig.node? (keyOf a) = some (.leaf (.text v)) := by
  have hvalue : (merged (before ++ f :: later)).value? a = some v := by
    rw [merged, List.foldl_append, List.foldl_cons, value?_foldl_merge hnone, value?_merge, hv]
    rfl
  obtain ⟨l, r, hsplit⟩ := List.append_of_mem (mem_assignments.mpr hvalue)
  rw [toConfig_eq hplain, hsplit, Config.node?_foldl_setLeaf_append fun x hx => ?_]
  · exact Config.node?_setLeaf_self
  · obtain ⟨hne, hlists, e, he, hw⟩ := exists_of_listed_behind hsplit hx
    exact hbehind e he x.1 x.2 hw hne hlists

end Ini.Document

namespace Store

open Ini Work

/-- What the named files hold, each one on its own: those that are there can be read, and have no
defaults. -/
inductive Readable (t : Files.Tree) : List String → List Document → Prop
  | nil : Readable t [] []
  | missing {name : String} {names : List String} {docs : List Document} {trouble : Files.Trouble} :
    t.readSpelled name = .error trouble → trouble ≠ .unspeakable → Readable t names docs →
    Readable t (name :: names) docs
  | present {name : String} {names : List String} {docs : List Document} {content : ByteArray}
    {text : String} {f : Document} :
    t.readSpelled name = .ok content → String.fromUTF8? content = some text →
    Document.empty.read text = .ok f → f.defaults = .empty → Readable t names docs →
    Readable t (name :: names) (f :: docs)

variable {t : Files.Tree} {names : List String} {docs : List Document}

/-- Files that can be read are merged in turn. -/
theorem readIni_of_readable (h : Readable t names docs) {d : Document} (hd : d.Sound) :
    ∃ seen, readIni t d names = .ok (docs.foldl Document.merge d, seen) := by
  induction h generalizing d with
  | nil => exact ⟨[], rfl⟩
  | @missing name names docs trouble hname htrouble _ ih =>
    obtain ⟨seen, hseen⟩ := ih hd
    refine ⟨seen, ?_⟩
    rw [readIni, hname]
    cases trouble with
    | unspeakable => exact absurd rfl htrouble
    | _ => exact hseen
  | @present name names docs content text f hname htext hf _ _ ih =>
    obtain ⟨seen, hseen⟩ := ih (hd.merge (Document.sound_of_read hf))
    refine ⟨name :: seen, ?_⟩
    rw [readIni, hname]
    simp only [htext, Document.read_eq_merge hd, hf]
    show (readIni t (d.merge f) names >>= fun found => Except.ok (found.1, name :: found.2)) = _
    rw [hseen]
    rfl

theorem defaults_of_readable (h : Readable t names docs) {d : Document}
    (hd : d.defaults = .empty) : (docs.foldl Document.merge d).defaults = .empty := by
  induction h generalizing d with
  | nil => exact hd
  | missing _ _ _ ih => exact ih hd
  | @present _ _ _ _ _ f _ _ _ hf _ ih =>
    refine ih ?_
    unfold Document.merge
    rw [hd, hf]
    rfl

/-- Reading ini files makes a configuration of what they hold together. -/
theorem run_makeConfigOfIni {s : Store} (h : Readable s.files names docs) :
    ∃ seen, (makeConfigOfIni names).run s = (.ok s.configs.next,
      { s with
        log := s.log ++ [.configurationRead seen]
        configs := s.configs.add (Document.merged docs).toConfig }) := by
  obtain ⟨seen, hread⟩ := readIni_of_readable h (d := .empty) List.not_mem_nil
  refine ⟨seen, ?_⟩
  unfold makeConfigOfIni
  rw [run_bind_ok (run_get s), hread, run_bind_ok (run_lift _ s), run_bind_ok (run_report _ s),
    run_make]
  rfl

/-- The last file that assigns a key decides what is found under it, whatever the files before it
hold, as long as it and the files behind it assign no other key on the way to this one or below it,
and those that the files before it assign are listed before the option. -/
theorem configValue_of_ini {s : Store} {names : List String} {before later : List Document}
    {f : Document} (hfiles : Readable s.files names (before ++ f :: later))
    {a : String × String} {v : String} (hv : f.value? a = some v)
    (hown : ∀ b w, f.value? b = some w →
      b = a ∨ Config.Apart (Document.keyOf b) (Document.keyOf a))
    (hlater : ∀ e ∈ later, ∀ b w, e.value? b = some w →
      Config.Apart (Document.keyOf b) (Document.keyOf a))
    (hbefore : ∀ e ∈ before, ∀ b w, e.value? b = some w →
      b = a ∨ Config.Apart (Document.keyOf b) (Document.keyOf a) ∨
        (Document.merged (before ++ f :: later)).Lists b a) :
    ∃ r u, (makeConfigOfIni names).run s = (.ok r, u) ∧
      ∀ default, (configValue r (.text (Document.keyOf a)) default).run u = (.ok (.text v), u) := by
  have hnode := Document.node?_merged (defaults_of_readable hfiles rfl) hv
    (fun e he => Option.eq_none_iff_forall_ne_some.mpr fun w hw =>
      (hlater e he a w hw).1 (List.prefix_refl _))
    fun e he b w hw hne hlists => by
      rcases List.mem_append.mp he with he | he
      · exact ((hbefore e he b w hw).resolve_left hne).resolve_right hlists
      · rcases List.mem_cons.mp he with rfl | he
        · exact (hown b w hw).resolve_left hne
        · exact hlater e he b w hw
  have hname : ∀ u : Store,
      (u.content (.text (Document.keyOf a))).name? = some (Document.keyOf a) :=
    fun u => if_neg (Document.keyOf_ne_empty a)
  obtain ⟨seen, hrun⟩ := run_makeConfigOfIni hfiles
  refine ⟨_, _, hrun, fun default => ?_⟩
  rw [run_configValue default (hname _), Cells.get_add_next, hnode]
  rfl

/-- A store with some ini files. -/
def iniStore (files : List (String × String)) : Store :=
  { Store.empty default with
    files := ⟨files.foldl (fun t e => t.insert [e.1] (.file e.2.toUTF8)) .empty⟩ }

/-- A key that two files assign in different sections, that of the first file listed first. -/
theorem configValue_of_ini_sections :
    let s := iniStore
      [("first.ini", "[a.b]\nc = old\n[a]\nx = 0\n"), ("last.ini", "[a]\nb.c = new\n")]
    ∃ r u, (makeConfigOfIni ["none.ini", "first.ini", "last.ini"]).run s = (.ok r, u) ∧
      ∀ default, (configValue r (.text "a.b.c") default).run u = (.ok (.text "new"), u) := by
  intro s
  let first : Document :=
    ⟨.empty, .ofList [("a.b", .ofList [("c", "old")]), ("a", .ofList [("x", "0")])]⟩
  let last : Document := ⟨.empty, .ofList [("a", .ofList [("b.c", "new")])]⟩
  have hfiles : Readable s.files ["none.ini", "first.ini", "last.ini"] ([first] ++ last :: []) := by
    have hnone : s.files.readSpelled "none.ini" = .error .missing := rfl
    have htext : ∀ text : String, String.fromUTF8? text.toUTF8 = some text := fun text =>
      dif_pos text.isValidUTF8
    exact .missing hnone nofun
      (.present rfl (htext _) rfl rfl (.present rfl (htext _) rfl rfl .nil))
  have hlast : ∀ b w, last.value? b = some w → b = ("a", "b.c") := fun b w hb => by
    have hlisted : (b, w) ∈ [(("a", "b.c"), "new")] := Document.mem_assignments.mpr hb
    exact congrArg Prod.fst (List.mem_singleton.mp hlisted)
  have hfirst : ∀ b w, first.value? b = some w → b = ("a.b", "c") ∨ b = ("a", "x") := by
    intro b w hb
    have hlisted : (b, w) ∈ [(("a.b", "c"), "old"), (("a", "x"), "0")] :=
      Document.mem_assignments.mpr hb
    exact (List.mem_pair.mp hlisted).imp (congrArg Prod.fst) (congrArg Prod.fst)
  refine configValue_of_ini (a := ("a", "b.c")) hfiles rfl
    (fun b w hb => .inl (hlast b w hb)) nofun fun e he b w hb => .inr ?_
  rw [List.mem_singleton] at he
  subst he
  obtain rfl | rfl := hfirst b w hb
  · exact .inr ⟨[("a.b", "c"), ("a", "x")], [], rfl, List.mem_cons_self⟩
  · exact .inl ⟨by decide, by decide⟩

/-- The key is found with the value of the first file when that file names the section of the last
one before its own. -/
theorem configValue_of_ini_hidden :
    let s := iniStore
      [("first.ini", "[a]\nx = 0\n[a.b]\nc = old\n"), ("last.ini", "[a]\nb.c = new\n")]
    let w : Action Value := do
      configValue (← makeConfigOfIni ["first.ini", "last.ini"]) (.text "a.b.c") .null
    (Document.empty.read "[a]\nb.c = new\n").map Document.assignments
        = .ok [(("a", "b.c"), "new")] ∧
      (w.run s).1 = .ok (.text "old") := by
  intro s w
  exact ⟨rfl, rfl⟩

end Store

end Wiring
