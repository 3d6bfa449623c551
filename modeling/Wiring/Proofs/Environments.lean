import Wiring.Proofs.CachedCores

/-!
# `Wiring.Proofs.Environments`: snapshots of several environments

An application may be made for several environments, with one cache directory for all of them. The
environment is part of the name of the snapshot file, so environments with different definition
files have different snapshot files, apart from one pair: the name of the snapshot file without an
environment is that of the environment `default` (`files_of_cacheFile`).

A sequence of cores keeps every snapshot file `Faithful`: what it holds is the catalogue of its own
environment. A core that finds a snapshot leaves the files alone, and one that does not writes the
catalogue of its own environment to its own place. This needs that a path leads below the cache
directory: double dots in an environment can lead to the snapshot file of another one.
-/

set_option autoImplicit false

namespace Wiring

open Wiring.Files Store

/-- The same files have the same catalogue. -/
theorem Overlay.catalogue_of_files {o o' : Overlay} {b : Browser} {t : Tree}
    (h : o.files b t = o'.files b t) : o.catalogue b t = o'.catalogue b t := by
  unfold catalogue
  rw [h]

namespace Settings

/-- The spelling of the snapshot file below the cache directory. -/
def cacheName (x : Settings) : String := "dependencies-" ++ x.environment?.getD "default" ++ ".json"

/-- Settings with the same directories. -/
structure SameDirectories (x y : Settings) : Prop where
  browser : y.browser = x.browser
  cacheDirectory : y.cacheDirectory = x.cacheDirectory

/-- Of two settings one has no environment and the other one has that of the same name. -/
def Confused (x y : Settings) : Prop := x.environment? = none ∧ y.environment? = some "default"

instance (x y : Settings) : Decidable (x.Confused y) := inferInstanceAs (Decidable (_ ∧ _))

variable {x y : Settings} {p d : Path} {e e' : String} {a z : List Char} {mid : List (List Char)}

/-! ### Names of snapshot files -/

theorem toList_cacheName (x : Settings) : x.cacheName.toList
    = "dependencies-".toList ++ (x.environment?.getD "default").toList ++ ".json".toList := by
  unfold cacheName
  rw [String.toList_append, String.toList_append]

theorem root_cacheName (x : Settings) : (Path.ofText x.cacheName).root = "" := by
  unfold Path.ofText
  rw [toList_cacheName]
  rfl

theorem cacheFile_eq (hd : x.cacheDirectory = .path d) :
    x.cacheFile = .ok ⟨d.root, d.parts ++ (Path.ofText x.cacheName).parts⟩ := by
  unfold cacheFile
  rw [hd]
  have hroot := root_cacheName x
  show Except.ok (d.join x.cacheName) = _
  unfold Path.join
  dsimp only
  rw [if_pos hroot]

/-- The parts of a snapshot file whose environment is one piece. -/
theorem parts_cacheName (h : x.environment?.getD "default" = e)
    (he : Text.split '/' e.toList = [a]) :
    (Path.ofText x.cacheName).parts
      = [String.ofList ("dependencies-".toList ++ a ++ ".json".toList)] := by
  have hsplit : Text.split '/' ("dependencies-".toList ++ e.toList)
      = [] ++ ["dependencies-".toList ++ a] := Text.split_append_first he (by decide)
  rw [Path.parts_ofText, toList_cacheName, h, Text.split_append_last (by decide) _ hsplit]
  exact Path.partsOf_singleton (by simp)

/-- The parts of a snapshot file whose environment has slashes. -/
theorem parts_cacheName_of_slashes (h : x.environment?.getD "default" = e)
    (he : Text.split '/' e.toList = a :: (mid ++ [z])) :
    (Path.ofText x.cacheName).parts
      = String.ofList ("dependencies-".toList ++ a) ::
        (Path.partsOf mid ++ [String.ofList (z ++ ".json".toList)]) := by
  have hsplit : Text.split '/' ("dependencies-".toList ++ e.toList)
      = (("dependencies-".toList ++ a) :: mid) ++ [z] := Text.split_append_first he (by decide)
  have hparts : Path.partsOf ((("dependencies-".toList ++ a) :: mid) ++ [z ++ ".json".toList])
      = Path.partsOf ["dependencies-".toList ++ a] ++ Path.partsOf mid
        ++ Path.partsOf [z ++ ".json".toList] := by
    rw [← Path.partsOf_append, ← Path.partsOf_append]
    rfl
  rw [Path.parts_ofText, toList_cacheName, h, Text.split_append_last (by decide) _ hsplit, hparts,
    Path.partsOf_singleton (by simp), Path.partsOf_singleton (by simp)]
  rfl

/-- The pieces of the environment can be told from the parts of the snapshot file, as far as they
are parts of a path. -/
theorem pieces_of_parts_eq (h : x.environment?.getD "default" = e)
    (h' : y.environment?.getD "default" = e')
    (hparts : (Path.ofText x.cacheName).parts = (Path.ofText y.cacheName).parts) :
    e = e' ∨ ('/' ∈ e.toList ∧ '/' ∈ e'.toList ∧
      Path.partsOf (Text.split '/' e.toList) = Path.partsOf (Text.split '/' e'.toList)) := by
  -- The name is the environment between a prefix and a suffix, so its first and its last piece
  -- carry these, unless there is but one piece.
  by_cases hslash : '/' ∈ e.toList <;> by_cases hslash' : '/' ∈ e'.toList
  · obtain ⟨a, mid, z, he⟩ := Text.split_of_mem hslash
    obtain ⟨a', mid', z', he'⟩ := Text.split_of_mem hslash'
    rw [parts_cacheName_of_slashes h he, parts_cacheName_of_slashes h' he'] at hparts
    obtain ⟨hfirst, hrest⟩ := List.cons.inj hparts
    obtain ⟨hmid, hlast⟩ := List.append_inj' hrest rfl
    have ha : a = a' := List.append_cancel_left (String.ofList_injective hfirst)
    have hz : z = z' :=
      List.append_cancel_right (String.ofList_injective (List.singleton_inj.mp hlast))
    refine .inr ⟨hslash, hslash', ?_⟩
    -- The pieces in between are those of the environment itself.
    have hall : ∀ a z mid, Path.partsOf (a :: (mid ++ [z]))
        = Path.partsOf [a] ++ Path.partsOf mid ++ Path.partsOf [z] := by
      intro a z mid
      rw [← Path.partsOf_append, ← Path.partsOf_append]
      rfl
    rw [he, he', hall, hall, hmid, ha, hz]
  · obtain ⟨a, mid, z, he⟩ := Text.split_of_mem hslash
    rw [parts_cacheName_of_slashes h he, parts_cacheName h' (Text.split_of_not_mem hslash')]
      at hparts
    exact absurd (List.cons.inj hparts).2 (by simp)
  · obtain ⟨a, mid, z, he'⟩ := Text.split_of_mem hslash'
    rw [parts_cacheName h (Text.split_of_not_mem hslash), parts_cacheName_of_slashes h' he']
      at hparts
    exact absurd (List.cons.inj hparts).2 (by simp)
  · rw [parts_cacheName h (Text.split_of_not_mem hslash),
      parts_cacheName h' (Text.split_of_not_mem hslash')] at hparts
    have hname := String.ofList_injective (List.singleton_inj.mp hparts)
    have hlist := List.append_cancel_left (List.append_cancel_right hname)
    exact .inl (String.toList_inj.mp hlist)

/-- What is looked up depends on the path that is spelled only. -/
theorem hits_of_ofText {n n' : String} (h : Path.ofText n = Path.ofText n') (b : Browser)
    (t : Tree) : b.hits t n = b.hits t n' := by
  unfold Browser.hits Path.join
  rw [h]

/-- The path of the definition files of an environment. -/
theorem ofText_fileName (e : String) :
    Path.ofText (Overlay.defaultDirectory ++ "/" ++ e ++ "/" ++ Overlay.defaultFileName)
      = ⟨"", "config" :: (Path.partsOf (Text.split '/' e.toList) ++ ["dependencies.xml"])⟩ := by
  have hlist : (Overlay.defaultDirectory ++ "/" ++ e ++ "/" ++ Overlay.defaultFileName).toList
      = "config".toList ++ '/' :: (e.toList ++ '/' :: "dependencies.xml".toList) := by
    simp [Overlay.defaultDirectory, Overlay.defaultFileName]
  have hparts := Path.parts_ofText
    (Overlay.defaultDirectory ++ "/" ++ e ++ "/" ++ Overlay.defaultFileName)
  -- The two slashes around the environment are there whatever it is.
  rw [hlist, Text.split_append_separator, Text.split_append_separator, Path.partsOf_append,
    Path.partsOf_append] at hparts
  have hroot : (Path.ofText
      (Overlay.defaultDirectory ++ "/" ++ e ++ "/" ++ Overlay.defaultFileName)).root = "" := by
    unfold Path.ofText
    rw [hlist]
    rfl
  generalize Path.ofText
    (Overlay.defaultDirectory ++ "/" ++ e ++ "/" ++ Overlay.defaultFileName) = found at *
  obtain ⟨root, parts⟩ := found
  obtain rfl : root = "" := hroot
  have hconfig : Path.partsOf (Text.split '/' "config".toList) = ["config"] := by decide
  have hfile : Path.partsOf (Text.split '/' "dependencies.xml".toList) = ["dependencies.xml"] := by
    decide
  obtain rfl := hparts
  rw [hconfig, hfile]
  rfl

/-- Different environments whose snapshot files are the same have the same definition files, unless
one of them is none and the other one is called `default`. -/
theorem files_of_cacheFile (hd : x.cacheDirectory = .path d) (hd' : y.cacheDirectory = .path d)
    (hp : x.cacheFile = .ok p) (hq : y.cacheFile = .ok p) (hxy : ¬ x.Confused y)
    (hyx : ¬ y.Confused x) (b : Browser) (t : Tree) :
    x.overlay.files b t = y.overlay.files b t := by
  have hparts : (Path.ofText x.cacheName).parts = (Path.ofText y.cacheName).parts := by
    have hsame := Except.ok.inj (((cacheFile_eq hd).symm.trans hp).trans
      (hq.symm.trans (cacheFile_eq hd')))
    exact List.append_cancel_left (congrArg Path.parts hsame)
  -- The name of the snapshot file tells the environment, up to pieces that a path leaves out.
  have hpieces := pieces_of_parts_eq rfl rfl hparts
  have hdefault : '/' ∉ "default".toList := by decide
  unfold Confused at hxy hyx
  unfold overlay
  cases hx : x.environment? with
  | none =>
    cases hy : y.environment? with
    | none => rfl
    | some e' =>
      rw [hx, hy] at hpieces hxy
      rcases hpieces with rfl | ⟨hslash, -, -⟩
      · exact absurd ⟨rfl, rfl⟩ hxy
      · exact absurd hslash hdefault
  | some e =>
    cases hy : y.environment? with
    | none =>
      rw [hx, hy] at hpieces hyx
      rcases hpieces with rfl | ⟨-, hslash, -⟩
      · exact absurd ⟨rfl, rfl⟩ hyx
      · exact absurd hslash hdefault
    | some e' =>
      rw [hx, hy] at hpieces
      rcases hpieces with rfl | ⟨hslash, hslash', hsame⟩
      · rfl
      -- Those pieces are left out of the names of the definition files too.
      · have hne : ∀ e : String, '/' ∈ e.toList → e ≠ "" := by
          rintro e he rfl
          cases he
        have hhits := hits_of_ofText ((ofText_fileName e).trans
          ((congrArg _ (congrArg _ (congrArg (· ++ _) hsame))).trans (ofText_fileName e').symm)) b t
        unfold Overlay.files Overlay.names
        dsimp only
        rw [if_neg (hne e hslash), if_neg (hne e' hslash')]
        simp only [Overlay.filesOf, hhits]

/-! ### Places of snapshot files -/

/-- The path of the snapshot file leads below the cache directory. -/
def StaysBelow (x : Settings) : Prop := ".." ∉ (Path.ofText x.cacheName).parts

instance (x : Settings) : Decidable x.StaysBelow := inferInstanceAs (Decidable (¬ _))

theorem destination_cacheFile (hd : x.cacheDirectory = .path d) (hp : x.cacheFile = .ok p)
    (hx : x.StaysBelow) : p.destination = d.destination ++ (Path.ofText x.cacheName).parts := by
  obtain rfl := Except.ok.inj ((cacheFile_eq hd).symm.trans hp)
  unfold Path.destination
  rw [List.foldl_append, Tree.foldl_enter _ hx]

theorem parts_cacheName_ne_nil (x : Settings) : (Path.ofText x.cacheName).parts ≠ [] := by
  by_cases hslash : '/' ∈ (x.environment?.getD "default").toList
  · obtain ⟨a, mid, z, he⟩ := Text.split_of_mem hslash
    rw [parts_cacheName_of_slashes rfl he]
    exact List.cons_ne_nil _ _
  · rw [parts_cacheName rfl (Text.split_of_not_mem hslash)]
    exact List.cons_ne_nil _ _

/-- The snapshot files of different paths are in different places. -/
theorem cacheFile_of_destination {q : Path} (hd : x.cacheDirectory = .path d)
    (hd' : y.cacheDirectory = .path d) (hp : x.cacheFile = .ok p) (hq : y.cacheFile = .ok q)
    (hx : x.StaysBelow) (hy : y.StaysBelow) (h : p.destination = q.destination) : p = q := by
  rw [destination_cacheFile hd hp hx, destination_cacheFile hd' hq hy] at h
  have hparts := List.append_cancel_left h
  obtain rfl := Except.ok.inj ((cacheFile_eq hd).symm.trans hp)
  obtain rfl := Except.ok.inj ((cacheFile_eq hd').symm.trans hq)
  rw [hparts]

/-- A snapshot file is not in the place of a temporary one. -/
theorem not_isTemporary {q : Path} (hd : x.cacheDirectory = .path d) (hp : x.cacheFile = .ok p) :
    ¬ Cache.IsTemporary q p.destination := by
  rintro ⟨stem, h⟩
  obtain rfl : d.join x.cacheName = p := by
    unfold cacheFile at hp
    rw [hd] at hp
    exact Except.ok.inj hp
  have hjson : x.cacheName = String.ofList (("dependencies-".toList ++
      (x.environment?.getD "default").toList) ++ ".json".toList) := by
    rw [← toList_cacheName, String.ofList_toList]
  have htmp : stem ++ ".tmp" = String.ofList (stem.toList ++ ".tmp".toList) := by
    rw [← String.toList_append, String.ofList_toList]
  -- Both paths lead to a place with a last name, and the two names end differently.
  obtain ⟨before, last, hplace⟩ := Path.destination_of_ending
    (show '/' ∉ ".json".toList by decide) (by decide) d
    ("dependencies-".toList ++ (x.environment?.getD "default").toList)
  obtain ⟨before', last', hplace'⟩ := Path.destination_of_ending
    (show '/' ∉ ".tmp".toList by decide) (by decide) q.parent stem.toList
  rw [hjson, htmp, hplace, hplace'] at h
  have hlast := String.ofList_injective (List.singleton_inj.mp (List.append_inj' h rfl).2)
  have hend := congrArg List.getLast? hlast
  simp at hend

end Settings

/-! ### Cores in turn -/

namespace Store

/-- Settings are read from what matching stores have in common. -/
theorem settingsNow_of_matches {s t : Store} (h : s.Matches t) (x : Ref Settings) :
    t.settingsNow x = s.settingsNow x := by
  unfold settingsNow
  simp only [h.settings, h.current]

/-- What a core is not given is made before all else. -/
theorem run_makeCore_given (x : Ref Settings) (config : Option (Ref Config))
    (registry : Option (Ref Registry)) (vs : Variables) (s : Store) : ∃ g f s',
    (makeCore (some x) config registry none vs).run s
        = (makeCore (some x) (some g) (some f) none vs).run s' ∧
      s'.files = s.files ∧ s'.settingsNow x = s.settingsNow x := by
  -- Making a part changes neither the files nor the settings.
  have hconfig : ∃ g s',
      (makeCore (some x) config registry none vs).run s
          = (makeCore (some x) (some g) registry none vs).run s' ∧
        s'.files = s.files ∧ s'.settingsNow x = s.settingsNow x := by
    cases config with
    | some g => exact ⟨g, s, rfl, rfl, rfl⟩
    | none =>
      have hmade : makeCore (some x) none registry none vs
          = make Config.empty >>= fun g => makeCore (some x) (some g) registry none vs := by
        unfold makeCore
        simp only [orNew, pure_bind]
      have hmatches : s.Matches { s with configs := s.configs.add .empty } :=
        ⟨rfl, rfl, rfl, rfl, rfl, rfl, rfl⟩
      rw [hmade]
      exact ⟨_, _, Work.run_bind_ok (run_make Config.empty s), rfl, settingsNow_of_matches hmatches x⟩
  have hregistry : ∀ g s, ∃ f s',
      (makeCore (some x) (some g) registry none vs).run s
          = (makeCore (some x) (some g) (some f) none vs).run s' ∧
        s'.files = s.files ∧ s'.settingsNow x = s.settingsNow x := by
    intro g s
    cases registry with
    | some f => exact ⟨f, s, rfl, rfl, rfl⟩
    | none =>
      have hmade : makeCore (some x) (some g) none none vs
          = make Registry.empty >>= fun f => makeCore (some x) (some g) (some f) none vs := by
        unfold makeCore
        simp only [orNew, pure_bind]
      have hmatches : s.Matches { s with registries := s.registries.add .empty } :=
        ⟨rfl, rfl, rfl, rfl, rfl, rfl, rfl⟩
      rw [hmade]
      exact ⟨_, _, Work.run_bind_ok (run_make Registry.empty s), rfl, settingsNow_of_matches hmatches x⟩
  obtain ⟨g, s₁, hrun₁, hfiles₁, hnow₁⟩ := hconfig
  obtain ⟨f, s₂, hrun₂, hfiles₂, hnow₂⟩ := hregistry g s₁
  exact ⟨g, f, s₂, hrun₁.trans hrun₂, hfiles₂.trans hfiles₁, hnow₂.trans hnow₁⟩

end Store

/-- An attempt to make a core from settings, with the stores around it. -/
structure Creation where
  before : Store
  settings : Ref Settings
  config : Option (Ref Config)
  registry : Option (Ref Registry)
  surroundings : Variables
  result : Except Fault (Ref Core)
  after : Store

namespace Creation

/-- The settings of a creation as they are then. -/
def now (m : Creation) : Settings := m.before.settingsNow m.settings

/-- The moment is that of making a core. -/
def Ran (m : Creation) : Prop :=
  (makeCore (some m.settings) m.config m.registry none m.surroundings).run m.before
    = (m.result, m.after)

/-- A creation with a snapshot file below a cache directory. -/
structure Fits (b : Browser) (d : Path) (m : Creation) : Prop where
  ran : m.Ran
  browser : m.now.browser = .ok b
  caching : m.now.caching.truthy = true
  cacheDirectory : m.now.cacheDirectory = .path d
  below : m.now.StaysBelow

/-- Creations one after the other, with nothing else done to the files. -/
def Follow : Tree → List Creation → Prop
  | _, [] => True
  | t, m :: rest => m.before.files = t ∧ Follow m.after.files rest

/-- The core has the container of its own environment as a tree gives it, or it is not made: because
that container cannot be built, or because there is no way to say where its snapshot is. -/
structure GetsOwn (b : Browser) (t : Tree) (m : Creation) : Prop where
  built : ∀ p, m.now.cacheFile = .ok p → p.Speakable →
    Except.Alike (fun c k => ∃ g f, m.after.Serves k g f c.definitions)
      (m.now.overlay.catalogue b t) m.result
  unspeakable : ∀ p, m.now.cacheFile = .ok p → ¬ p.Speakable → ∀ k, m.result ≠ .ok k

/-- What the snapshot files of some creations hold is the catalogue of their own environment as a
tree gives it. -/
def Faithful (b : Browser) (t₀ : Tree) (creations : List Creation) (t : Tree) : Prop :=
  ∀ m ∈ creations, ∀ p content text k, m.now.cacheFile = .ok p →
    t.node? p.destination = some (.file content) → String.fromUTF8? content = some text →
    Snapshot.loads text = .ok k →
    ∃ c, m.now.overlay.catalogue b t₀ = .ok c ∧ k.definitions = c.definitions

variable {b : Browser} {d p : Path} {t₀ t : Tree} {creations : List Creation} {m : Creation}
  {c k : Catalogue}

/-- A snapshot that is read from a faithful tree is that of the own environment. -/
theorem Faithful.holds (h : Faithful b t₀ creations t) (hm : m ∈ creations)
    (hp : m.now.cacheFile = .ok p) (hk : Cache.Holds t p k) :
    ∃ c, m.now.overlay.catalogue b t₀ = .ok c ∧ k.definitions = c.definitions := by
  obtain ⟨content, text, hcontent, htext, hk⟩ := hk
  obtain ⟨l, hl, hnode⟩ := Tree.read_eq_ok_iff.mp hcontent
  rw [Tree.locate_eq_destination hl] at hnode
  exact h m hm p content text k hp hnode htext hk

/-- Writing the catalogue of an own environment keeps the files faithful. -/
theorem Faithful.written (h : Faithful b t₀ creations t) (hfits : ∀ m ∈ creations, m.Fits b d)
    (hconfused : ∀ m ∈ creations, ∀ m' ∈ creations, m.now.Confused m'.now →
      m.now.overlay.files b t₀ = m'.now.overlay.files b t₀)
    (hm : m ∈ creations)
    (hp : m.now.cacheFile = .ok p) (hc : m.now.overlay.catalogue b t₀ = .ok c) :
    Faithful b t₀ creations (Cache.write t p c.definitions).1 := by
  intro m' hm' q content text k hq hnode htext hk
  have hfit := hfits m hm
  have hfit' := hfits m' hm'
  rcases Cache.adds_write t p c.definitions _ _ hnode with hold | ⟨hplace, s, hs, rfl⟩ | htemporary
  · exact h m' hm' q content text k hq hold htext hk
  · -- The place is that of one path only, and so of one list of definition files.
    obtain rfl : q = p := Settings.cacheFile_of_destination hfit'.cacheDirectory
      hfit.cacheDirectory hq hp hfit'.below hfit.below hplace
    have hfiles : m'.now.overlay.files b t₀ = m.now.overlay.files b t₀ := by
      by_cases hxy : m'.now.Confused m.now
      · exact hconfused m' hm' m hm hxy
      · by_cases hyx : m.now.Confused m'.now
        · exact (hconfused m hm m' hm' hyx).symm
        · exact Settings.files_of_cacheFile hfit'.cacheDirectory hfit.cacheDirectory hq hp hxy hyx b
            t₀
    -- What was written reads as the catalogue that it was made from.
    refine ⟨c, (Overlay.catalogue_of_files hfiles).trans hc, ?_⟩
    obtain ⟨-, hwellFormed, hplain⟩ := Overlay.plain_of_catalogue hc
    obtain ⟨text', k', htext', hk', -, hdefinitions⟩ :=
      Snapshot.loads_dumps_of_plain hwellFormed hplain
    obtain rfl := Option.some.inj (htext'.symm.trans hs)
    have hsame : text' = text := Option.some.inj
      ((show String.fromUTF8? text'.toUTF8 = some text' from dif_pos text'.isValidUTF8).symm.trans
        htext)
    obtain rfl := Except.ok.inj (hk'.symm.trans (hsame ▸ hk))
    exact hdefinitions
  · exact absurd htemporary (Settings.not_isTemporary hfit'.cacheDirectory hq)

/-- One creation. -/
theorem Faithful.step (h : Faithful b t₀ creations m.before.files)
    (hfits : ∀ m ∈ creations, m.Fits b d)
    (hconfused : ∀ m ∈ creations, ∀ m' ∈ creations, m.now.Confused m'.now →
      m.now.overlay.files b t₀ = m'.now.overlay.files b t₀)
    (hm : m ∈ creations)
    (hunchanged : m.now.overlay.catalogue b m.before.files = m.now.overlay.catalogue b t₀) :
    m.GetsOwn b t₀ ∧ Faithful b t₀ creations m.after.files := by
  have hfit := hfits m hm
  obtain ⟨p, hp⟩ : ∃ p, m.now.cacheFile = .ok p := ⟨_, Settings.cacheFile_eq hfit.cacheDirectory⟩
  obtain ⟨g, f, s, hgiven, hfiles, hnow⟩ := run_makeCore_given m.settings m.config m.registry
    m.surroundings m.before
  have hran := hgiven.symm.trans hfit.ran
  have hb : (s.settingsNow m.settings).browser = .ok b := hnow ▸ hfit.browser
  have hon : (s.settingsNow m.settings).caching.truthy = true := hnow ▸ hfit.caching
  have hs : (s.settingsNow m.settings).cacheFile = .ok p := hnow ▸ hp
  have hp_unique : ∀ {q}, m.now.cacheFile = .ok q → q = p :=
    fun hq => Except.ok.inj (hq.symm.trans hp)
  -- A snapshot file whose name cannot be told is never read. Any other one holds a snapshot, or it
  -- is written if the definitions load.
  by_cases hspeakable : p.Speakable
  · by_cases hholds : ∃ k, Cache.Holds s.files p k
    · obtain ⟨k, hholds⟩ := hholds
      obtain ⟨c, hc, hdefinitions⟩ := h.holds hm hp (hfiles ▸ hholds)
      obtain ⟨-, -, hplain⟩ := Overlay.plain_of_catalogue hc
      have hflat : ∀ e ∈ k.definitions.entries, e.2.IsFlat :=
        hdefinitions ▸ fun e he => (hplain e he).flat
      obtain ⟨core, t, hmade, hserves, hsame⟩ := makeCore_restored hb hon hs hholds hflat
      obtain ⟨hresult, rfl⟩ := Prod.mk.inj (hran.symm.trans hmade)
      refine ⟨⟨fun q hq _ => ?_, fun q hq hnot => absurd (hp_unique hq ▸ hspeakable) hnot⟩, ?_⟩
      · rw [hc, hresult]
        exact .ok ⟨g, f, hdefinitions ▸ hserves⟩
      · rw [hsame, hfiles]
        exact h
    · obtain ⟨result, t, hmade, halike, hfailed⟩ : ∃ result t,
          (makeCore (some m.settings) (some g) (some f) none m.surroundings).run s = (result, t) ∧
            _ ∧ _ := makeCore_unrestored hb hon hs hspeakable hholds
      obtain ⟨rfl, rfl⟩ := Prod.mk.inj (hmade.symm.trans hran)
      rw [hnow, hfiles] at halike
      rw [show m.before.settingsNow m.settings = m.now from rfl, hunchanged] at halike
      refine ⟨⟨fun q hq _ => ?_, fun q hq hnot => absurd (hp_unique hq ▸ hspeakable) hnot⟩, ?_⟩
      · exact halike.mono fun c k hk => ⟨g, f, hk.1⟩
      · generalize hresult : m.result = result at *
        generalize hcatalogue : m.now.overlay.catalogue b t₀ = made at *
        cases halike with
        | error e =>
          rw [hfailed e rfl, hfiles]
          exact h
        | ok hk =>
          rw [hk.2]
          exact h.written hfits hconfused hm hp hcatalogue
  · obtain ⟨e, t, hmade, hsame⟩ := makeCore_unspeakable hb hon hs hspeakable
    obtain ⟨hresult, rfl⟩ := Prod.mk.inj (hran.symm.trans hmade)
    refine ⟨⟨fun q hq hsaid => absurd (hp_unique hq ▸ hsaid) hspeakable, fun q hq _ k hk => ?_⟩, ?_⟩
    · rw [hresult] at hk
      cases hk
    · rw [hsame, hfiles]
      exact h

/-- Creations in turn. -/
theorem Faithful.run (hfits : ∀ m ∈ creations, m.Fits b d)
    (hconfused : ∀ m ∈ creations, ∀ m' ∈ creations, m.now.Confused m'.now →
      m.now.overlay.files b t₀ = m'.now.overlay.files b t₀)
    (hunchanged : ∀ m ∈ creations,
      m.now.overlay.catalogue b m.before.files = m.now.overlay.catalogue b t₀)
    (rest : List Creation) : ∀ {t : Tree}, Faithful b t₀ creations t → Follow t rest →
      (∀ m ∈ rest, m ∈ creations) → ∀ m ∈ rest, m.GetsOwn b t₀ := by
  induction rest with
  | nil => exact fun _ _ _ m hm => absurd hm List.not_mem_nil
  | cons m rest ih =>
    rintro _ h ⟨rfl, hfollow⟩ hmem
    have hm := hmem m List.mem_cons_self
    obtain ⟨hown, hnext⟩ := h.step hfits hconfused hm (hunchanged m hm)
    rintro m' (_ | ⟨_, hm'⟩)
    · exact hown
    · exact ih hnext hfollow (fun x hx => hmem x (List.mem_cons_of_mem _ hx)) m' hm'

end Creation

/-- Nothing stands below a directory. -/
def Files.Tree.EmptyBelow (t : Tree) (d : Path) : Prop :=
  ∀ l, l ≠ [] → t.node? (d.destination ++ l) = none

/-- In an empty cache directory there is nothing to mistake. -/
theorem Creation.faithful_of_emptyBelow {b : Browser} {d : Path} {t : Tree}
    {creations : List Creation} (hfits : ∀ m ∈ creations, m.Fits b d) (h : t.EmptyBelow d) :
    Faithful b t creations t := by
  intro m hm p content text k hp hnode
  have hfit := hfits m hm
  rw [Settings.destination_cacheFile hfit.cacheDirectory hp hfit.below,
    h _ (Settings.parts_cacheName_ne_nil _)] at hnode
  cases hnode

/-- Environments have snapshots of their own. Settings with the same directories whose environments
have different definition files somewhere have different snapshot files, unless one of them has no
environment and the other one has that of the name `default`. And when this pair is left out of a
sequence of cores, unless it has the same definition files, and the snapshot files lie below a cache
directory that is empty at first, each core of the sequence has the container of its own
environment, as long as its definition files stay as they are. -/
theorem environments_apart :
    (∀ (x y : Settings) (p q : Path), x.SameDirectories y → x.cacheFile = .ok p →
      y.cacheFile = .ok q → ¬ x.Confused y → ¬ y.Confused x →
      (∃ b t, x.browser = .ok b ∧ x.overlay.files b t ≠ y.overlay.files b t) → p ≠ q) ∧
    ∀ (b : Browser) (d : Path) (t : Tree) (creations : List Creation),
      (∀ m ∈ creations, m.Fits b d) →
      (∀ m ∈ creations, ∀ m' ∈ creations, m.now.Confused m'.now →
        m.now.overlay.files b t = m'.now.overlay.files b t) →
      t.EmptyBelow d → Creation.Follow t creations →
      (∀ m ∈ creations, m.now.overlay.catalogue b m.before.files = m.now.overlay.catalogue b t) →
      ∀ m ∈ creations, m.GetsOwn b t := by
  refine ⟨fun x y p q hdirectories hp hq hxy hyx ⟨b, t, _, hdiffer⟩ hsame => ?_,
    fun b d t creations hfits hconfused hempty hfollow hunchanged => ?_⟩
  -- Two environments with one snapshot file would have the same definition files everywhere.
  · subst hsame
    obtain ⟨d, hd⟩ : ∃ d, x.cacheDirectory = .path d := by
      unfold Settings.cacheFile at hp
      split at hp
      · rename_i d hd
        exact ⟨d, hd⟩
      · cases hp
    exact hdiffer (Settings.files_of_cacheFile hd (hdirectories.cacheDirectory.trans hd) hp hq hxy
      hyx b t)
  · exact Creation.Faithful.run hfits hconfused hunchanged creations
      (Creation.faithful_of_emptyBelow hfits hempty) hfollow fun _ hm => hm

/-! ### Environments of an application -/

open Wiring.Xml

/-- A file with one definition. -/
def outpostFile : ByteArray := wideBytes "<dependency class='A'/>"

def outpostElement : Element := .mk "dependency" [("class", "A")] []

set_option maxRecDepth 20000 in
theorem readBytes_outpostFile : readBytes outpostFile.data.toList = .ok outpostElement := by
  cbv

/-- Two environments have definition files. -/
def outpostTree : Tree :=
  ⟨OrderedMap.empty
    |>.insert ["app"] .directory
    |>.insert ["app", "config"] .directory
    |>.insert ["app", "config", "default"] .directory
    |>.insert ["app", "config", "default", "dependencies.xml"] (.file outpostFile)
    |>.insert ["app", "config", "dependencies-dev"] .directory
    |>.insert ["app", "config", "dependencies-dev", "dependencies.xml"] (.file outpostFile)
    |>.insert ["app", "config", "x"] .directory⟩

def outpostSettings (environment : Value) : Settings :=
  ⟨.path ⟨"", ["app"]⟩, .list none [], environment, .bool true, .path ⟨"", ["cache"]⟩⟩

def outpostBrowser : Browser := Browser.of (some ⟨"", ["app"]⟩) []

/-- The environments of three settings. -/
def outposts : List String := ["dev", "dependencies-dev", "x/../dependencies-dev"]

def outpostStore : Store :=
  { Store.empty boxProgram with
    files := outpostTree
    configs := ⟨[Config.empty]⟩
    registries := ⟨[boxRegistry]⟩
    settings := ⟨outposts.map fun e => outpostSettings (.text e)⟩ }

theorem settingsNow_outpost {t : Store} (h : outpostStore.Grows t) {i : Nat} {e : String}
    (hi : outposts[i]? = some e) :
    t.settingsNow ⟨i⟩ = outpostSettings (.text e) := by
  obtain ⟨hlt, he⟩ := List.getElem?_eq_some_iff.mp hi
  have hheld : outpostStore.settings.Holds ⟨i⟩ := hlt
  have hget : t.settings.get ⟨i⟩ = outpostSettings (.text e) := by
    rw [h.settings.get hheld]
    show ((outposts.map fun e => outpostSettings (.text e))[i]?).getD default = _
    rw [List.getElem?_map, hi]
    rfl
  unfold settingsNow
  rw [hget]
  rfl

/-- A core of the application, made in turn. -/
def outpostCreation (s : Store) (i : Nat) : Creation :=
  let made := (makeCore (some ⟨i⟩) (some ⟨0⟩) (some ⟨0⟩) none []).run s
  ⟨s, ⟨i⟩, some ⟨0⟩, some ⟨0⟩, [], made.1, made.2⟩

/-- What the file of an environment declares. -/
def outpostCatalogue (source : String) : Catalogue :=
  (((Declaration.ofElement source outpostElement).bind
    (Declaration.applyAll .empty)).toOption).getD .empty

theorem load_outpost {p : Path} (hread : outpostTree.read p = .ok outpostFile) :
    (Overlay.load outpostTree .empty [p]).2 = .ok (outpostCatalogue p.text) := by
  rw [Overlay.load, Declaration.ofFile, hread, Declaration.ofContent, readBytes_outpostFile]
  rfl

/-- The first core of an environment writes what its file declares. -/
theorem files_outpostCreation {i : Nat} {e : String} {p : Path} {c : Catalogue}
    (hi : outposts[i]? = some e)
    (hp : (outpostSettings (.text e)).cacheFile = .ok p) (hspeakable : p.Speakable)
    (hc : (outpostSettings (.text e)).overlay.catalogue outpostBrowser outpostTree = .ok c)
    (hmissing : outpostTree.read p = .error .missing) :
    outpostStore.Grows (outpostCreation outpostStore i).after ∧ ∃ text k,
      (outpostCreation outpostStore i).after.files = (Cache.replace outpostTree p text).1 ∧
        Snapshot.loads text = .ok k ∧ k.definitions = c.definitions := by
  have hnow := settingsNow_outpost (.refl _) hi
  have hholds : ¬ ∃ k, Cache.Holds outpostStore.files p k := by
    rintro ⟨k, content, text, hread, -⟩
    cases hmissing.symm.trans hread
  have hb : (outpostStore.settingsNow ⟨i⟩).browser = .ok outpostBrowser := by
    rw [hnow]
    rfl
  have hon : (outpostStore.settingsNow ⟨i⟩).caching.truthy = true := by
    rw [hnow]
    rfl
  obtain ⟨result, t, hmade, halike, -⟩ : ∃ result t,
      (makeCore (some ⟨i⟩) (some ⟨0⟩) (some ⟨0⟩) none []).run outpostStore = (result, t) ∧ _ ∧ _ :=
    makeCore_unrestored hb hon (hnow ▸ hp) hspeakable hholds
  rw [hnow] at halike
  have hstart : outpostStore.files = outpostTree := rfl
  rw [hstart, hc] at halike
  have hafter : (outpostCreation outpostStore i).after = t := congrArg Prod.snd hmade
  cases halike with
  | ok hk =>
    rw [hafter, hk.2]
    obtain ⟨-, hwellFormed, hplain⟩ := Overlay.plain_of_catalogue hc
    obtain ⟨text, k, htext, hk, -, hdefinitions⟩ :=
      Snapshot.loads_dumps_of_plain hwellFormed hplain
    refine ⟨grows_makeCore hmade, text, k, ?_, hk, hdefinitions⟩
    unfold Cache.write
    rw [htext]
    dsimp only
    cases Cache.replace outpostTree p text with
    | mk t' trouble => cases trouble <;> rfl

theorem catalogue_dev : (outpostSettings (.text "dev")).overlay.catalogue outpostBrowser outpostTree
    = .ok .empty := by
  have hfiles : (outpostSettings (.text "dev")).overlay.files outpostBrowser outpostTree = .ok [] := rfl
  rw [Overlay.catalogue, hfiles]
  rfl

/-- The snapshot files of the other environments. -/
def outpostPaths : List Path :=
  [⟨"", ["cache", "dependencies-dependencies-dev.json"]⟩,
    ⟨"", ["cache", "dependencies-x", "..", "dependencies-dev.json"]⟩]

set_option maxRecDepth 10000 in
/-- A snapshot is no definition file. -/
theorem catalogue_dev_later {p : Path} (hp : p ∈ outpostPaths) (text : String) :
    (outpostSettings (.text "dev")).overlay.catalogue outpostBrowser
      (Cache.replace outpostTree p text).1 = .ok .empty := by
  have hfiles : (outpostSettings (.text "dev")).overlay.files outpostBrowser
      (Cache.replace outpostTree p text).1 = .ok [] := by
    rcases hp with _ | ⟨_, _ | ⟨_, ⟨⟩⟩⟩ <;> rfl
  rw [Overlay.catalogue, hfiles]
  rfl

theorem catalogue_dependencies_dev :
    (outpostSettings (.text "dependencies-dev")).overlay.catalogue outpostBrowser outpostTree
      = .ok (outpostCatalogue "app/config/dependencies-dev/dependencies.xml") := by
  have hfiles : (outpostSettings (.text "dependencies-dev")).overlay.files outpostBrowser outpostTree
      = .ok [⟨"", ["app", "config", "dependencies-dev", "dependencies.xml"]⟩] := rfl
  rw [Overlay.catalogue, hfiles]
  exact load_outpost rfl

theorem catalogue_dots :
    (outpostSettings (.text "x/../dependencies-dev")).overlay.catalogue outpostBrowser outpostTree
      = .ok (outpostCatalogue "app/config/x/../dependencies-dev/dependencies.xml") := by
  have hfiles : (outpostSettings (.text "x/../dependencies-dev")).overlay.files outpostBrowser
      outpostTree
        = .ok [⟨"", ["app", "config", "x", "..", "dependencies-dev", "dependencies.xml"]⟩] := rfl
  rw [Overlay.catalogue, hfiles]
  exact load_outpost rfl

theorem emptyBelow_outpost : outpostTree.EmptyBelow ⟨"", ["cache"]⟩ := by
  intro l _
  have habove : Tree.isAbove (["cache"] ++ l) = false := by simp [Tree.isAbove]
  show outpostTree.node? (["cache"] ++ l) = none
  rw [Tree.node?_of_not_above habove, OrderedMap.get?_eq_none_iff]
  have hkeys : ∀ key ∈ outpostTree.nodes.keys, key.head? ≠ some "cache" := by decide
  exact fun hmem => hkeys _ hmem rfl

theorem ran_outpost (s : Store) (i : Nat) : (outpostCreation s i).Ran := rfl

theorem before_outpost (s : Store) (i : Nat) : (outpostCreation s i).before = s := rfl

theorem fits_outpost {s : Store} (h : outpostStore.Grows s) {i : Nat} {e : String}
    (hi : outposts[i]? = some e)
    (hbelow : (outpostSettings (.text e)).StaysBelow) :
    (outpostCreation s i).now = outpostSettings (.text e) ∧
      (outpostCreation s i).Fits outpostBrowser ⟨"", ["cache"]⟩ := by
  have hnow : (outpostCreation s i).now = outpostSettings (.text e) := settingsNow_outpost h hi
  refine ⟨hnow, ran_outpost s i, ?_, ?_, ?_, ?_⟩ <;> rw [hnow]
  · rfl
  · rfl
  · rfl
  · exact hbelow

/-- Two environments of the application get what is their own. -/
theorem environments_apart_outposts :
    (∀ p q, (outpostSettings (.text "dev")).cacheFile = .ok p →
      (outpostSettings (.text "dependencies-dev")).cacheFile = .ok q → p ≠ q) ∧
    ∃ m m', Creation.Follow outpostTree [m, m'] ∧
      m.now = outpostSettings (.text "dependencies-dev") ∧
      m'.now = outpostSettings (.text "dev") ∧
      m.GetsOwn outpostBrowser outpostTree ∧ m'.GetsOwn outpostBrowser outpostTree := by
  obtain ⟨hpaths, hcores⟩ := environments_apart
  refine ⟨fun p q hp hq => ?_, ?_⟩
  · have hnone : (outpostSettings (.text "dev")).overlay.files outpostBrowser outpostTree = .ok [] :=
      rfl
    have hsome : (outpostSettings (.text "dependencies-dev")).overlay.files outpostBrowser outpostTree
        = .ok [⟨"", ["app", "config", "dependencies-dev", "dependencies.xml"]⟩] := rfl
    refine hpaths (outpostSettings (.text "dev")) (outpostSettings (.text "dependencies-dev")) p q
      ⟨rfl, rfl⟩ hp hq (by decide) (by decide) ⟨outpostBrowser, outpostTree, rfl, ?_⟩
    rw [hnone, hsome]
    nofun
  · obtain ⟨hgrows, text, k, hfiles, -⟩ := files_outpostCreation (i := 1) rfl rfl (by decide)
      catalogue_dependencies_dev rfl
    obtain ⟨hnow, hfits⟩ := fits_outpost (.refl outpostStore) (i := 1) rfl (by decide)
    obtain ⟨hnow', hfits'⟩ := fits_outpost hgrows (i := 0) rfl (by decide)
    have hstart : (outpostCreation outpostStore 1).before.files = outpostTree := rfl
    -- From here on it does not matter how the stores came about.
    generalize outpostCreation outpostStore 1 = m at *
    generalize hm' : outpostCreation m.after 0 = m' at *
    have hbefore : m'.before.files = m.after.files := hm' ▸ rfl
    have hfollow : Creation.Follow outpostTree [m, m'] := ⟨hstart, hbefore, trivial⟩
    have hfit : ∀ x ∈ [m, m'], x.Fits outpostBrowser ⟨"", ["cache"]⟩ := by
      rintro x (_ | ⟨_, _ | ⟨_, ⟨⟩⟩⟩)
      · exact hfits
      · exact hfits'
    have hnames : ∀ x ∈ [m, m'], ∃ e, x.now = outpostSettings (.text e) ∧ e ≠ "" := by
      rintro x (_ | ⟨_, _ | ⟨_, ⟨⟩⟩⟩)
      · exact ⟨_, hnow, by decide⟩
      · exact ⟨_, hnow', by decide⟩
    have hconfused : ∀ x ∈ [m, m'], ∀ y ∈ [m, m'], x.now.Confused y.now →
        x.now.overlay.files outpostBrowser outpostTree
          = y.now.overlay.files outpostBrowser outpostTree := by
      rintro x hx y - ⟨hnone, -⟩
      obtain ⟨e, he, hne⟩ := hnames x hx
      rw [he] at hnone
      simp [Settings.environment?, outpostSettings, Value.truthy, hne] at hnone
    have hunchanged : ∀ x ∈ [m, m'], x.now.overlay.catalogue outpostBrowser x.before.files
        = x.now.overlay.catalogue outpostBrowser outpostTree := by
      rintro x (_ | ⟨_, _ | ⟨_, ⟨⟩⟩⟩)
      · rw [hstart]
      · rw [hnow', hbefore, hfiles]
        exact (catalogue_dev_later List.mem_cons_self text).trans catalogue_dev.symm
    have hall := hcores outpostBrowser ⟨"", ["cache"]⟩ outpostTree [m, m'] hfit hconfused
      emptyBelow_outpost hfollow hunchanged
    exact ⟨m, m', hfollow, hnow, hnow', hall m List.mem_cons_self,
      hall m' (List.mem_cons_of_mem _ List.mem_cons_self)⟩

/-- The snapshot file of the second environment is the one to which double dots led before. -/
theorem not_getsOwn_dev {s : Store} {c k : Catalogue} {text : String} (hgrows : outpostStore.Grows s)
    (hfiles : s.files = (Cache.replace outpostTree
      ⟨"", ["cache", "dependencies-x", "..", "dependencies-dev.json"]⟩ text).1)
    (hk : Snapshot.loads text = .ok k)
    (hc : (outpostSettings (.text "x/../dependencies-dev")).overlay.catalogue outpostBrowser outpostTree
      = .ok c)
    (hdefinitions : k.definitions = c.definitions) (hsize : c.definitions ≠ .empty) :
    ¬ (outpostCreation s 0).GetsOwn outpostBrowser outpostTree := by
  intro hown
  have hnow : s.settingsNow ⟨0⟩ = outpostSettings (.text "dev") := settingsNow_outpost hgrows rfl
  have hread : s.files.read ⟨"", ["cache", "dependencies-dev.json"]⟩ = .ok text.toUTF8 := by
    rw [hfiles]
    rfl
  have hholds : Cache.Holds s.files ⟨"", ["cache", "dependencies-dev.json"]⟩ k :=
    ⟨_, text, hread, dif_pos text.isValidUTF8, hk⟩
  obtain ⟨-, -, hplain⟩ := Overlay.plain_of_catalogue hc
  have hflat : ∀ e ∈ k.definitions.entries, e.2.IsFlat :=
    hdefinitions ▸ fun e he => (hplain e he).flat
  have hb : (s.settingsNow ⟨0⟩).browser = .ok outpostBrowser := by
    rw [hnow]
    rfl
  have hon : (s.settingsNow ⟨0⟩).caching.truthy = true := by
    rw [hnow]
    rfl
  have hp : (s.settingsNow ⟨0⟩).cacheFile = .ok ⟨"", ["cache", "dependencies-dev.json"]⟩ := by
    rw [hnow]
    rfl
  obtain ⟨core, t, hmade, hserves, -⟩ : ∃ core t,
      (makeCore (some ⟨0⟩) (some ⟨0⟩) (some ⟨0⟩) none []).run s = (.ok core, t) ∧
        t.Serves core ⟨0⟩ ⟨0⟩ k.definitions ∧ _ := makeCore_restored hb hon hp hholds hflat
  -- The core got the snapshot of the other environment, where its own would be empty.
  have halike := hown.built _ hp (by decide)
  have hresult : (outpostCreation s 0).result = .ok core := congrArg Prod.fst hmade
  have hafter : (outpostCreation s 0).after = t := congrArg Prod.snd hmade
  have hdev : (outpostCreation s 0).now.overlay.catalogue outpostBrowser outpostTree = .ok .empty :=
    (congrArg (fun x : Settings => x.overlay.catalogue outpostBrowser outpostTree) hnow).trans
      catalogue_dev
  rw [hresult, hafter, hdev] at halike
  cases halike with
  | ok hempty =>
    obtain ⟨g, f, hempty⟩ := hempty
    exact hsize ((hdefinitions.symm.trans (hserves.view.symm.trans hempty.view)))

/-- No environment and the environment `default` share a snapshot file. And double dots can lead to
the snapshot file of another environment, whose next core then has a container that is not its own,
although the two paths are different. -/
theorem environments_mixed :
    ((outpostSettings .null).SameDirectories (outpostSettings (.text "default")) ∧
      (outpostSettings .null).overlay.files outpostBrowser outpostTree
        ≠ (outpostSettings (.text "default")).overlay.files outpostBrowser outpostTree ∧
      (outpostSettings .null).cacheFile = (outpostSettings (.text "default")).cacheFile) ∧
    (outpostSettings (.text "x/../dependencies-dev")).cacheFile
      ≠ (outpostSettings (.text "dev")).cacheFile ∧
    ∃ m m', Creation.Follow outpostTree [m, m'] ∧ outpostTree.EmptyBelow ⟨"", ["cache"]⟩ ∧
      m.now = outpostSettings (.text "x/../dependencies-dev") ∧
      m'.now = outpostSettings (.text "dev") ∧
      m.Ran ∧ m'.Ran ∧
      (∀ x ∈ [m, m'], x.now.overlay.catalogue outpostBrowser x.before.files
        = x.now.overlay.catalogue outpostBrowser outpostTree) ∧
      ¬ m'.GetsOwn outpostBrowser outpostTree := by
  refine ⟨⟨⟨rfl, rfl⟩, ?_, rfl⟩, ?_, ?_⟩
  · have hnone : (outpostSettings .null).overlay.files outpostBrowser outpostTree = .ok [] := rfl
    have hsome : (outpostSettings (.text "default")).overlay.files outpostBrowser outpostTree
        = .ok [⟨"", ["app", "config", "default", "dependencies.xml"]⟩] := rfl
    rw [hnone, hsome]
    nofun
  · have hdots : (outpostSettings (.text "x/../dependencies-dev")).cacheFile
        = .ok ⟨"", ["cache", "dependencies-x", "..", "dependencies-dev.json"]⟩ := rfl
    have hdev : (outpostSettings (.text "dev")).cacheFile
        = .ok ⟨"", ["cache", "dependencies-dev.json"]⟩ := rfl
    rw [hdots, hdev]
    nofun
  · obtain ⟨hgrows, text, k, hfiles, hk, hdefinitions⟩ := files_outpostCreation (i := 2) rfl rfl
      (by decide) catalogue_dots rfl
    have hsize : (outpostCatalogue "app/config/x/../dependencies-dev/dependencies.xml").definitions
        ≠ .empty := by
      intro hempty
      have hlength := congrArg (fun c => c.entries.length) hempty
      exact absurd hlength (by decide)
    have hnow : (outpostCreation outpostStore 2).now = outpostSettings (.text "x/../dependencies-dev") :=
      settingsNow_outpost (.refl outpostStore) rfl
    have hran := ran_outpost outpostStore 2
    have hstart : (outpostCreation outpostStore 2).before.files = outpostTree :=
      congrArg Store.files (before_outpost outpostStore 2)
    generalize outpostCreation outpostStore 2 = m at *
    have hnow' : (outpostCreation m.after 0).now = outpostSettings (.text "dev") :=
      settingsNow_outpost hgrows rfl
    have hbefore : (outpostCreation m.after 0).before.files = m.after.files := rfl
    refine ⟨m, outpostCreation m.after 0, ⟨hstart, hbefore, trivial⟩, emptyBelow_outpost, hnow, hnow',
      hran, ran_outpost m.after 0, ?_,
      not_getsOwn_dev hgrows hfiles hk catalogue_dots hdefinitions hsize⟩
    rintro x (_ | ⟨_, _ | ⟨_, ⟨⟩⟩⟩)
    · rw [hstart]
    · rw [hnow', hbefore, hfiles]
      exact (catalogue_dev_later (List.mem_cons_of_mem _ List.mem_cons_self) text).trans
        catalogue_dev.symm

end Wiring
