import Wiring.Proofs.Layering
import Wiring.Store.Sources

/-!
# `Wiring.Proofs.Loading`: which declaration wins

`load_of_browser` is the precedence of layered definition files. When a container is loaded, every
file was read, every declaration gave a definition, and the container holds exactly those
definitions: under a key stands the one of the last declaration for that key, built against the
container as it was just before, and interfaces and identifiers stand in the order of the first
declarations for them.

The browser decides which files there are. It may be asked more than once, and remembers its
directories in between; it gives the same ones each time, because loading leaves the files alone.
-/

set_option autoImplicit false

namespace Wiring

open Wiring.Files Wiring.Xml

/-! ### The files of a browser -/

namespace Store

/-- The browser gives some directories whenever it gives any. -/
def Gives (s : Store) (r : Ref Browser) (t : Tree) (dirs : List Path) : Prop :=
  s.files = t ∧ ∀ found, (s.browsers.get r).includes t false = .ok found → found = dirs

variable {s s' : Store} {r : Ref Browser} {t : Tree} {dirs : List Path}

/-- What the log says does not matter to the browser. -/
theorem Gives.report (h : s.Gives r t dirs) (events : List LogEvent) :
    Gives { s with log := s.log ++ events } r t dirs := h

/-- Asking about the files changes nothing. -/
theorem onFiles_eq_ok {α : Type} {f : Tree → Except Trouble α} {a : α}
    (h : (onFiles f).run s = (.ok a, s')) : f s.files = .ok a ∧ s' = s := by
  unfold onFiles at h
  rw [Work.run_bind_ok (Work.run_get s), Work.run_lift] at h
  obtain ⟨hf, hs⟩ := Prod.mk.inj h
  exact ⟨Except.mapError_eq_ok.mp hf, hs.symm⟩

/-- A browser that was asked gives the same directories again. -/
theorem Gives.looked (h : s.Gives r t dirs) :
    Gives { s with browsers := s.browsers.modify r fun b => b.looked s.files false } r t dirs := by
  refine ⟨h.1, ?_⟩
  intro found hfound
  by_cases hr : s.browsers.Holds r
  · rw [Cells.get_modify_self hr, h.1] at hfound
    unfold Browser.looked at hfound
    split at hfound
    · rename_i given hgiven
      cases hfound
      exact h.2 _ hgiven
    · exact h.2 found hfound
  · have hsame : (s.browsers.modify r fun b => b.looked s.files false) = s.browsers := by
      unfold Cells.modify
      rw [List.modify_eq_self (Nat.le_of_not_lt hr)]
    rw [hsame] at hfound
    exact h.2 found hfound

/-- Asking a browser for its directories. -/
theorem includes_eq_ok (h : s.Gives r t dirs) {found : List Path}
    (hrun : (includes r false).run s = (.ok found, s')) : found = dirs ∧ s'.Gives r t dirs := by
  -- The warning of the first lookup is reported or not, and the lookup is the same after it.
  have hrest : ∀ {s₁ : Store}, s₁.Gives r t dirs → s₁.browsers = s.browsers →
      (do
        let found ← onFiles fun t => (s.browsers.get r).includes t false
        change r fun b => b.looked s.files false
        pure found : Action (List Path)).run s₁ = (.ok found, s') →
      found = dirs ∧ s'.Gives r t dirs := by
    intro s₁ h₁ hb hrun
    obtain ⟨given, s₂, hgiven, hlast⟩ := Work.bind_eq_ok hrun
    obtain ⟨hgiven, rfl⟩ := onFiles_eq_ok hgiven
    cases hlast
    have hfiles : s₂.files = s.files := h₁.1.trans h.1.symm
    rw [h₁.1, ← hb] at hgiven
    refine ⟨h₁.2 _ hgiven, ?_⟩
    show Gives { s₂ with browsers := s₂.browsers.modify r fun b => b.looked s.files false } r t dirs
    rw [← hfiles]
    exact h₁.looked
  unfold includes at hrun
  rw [Work.run_bind_ok (Work.run_get s)] at hrun
  simp only at hrun
  split at hrun
  · rw [Work.run_bind_ok (run_report _ s)] at hrun
    exact hrest (h.report _) rfl hrun
  · exact hrest h rfl hrun

/-- Looking a name up. -/
theorem filesNamed_eq_ok (h : s.Gives r t dirs) {name : String} {found : List Path}
    (hrun : (filesNamed r (.text name)).run s = (.ok found, s')) :
    found.reverse = Overlay.layer t dirs name ∧ s'.Gives r t dirs := by
  unfold filesNamed at hrun
  obtain ⟨sought, s₁, hsought, hrun⟩ := Work.bind_eq_ok hrun
  -- The name that is sought is the given one, since it is a text.
  have hname : sought = some name ∧ s₁.Gives r t dirs := by
    unfold soughtName at hsought
    simp only at hsought
    split at hsought
    · cases hsought
    · obtain ⟨given, s₂, hgiven, hlast⟩ := Work.bind_eq_ok hsought
      cases hlast
      exact ⟨rfl, (includes_eq_ok h hgiven).2⟩
  obtain ⟨rfl, h₁⟩ := hname
  simp only at hrun
  rw [Work.run_bind_ok (run_read _ _)] at hrun
  obtain ⟨hhits, rfl⟩ := onFiles_eq_ok hrun
  refine ⟨?_, h₁⟩
  unfold Browser.hits at hhits
  obtain ⟨given, hgiven, hhits⟩ := Except.bind_eq_ok.mp hhits
  rw [h₁.1] at hgiven hhits
  have hfound := Browser.passing_eq_ok (g := t.holds)
    (fun p b hb => by rw [Tree.holds, hb]) _ hhits
  rw [hfound, h₁.2 _ hgiven, Overlay.layer]

/-- The files of an overlay. -/
theorem overlayFiles_eq_ok (h : s.Gives r t dirs) {o : Overlay} {paths : List Path}
    (hrun : (overlayFiles r o).run s = (.ok paths, s')) :
    paths = o.applied t dirs ∧ s'.files = t := by
  -- Along the names, as each lookup leaves what the browser gives.
  have hnames : ∀ (names : List String) {s s' : Store} {found : List (List Path)},
      s.Gives r t dirs →
      (names.mapM fun n => filesNamed r (.text n)).run s = (.ok found, s') →
      found.flatMap List.reverse = names.flatMap (Overlay.layer t dirs) ∧ s'.Gives r t dirs := by
    intro names
    induction names with
    | nil =>
      intro s s' found h hrun
      cases hrun
      exact ⟨rfl, h⟩
    | cons n rest ih =>
      intro s s' found h hrun
      rw [List.mapM_cons] at hrun
      obtain ⟨here, s₁, hhere, hrun⟩ := Work.bind_eq_ok hrun
      obtain ⟨more, s₂, hmore, hrun⟩ := Work.bind_eq_ok hrun
      cases hrun
      obtain ⟨hlayer, h₁⟩ := filesNamed_eq_ok h hhere
      obtain ⟨hlayers, h₂⟩ := ih h₁ hmore
      exact ⟨by rw [List.flatMap_cons, List.flatMap_cons, hlayer, hlayers], h₂⟩
  unfold overlayFiles at hrun
  obtain ⟨found, s₁, hfound, hrun⟩ := Work.bind_eq_ok hrun
  cases hrun
  obtain ⟨hlayers, h₁⟩ := hnames _ h hfound
  exact ⟨hlayers, h₁.1⟩

end Store

/-! ### Precedence -/

/-- A fresh browser gives the directories of the tree. -/
theorem Store.gives_of_fresh {s : Store} {r : Ref Browser}
    (h : (s.browsers.get r).remembered = none) :
    s.Gives r s.files ((s.browsers.get r).directories s.files) := by
  refine ⟨rfl, ?_⟩
  intro found hfound
  unfold Browser.includes at hfound
  rw [h] at hfound
  exact Browser.computed_eq_ok hfound

/-- Loading installs the catalogue of the files, if all of them load. -/
theorem Store.run_load_install {s s₁ : Store} {r : Ref Browser} {o : Overlay} {paths : List Path}
    {k : Catalogue} (hpaths : (overlayFiles r o).run s = (.ok paths, s₁))
    (hload : (Overlay.load s₁.files .empty paths).2 = .ok k) :
    (load r o).run s = (install k).run { s₁ with
      log := s₁.log ++ (Overlay.load s₁.files .empty paths).1.map .readingDefinitions } := by
  unfold load
  rw [Work.run_bind_ok hpaths, Work.run_bind_ok (Work.run_get s₁),
    Work.run_bind_ok (run_report _ s₁), hload, Work.run_bind_ok (Work.run_lift _ _)]

/-- Loading fails when the files do not load. -/
theorem Store.run_load_error {s s₁ : Store} {r : Ref Browser} {o : Overlay} {paths : List Path}
    {e : Fault} (hpaths : (overlayFiles r o).run s = (.ok paths, s₁))
    (hload : (Overlay.load s₁.files .empty paths).2 = .error e) :
    (load r o).run s = (.error e, { s₁ with
      log := s₁.log ++ (Overlay.load s₁.files .empty paths).1.map .readingDefinitions }) := by
  unfold load
  rw [Work.run_bind_ok hpaths, Work.run_bind_ok (Work.run_get s₁),
    Work.run_bind_ok (run_report _ s₁), hload]
  exact Work.run_bind_error (Work.run_lift _ _)

/-- Loading succeeds when all files load, and the new container shows what is in them. -/
theorem Store.run_load {s s₁ : Store} {r : Ref Browser} {o : Overlay} {paths : List Path}
    {k : Catalogue} (hpaths : (overlayFiles r o).run s = (.ok paths, s₁))
    (hload : (Overlay.load s₁.files .empty paths).2 = .ok k) :
    ∃ c s', (load r o).run s = (.ok c, s') ∧ s'.files = s₁.files ∧
      Shows Grown s' c k.definitions := by
  obtain ⟨hnumbered, -, hplain⟩ := Overlay.plain_of_load hload
  have hflat : ∀ e ∈ k.definitions.entries, e.2.IsFlat := fun e he => (hplain e he).flat
  obtain ⟨c, s', hinstall, hfiles, hshows⟩ := run_install_flat
    { s₁ with log := s₁.log ++ (Overlay.load s₁.files .empty paths).1.map .readingDefinitions }
    hnumbered hflat
  exact ⟨c, s', (run_load_install hpaths hload).trans hinstall, hfiles, hshows⟩

/-- A container that is loaded shows what is in the files that the browser gives. The files are left
alone. -/
theorem Store.load_eq_ok {s s' : Store} {r : Ref Browser} {o : Overlay} {c : Ref ContainerCell}
    (hfresh : (s.browsers.get r).remembered = none)
    (hrun : (load r o).run s = (.ok c, s')) :
    ∃ k, (Overlay.load s.files .empty
        (o.applied s.files ((s.browsers.get r).directories s.files))).2 = .ok k ∧
      s'.files = s.files ∧ Shows Grown s' c k.definitions := by
  have hwork := hrun
  unfold load at hwork
  obtain ⟨paths, s₁, hpaths, hwork⟩ := Work.bind_eq_ok hwork
  obtain ⟨rfl, hfiles⟩ := overlayFiles_eq_ok (gives_of_fresh hfresh) hpaths
  rw [Work.run_bind_ok (Work.run_get s₁), Work.run_bind_ok (run_report _ s₁)] at hwork
  obtain ⟨k, s₂, hk, -⟩ := Work.bind_eq_ok hwork
  rw [Work.run_lift] at hk
  have hload := (Prod.mk.inj hk).1
  obtain ⟨c', s₃, hrun', hfiles', hshows⟩ := run_load hpaths hload
  rw [hrun] at hrun'
  cases hrun'
  exact ⟨k, hfiles ▸ hload, hfiles'.trans hfiles, hshows⟩

/-- Precedence of layered definition files. When a container is loaded for an application directory
and modules directories, all its files are read, and every declaration in them gives a definition,
built against the container as the declarations before it leave it. A key has an entry when one of
these definitions is for it, and the entry is the last of them: nothing that is declared later for
other keys changes it. Interfaces are listed in the order of the first definitions that name them,
and so are the identifiers of each interface. -/
theorem load_precedence {s s' : Store} {r : Ref Browser} {application : Option Path}
    {modules : List Path} {o : Overlay} {c : Ref ContainerCell}
    (hbrowser : s.browsers.get r = Browser.of application modules)
    (hrun : (Store.load r o).run s = (.ok c, s')) :
    let directories := includeDirectories application modules s.files
    let declarations := o.declarations s.files directories
    (∀ p ∈ o.applied s.files directories, ∃ ds, Declaration.ofFile s.files p = .ok ds) ∧
      ∃ built : List Definition, built.length = declarations.length ∧
        (∀ n (hd : n < declarations.length) (hb : n < built.length),
          ∃ k, Declaration.applyAll .empty (declarations.take n) = .ok k ∧
            declarations[n].define k.definitions = .ok built[n]) ∧
        (∀ (q : DefinitionKey) (x : Definition), (s'.container c).find? q = some x ↔
          ∃ n, ∃ (hn : n < built.length), built[n] = x ∧ Container.Targets built[n] q ∧
            ∀ m (hm : m < built.length), n < m → ¬ Container.Targets built[m] q) ∧
        (s'.container c).interfaces = (built.flatMap DefinitionOf.interfaces).eraseDups ∧
        ∀ i, ((s'.container c).definitions i).keys
          = ((built.filter fun x => decide (i ∈ x.interfaces)).map
              DefinitionOf.identifier).eraseDups := by
  intro directories declarations
  -- All but the reading is about the built definitions alone.
  obtain ⟨k, hload, -, hshows⟩ := Store.load_eq_ok (by rw [hbrowser, Browser.of_eq]) hrun
  rw [hbrowser, Browser.directories_of] at hload
  obtain ⟨hread, -, built, hlength, -, hbuilt, hdefinitions⟩ := Overlay.built_of_load hload
  rw [hshows.view, hdefinitions]
  refine ⟨hread, built, hlength, ?_, ?_, ?_, ?_⟩
  · intro n hd hb
    obtain ⟨k, hk, -, hx⟩ := hbuilt n hd hb
    exact ⟨k, hk, hx⟩
  · exact fun q x => Container.find?_ofDefinitions_iff
  · exact Container.interfaces_ofDefinitions built
  · exact Container.keys_ofDefinitions built

/-- The bytes of a text in units of two, with the mark of their order in front. -/
def wideBytes (s : String) : ByteArray :=
  ⟨(0xfe :: 0xff :: s.toList.flatMap fun c => [0, UInt8.ofNat c.toNat]).toArray⟩

/-- A file with one definition. -/
def plainFile : ByteArray := wideBytes "<dependency class='A'/>"

/-- A file that declares the definition once more. -/
def developmentFile : ByteArray := wideBytes "<dependency interface='A' class='B'/>"

/-- An application with a definitions file and one of an environment. -/
def layeredTree : Tree :=
  ⟨OrderedMap.empty
    |>.insert ["app"] .directory
    |>.insert ["app", "config"] .directory
    |>.insert ["app", "config", "d.xml"] (.file plainFile)
    |>.insert ["app", "config", "dev"] .directory
    |>.insert ["app", "config", "dev", "d.xml"] (.file developmentFile)⟩

/-- A store with a new browser over the application. -/
def layeredStore : Store :=
  { Store.empty default with
    files := layeredTree
    browsers := ⟨[Browser.of (some ⟨"", ["app"]⟩) []]⟩ }

theorem readBytes_plainFile :
    readBytes plainFile.data.toList = .ok (.mk "dependency" [("class", "A")] []) := by
  cbv

theorem readBytes_developmentFile :
    readBytes developmentFile.data.toList
      = .ok (.mk "dependency" [("interface", "A"), ("class", "B")] []) := by
  cbv

/-- The files of the application in the order in which they are applied. -/
def layeredPaths : List Path :=
  [⟨"", ["app", "config", "d.xml"]⟩, ⟨"", ["app", "config", "dev", "d.xml"]⟩]

theorem load_layeredPaths : ∃ k, (Overlay.load layeredTree .empty layeredPaths).2 = .ok k := by
  have hplain : Declaration.ofFile layeredTree ⟨"", ["app", "config", "d.xml"]⟩
      = Declaration.ofElement "app/config/d.xml" (.mk "dependency" [("class", "A")] []) := by
    have hread : layeredTree.read ⟨"", ["app", "config", "d.xml"]⟩ = .ok plainFile := rfl
    rw [Declaration.ofFile, hread, Declaration.ofContent, readBytes_plainFile]
    rfl
  have hdevelopment : Declaration.ofFile layeredTree ⟨"", ["app", "config", "dev", "d.xml"]⟩
      = Declaration.ofElement "app/config/dev/d.xml"
        (.mk "dependency" [("interface", "A"), ("class", "B")] []) := by
    have hread : layeredTree.read ⟨"", ["app", "config", "dev", "d.xml"]⟩ = .ok developmentFile :=
      rfl
    rw [Declaration.ofFile, hread, Declaration.ofContent, readBytes_developmentFile]
    rfl
  simp only [layeredPaths, Overlay.load, hplain, hdevelopment]
  exact ⟨_, rfl⟩

/-- The files of the application load. -/
theorem exists_load_layeredStore :
    ∃ c s', (Store.load ⟨0⟩ ⟨some "dev", "d.xml", "config"⟩).run layeredStore = (.ok c, s') := by
  have hpaths : ((Store.overlayFiles ⟨0⟩ ⟨some "dev", "d.xml", "config"⟩).run
      layeredStore).1.toOption = some layeredPaths := by
    decide +kernel
  obtain ⟨k, hk⟩ := load_layeredPaths
  cases hrun : (Store.overlayFiles ⟨0⟩ ⟨some "dev", "d.xml", "config"⟩).run layeredStore with
  | mk result s₁ =>
    rw [hrun] at hpaths
    cases result with
    | error e => cases hpaths
    | ok paths =>
      cases hpaths
      have hfiles := (Store.overlayFiles_eq_ok (Store.gives_of_fresh rfl) hrun).2
      obtain ⟨c, s', hload, -⟩ := Store.run_load hrun (k := k) (by rw [hfiles]; exact hk)
      exact ⟨c, s', hload⟩

/-- The declaration of the environment comes last. -/
theorem load_precedence_layered :
    ∃ c s', (Store.load ⟨0⟩ ⟨some "dev", "d.xml", "config"⟩).run layeredStore = (.ok c, s') ∧
      ∃ built : List Definition,
        (∀ (q : DefinitionKey) (x : Definition), (s'.container c).find? q = some x ↔
          ∃ n, ∃ (hn : n < built.length), built[n] = x ∧ Container.Targets built[n] q ∧
            ∀ m (hm : m < built.length), n < m → ¬ Container.Targets built[m] q) ∧
        (s'.container c).interfaces = (built.flatMap DefinitionOf.interfaces).eraseDups := by
  obtain ⟨c, s', hrun⟩ := exists_load_layeredStore
  obtain ⟨-, built, -, -, hentries, hinterfaces, -⟩ :=
    load_precedence (show layeredStore.browsers.get ⟨0⟩ = .of (some ⟨"", ["app"]⟩) [] from rfl) hrun
  exact ⟨c, s', hrun, built, hentries, hinterfaces⟩

end Wiring
