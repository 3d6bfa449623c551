import Wiring.Proofs.Extending

/-!
# `Wiring.Proofs.Applying`: what is read can be applied

A run applies declarations to a container one by one, and goes on behind one that fails. Starting
from an empty container, the only thing that can be wrong with a declaration that was read is that
its base is not there. `Application.Fits` says so of one declaration, and `applications_fit` of all
of a run.

The invariant of the run is `Store.HoldsPlain`: the definitions in the container have all their parts
and could have been declared in a file. Then a base can be copied, and what is made of the copy is
plain again. What a step adds is what the declaration defines against the container as it was.
-/

set_option autoImplicit false

namespace Wiring

namespace Store

/-! ### Adding a definition -/

/-- Definitions are added under each of some names that are not empty. -/
theorem run_addUnder (r : Ref ContainerCell) (k : Option String) (x : Ref DefinitionCell)
    (names : List String) : ∀ s : Store, "" ∉ names →
      (forM (names.map Value.text) fun v => (do
        let name ← Work.lift ((Container.checkInterface v).mapError .definition)
        change r fun c => c.addOne name k x : Action Unit)).run s
        = (.ok (), { s with containers := s.containers.modify r fun c => c.add names k x }) := by
  induction names with
  | nil =>
    intro s _
    show (Except.ok (), s) = _
    unfold Cells.modify
    rw [show (fun c : ContainerCell => c.add [] k x) = id from rfl, List.modify_id]
  | cons n rest ih =>
    intro s hnames
    obtain ⟨hn, hrest⟩ := List.ne_and_not_mem_of_not_mem_cons hnames
    have hfirst : (do
        let name ← Work.lift ((Container.checkInterface (.text n)).mapError .definition)
        change r fun c => c.addOne name k x : Action Unit).run s
        = (.ok (), { s with containers := s.containers.modify r fun c => c.addOne n k x }) := by
      rw [Container.checkInterface_text hn.symm]
      rfl
    rw [List.map_cons, List.forM_cons, Work.run_bind_ok hfirst, ih _ hrest]
    dsimp only
    unfold Cells.modify
    rw [List.modify_modify_eq]
    rfl

/-- A definition whose interfaces are names is added under all of them. -/
theorem run_addDefinition (s : Store) (r : Ref ContainerCell) (x : Ref DefinitionCell)
    (hnames : "" ∉ (s.definitions.get x).allInterfaces) :
    (addDefinition r .null x).run s = (.ok (), { s with
      containers := s.containers.modify r fun c =>
        c.add (s.definitions.get x).allInterfaces (s.definitions.get x).identifier x }) := by
  unfold addDefinition
  rw [Work.run_bind_ok (run_read x s)]
  exact run_addUnder r _ x _ s hnames

/-! ### The invariant -/

/-- The container as its cells hold it. -/
def heldContainer (s : Store) (r : Ref ContainerCell) : Container Definition :=
  (s.containers.get r).map s.held

/-- The container is there, and its definitions have all their parts and could have been declared in
a file. -/
structure HoldsPlain (s : Store) (r : Ref ContainerCell) : Prop where
  container : s.containers.Holds r
  whole : ∀ e ∈ (s.containers.get r).entries, s.Whole e.2
  plain : ∀ e ∈ (s.heldContainer r).entries, e.2.IsPlain

variable {s u : Store} {r : Ref ContainerCell} {d : Declaration} {k : DefinitionKey}

/-- A container without definitions is plain. -/
theorem holdsPlain_of_empty (hr : s.containers.Holds r) (h : s.containers.get r = .empty) :
    s.HoldsPlain r := by
  refine ⟨hr, fun e he => ?_, fun e he => ?_⟩
  · rw [h] at he
    cases he
  · unfold heldContainer at he
    rw [h] at he
    cases he

/-- What is found in a container that holds what is found in the cell. -/
theorem find?_heldContainer (s : Store) (r : Ref ContainerCell) (k : DefinitionKey) :
    (s.heldContainer r).find? k = ((s.containers.get r).find? k).map s.held :=
  Container.find?_map _ _ _

/-- A plain definition refers to nothing. -/
theorem isClosed_of_isPlain {x : Definition} (h : x.IsPlain) : x.IsClosed := by
  intro a ha
  have hproperty := (h.argument ha).property
  have hnone : ∀ entries : List (Value × Value),
      (∀ e ∈ entries, e.2 = .null ∨ ∃ t, e.2 = .text t) → Value.entryNodes entries = [] := by
    intro entries
    induction entries with
    | nil => exact fun _ => rfl
    | cons e rest ih =>
      intro hall
      obtain ⟨he, hrest⟩ := List.forall_mem_cons.mp hall
      rw [Value.entryNodes, ih hrest]
      rcases he with he | ⟨t, he⟩ <;> rw [he] <;> rfl
  exact hnone _ fun e he => (hproperty e he).2

/-- A declaration that was read makes a definition against a plain container, unless its base is not
there. It is the one that the declaration defines against that container. -/
theorem HoldsPlain.run_createDefinition (h : s.HoldsPlain r) (hread : d.IsRead)
    (hbase : ∀ k, d.baseKey? = some k → (s.containers.get r).find? k ≠ none) :
    ∃ x u, (createDefinition r d).run s = (.ok x, u) ∧ s.Grows u ∧ u.Whole x ∧
      d.define (s.heldContainer r) = .ok (u.held x) := by
  cases hkey : d.baseKey? with
  | none =>
    obtain ⟨x, u, hrun, hgrows, -, -, hx, hdefine⟩ := run_createDefinition_of_no_base hread hkey s r
    exact ⟨x, u, hrun, hgrows, hx, hdefine _⟩
  | some k =>
    obtain ⟨b, hfind⟩ := Option.ne_none_iff_exists'.mp (hbase k hkey)
    have hmem : (k, b) ∈ (s.containers.get r).entries := Container.mem_entries_iff.mpr hfind
    have hheld : (s.heldContainer r).find? k = some (s.held b) := by
      rw [find?_heldContainer, hfind]
      rfl
    have hclosed := isClosed_of_isPlain (h.plain _ (Container.mem_entries_iff.mpr hheld))
    have hcopy := (canCopy_of_isClosed hclosed).run_copy
    obtain ⟨hgrows, -, hnew, hwhole, hview⟩ := copy_eq_ok (h.whole _ hmem) hcopy
    rw [hclosed.renamed] at hview
    obtain ⟨u, hrun, hshapes, hx, -, hdefine⟩ :=
      run_createDefinition_of_base hread hkey hfind hcopy hwhole
    exact ⟨_, u, hrun, hshapes.grows hgrows hnew, hx, hdefine _ (hview ▸ hheld)⟩

/-- Adding a plain definition keeps a container plain. -/
theorem HoldsPlain.run_addDefinition (h : s.HoldsPlain r) {x : Ref DefinitionCell} (hx : s.Whole x)
    (hplain : (s.held x).IsPlain) :
    ∃ t, (addDefinition r .null x).run s = (.ok (), t) ∧ t.HoldsPlain r ∧
      t.heldContainer r = (s.heldContainer r).add (s.held x).allInterfaces (s.held x).identifier
        (s.held x) := by
  have hnames : "" ∉ (s.definitions.get x).allInterfaces :=
    DefinitionOf.allInterfaces_ne (γ := Ref CallCell) hplain.wellFormed.className_ne
      hplain.wellFormed.interfaces_ne
  refine ⟨_, Store.run_addDefinition s r x hnames, ?_⟩
  set cell := s.definitions.get x
  set t : Store := { s with
    containers := s.containers.modify r fun c => c.add cell.allInterfaces cell.identifier x }
  have hget : t.containers.get r
      = (s.containers.get r).add cell.allInterfaces cell.identifier x :=
    Cells.get_modify_self h.container _
  have hview : t.heldContainer r = (s.heldContainer r).add cell.allInterfaces cell.identifier
      (s.held x) := by
    unfold heldContainer
    rw [hget]
    exact Container.map_add _ _ _ _ _
  refine ⟨⟨Cells.holds_modify.mpr h.container, fun e he => ?_, fun e he => ?_⟩, hview⟩
  · rw [hget, Container.mem_entries_iff, Container.find?_add] at he
    have hwhole : s.Whole e.2 := by
      split at he
      · rw [← Option.some.inj he]
        exact hx
      · exact h.whole e (Container.mem_entries_iff.mpr he)
    exact ⟨hwhole.definition, fun q hq => ⟨(hwhole.call q hq).call, (hwhole.call q hq).argument⟩⟩
  · rw [hview, Container.mem_entries_iff, Container.find?_add] at he
    split at he
    · rw [← Option.some.inj he]
      exact hplain
    · exact h.plain e (Container.mem_entries_iff.mpr he)

/-- A container that is left alone stays plain while the store grows. -/
theorem HoldsPlain.grows (h : s.HoldsPlain r) (hg : s.Grows u) :
    u.HoldsPlain r ∧ u.heldContainer r = s.heldContainer r := by
  have hget : u.containers.get r = s.containers.get r := hg.containers.get h.container
  have hview : u.heldContainer r = s.heldContainer r := by
    unfold heldContainer
    rw [hget]
    exact Container.map_congr fun e he => ((h.whole e he).grows hg).2
  refine ⟨⟨hg.containers.holds h.container, fun e he => ?_, fun e he => ?_⟩, hview⟩
  · exact ((h.whole e (hget ▸ he)).grows hg).1
  · exact h.plain e (hview ▸ he)

end Store

/-! ### Runs -/

open Store

/-- A declaration that was applied, with the stores around it. -/
structure Application where
  declaration : Declaration
  before : Store
  outcome : Except Fault Unit
  after : Store

namespace Application

/-- The declaration was added, or its base is not in the container. -/
structure Fits (r : Ref ContainerCell) (m : Application) : Prop where
  /-- A fault is one of a definition that was not found, and its wording names the source. -/
  fault : ∀ f, m.outcome = .error f → f.kind = "DefinitionNotFoundError" ∧
    ∃ before after, f.text = before ++ m.declaration.source ++ after
  /-- There is a fault just if the declaration extends what is not there. -/
  fails_iff : (∃ f, m.outcome = .error f) ↔ ∃ k, m.declaration.baseKey? = some k ∧
    (m.before.containers.get r).find? k = none
  /-- With a fault nothing changes. -/
  unchanged : ∀ f, m.outcome = .error f → m.after = m.before
  /-- Without one, what the declaration defines is added under its interfaces. -/
  added : m.outcome = .ok () → ∃ x, m.declaration.define (m.before.heldContainer r) = .ok x ∧
    m.after.heldContainer r = (m.before.heldContainer r).add x.interfaces x.identifier x

/-- Applying a declaration in a store. -/
def of (r : Ref ContainerCell) (s : Store) (d : Declaration) : Application :=
  ⟨d, s, ((applyDeclaration r d).run s).1, ((applyDeclaration r d).run s).2⟩

variable {s t : Store} {r : Ref ContainerCell} {d : Declaration} {k : DefinitionKey}

/-- What is known of a run of the declaration is known of its application. -/
theorem of_eq {x : Except Fault Unit} (h : (applyDeclaration r d).run s = (x, t)) :
    of r s d = ⟨d, s, x, t⟩ := by
  unfold of
  rw [h]

/-- A declaration whose base is not there fits any container, and leaves it as it is. -/
theorem fits_of_absent (hkey : d.baseKey? = some k) (hfind : (s.containers.get r).find? k = none) :
    (of r s d).Fits r ∧ (of r s d).after = s := by
  have hrun : (applyDeclaration r d).run s
      = (.error (.notFoundIn d.source (.base k.interface k.identifier)), s) := by
    unfold applyDeclaration
    rw [Work.run_bind_error (run_createDefinition_of_absent hkey hfind)]
  rw [of_eq hrun]
  refine ⟨⟨fun f hf => ?_, ⟨fun _ => ⟨k, hkey, hfind⟩, fun _ => ⟨_, rfl⟩⟩, fun _ _ => rfl,
    fun h => by cases h⟩, rfl⟩
  cases hf
  exact ⟨rfl, (Absence.base k.interface k.identifier).message ++ " (declared in ", ")", rfl⟩

/-- A declaration that was read is added to a plain container that has its base, and leaves it
plain. -/
theorem fits_of_present (h : s.HoldsPlain r) (hread : d.IsRead)
    (hbase : ∀ k, d.baseKey? = some k → (s.containers.get r).find? k ≠ none) :
    (of r s d).Fits r ∧ (of r s d).after.HoldsPlain r := by
  -- Making the definition adds cells only. The container is written to once, at the end.
  obtain ⟨x, u, hcreate, hgrows, hx, hdefine⟩ := h.run_createDefinition hread hbase
  obtain ⟨hu, hsame⟩ := h.grows hgrows
  have hplain : (u.held x).IsPlain := Declaration.plain_of_define hread.plain h.plain hdefine
  obtain ⟨t, hadd, ht, hview⟩ := hu.run_addDefinition hx hplain
  have hrun : (applyDeclaration r d).run s = (.ok (), t) := by
    unfold applyDeclaration
    rw [Work.run_bind_ok hcreate, hadd]
  rw [of_eq hrun]
  have hnone : ∀ f, (Except.ok () : Except Fault Unit) ≠ .error f := fun f hf => by cases hf
  refine ⟨⟨fun f hf => absurd hf (hnone f), ⟨fun ⟨f, hf⟩ => absurd hf (hnone f),
    fun ⟨k, hkey, hfind⟩ => absurd hfind (hbase k hkey)⟩, fun f hf => absurd hf (hnone f),
    fun _ => ⟨u.held x, hdefine, ?_⟩⟩, ht⟩
  show t.heldContainer r = _
  rw [hview, hsame, Declaration.allInterfaces_of_define hdefine]

/-- A declaration that was read fits a plain container, and leaves it plain. -/
theorem fits_of (h : s.HoldsPlain r) (hread : d.IsRead) :
    (of r s d).Fits r ∧ (of r s d).after.HoldsPlain r := by
  by_cases hbase : ∃ k, d.baseKey? = some k ∧ (s.containers.get r).find? k = none
  · obtain ⟨k, hkey, hfind⟩ := hbase
    obtain ⟨hfits, hafter⟩ := fits_of_absent hkey hfind
    exact ⟨hfits, hafter.symm ▸ h⟩
  · exact fits_of_present h hread fun k hkey hfind => hbase ⟨k, hkey, hfind⟩

end Application

/-- The declarations of a run, each applied to what those before it left. -/
def applications (r : Ref ContainerCell) : Store → List Declaration → List Application
  | _, [] => []
  | s, d :: rest => .of r s d :: applications r (Application.of r s d).after rest

/-- Declarations that were read, from whatever sources and in whatever order, can be applied to a
container that was empty at first. Each of them is added, unless its base is not in the container at
that moment. -/
theorem applications_fit {s : Store} {r : Ref ContainerCell} {ds : List Declaration}
    (hr : s.containers.Holds r) (hempty : s.containers.get r = .empty)
    (hds : ∀ d ∈ ds, d.IsRead) : ∀ m ∈ applications r s ds, m.Fits r := by
  have hplain := holdsPlain_of_empty hr hempty
  clear hempty hr
  induction ds generalizing s with
  | nil => exact nofun
  | cons d rest ih =>
    obtain ⟨hd, hrest⟩ := List.forall_mem_cons.mp hds
    obtain ⟨hfits, hafter⟩ := Application.fits_of hplain hd
    exact List.forall_mem_cons.mpr ⟨hfits, ih hrest hafter⟩

/-- The declaration that `verboseLogger` extends. -/
def plainLogger : Declaration := ⟨some "Log", some "Logger", none, none, [], [], "b.xml"⟩

theorem isRead_plainLogger : plainLogger.IsRead :=
  ⟨"b.xml", .mk "dependency" [("interface", "Log"), ("class", "Logger")] [], [plainLogger], rfl,
    List.mem_singleton.mpr rfl⟩

/-- A logger is extended before it is there, declared, and extended once more. -/
theorem applications_fit_loggers :
    ∃ early plain late, applications ⟨0⟩ (makeContainer.run (Store.empty default)).2
        [verboseLogger, plainLogger, verboseLogger] = [early, plain, late] ∧
      early.Fits ⟨0⟩ ∧ plain.Fits ⟨0⟩ ∧ late.Fits ⟨0⟩ ∧
      early.outcome.isOk = false ∧ plain.outcome.isOk ∧ late.outcome.isOk := by
  have hread : ∀ d ∈ [verboseLogger, plainLogger, verboseLogger], d.IsRead := by
    intro d hd
    rcases List.mem_cons.mp hd with rfl | hd
    · exact isRead_verboseLogger
    rcases List.mem_cons.mp hd with rfl | hd
    · exact isRead_plainLogger
    rw [List.mem_singleton.mp hd]
    exact isRead_verboseLogger
  have hfits := applications_fit (s := (makeContainer.run (Store.empty default)).2) (r := ⟨0⟩)
    Nat.zero_lt_one rfl hread
  refine ⟨_, _, _, rfl, hfits _ (.head _), hfits _ (.tail _ (.head _)),
    hfits _ (.tail _ (.tail _ (.head _))), ?_, ?_, ?_⟩
  · decide +kernel
  · decide +kernel
  · decide +kernel

end Wiring
