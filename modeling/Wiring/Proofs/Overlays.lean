import Mathlib.Data.List.Induction
import Wiring.Overlay
import Wiring.Proofs.Containers
import Wiring.Proofs.Work

/-!
# `Wiring.Proofs.Overlays`: what a container of layered declarations holds

Declarations are applied in turn, each against the container that those before it made.
`applyAll_eq_ok` splits a successful run into the definitions that were built, one for each
declaration, and `Container.ofDefinitions` is the container that they make. What such a container
holds is read off the list: under a key stands the last definition that names it
(`find?_ofDefinitions`), and interfaces and identifiers are listed in the order in which they are
first named (`interfaces_ofDefinitions`, `keys_ofDefinitions`).

`Overlay.applied` lists the files of an application in the order in which they are applied, from the
directories that the tree holds, and `Overlay.declarations` are the declarations in them.
-/

set_option autoImplicit false

namespace Wiring

open Wiring.Files

/-! ### Containers of definitions that are added in turn -/

namespace Container

/-- The container of some definitions, each added under all interfaces that it lists. -/
def ofDefinitions (built : List Definition) : Container Definition :=
  built.foldl (fun c x => c.add x.interfaces x.identifier x) .empty

/-- Whether a definition is one of those for a key. -/
def Targets (x : Definition) (q : DefinitionKey) : Prop :=
  q.interface ∈ x.interfaces ∧ x.identifier = q.identifier

instance (x : Definition) (q : DefinitionKey) : Decidable (Targets x q) :=
  inferInstanceAs (Decidable (_ ∧ _))

theorem ofDefinitions_append (built : List Definition) (x : Definition) :
    ofDefinitions (built ++ [x]) = (ofDefinitions built).add x.interfaces x.identifier x := by
  simp [ofDefinitions]

/-- Under a key stands the last definition for it. -/
theorem find?_ofDefinitions (built : List Definition) (q : DefinitionKey) :
    (ofDefinitions built).find? q = built.reverse.find? fun x => decide (Targets x q) := by
  induction built using List.reverseRecOn with
  | nil => rfl
  | append_singleton built x ih =>
    rw [ofDefinitions_append, find?_add, ih, List.reverse_append, List.reverse_singleton,
      List.singleton_append, List.find?_cons]
    by_cases h : Targets x q
    · rw [if_pos ⟨h.1, h.2.symm⟩, decide_eq_true h]
    · rw [if_neg fun hq => h ⟨hq.1, hq.2.symm⟩, decide_eq_false h]

/-- A definition is found under a key when it is for the key and none behind it is. -/
theorem find?_ofDefinitions_iff {built : List Definition} {q : DefinitionKey} {x : Definition} :
    (ofDefinitions built).find? q = some x ↔
      ∃ n, ∃ (hn : n < built.length), built[n] = x ∧ Targets built[n] q ∧
        ∀ m (hm : m < built.length), n < m → ¬ Targets built[m] q := by
  rw [find?_ofDefinitions, List.find?_eq_some_iff_append]
  constructor
  · rintro ⟨hx, after, before, hbuilt, hafter⟩
    obtain rfl : built = before.reverse ++ x :: after.reverse := by
      rw [← List.reverse_reverse built, hbuilt]
      simp
    refine ⟨before.length, by simp, by simp, by simpa using hx, ?_⟩
    intro m hm hlt
    have hmem : (before.reverse ++ x :: after.reverse)[m] ∈ after := by
      rw [List.getElem_append_right (by simp; omega), List.getElem_cons, dif_neg (by simp; omega)]
      exact List.mem_reverse.mp (List.getElem_mem _)
    simpa using hafter _ hmem
  · rintro ⟨n, hn, rfl, hx, hlast⟩
    refine ⟨by simpa using hx, (built.drop (n + 1)).reverse, (built.take n).reverse, ?_, ?_⟩
    · have hsplit : built = built.take n ++ built[n] :: built.drop (n + 1) := by
        rw [List.getElem_cons_drop, List.take_append_drop]
      rw [congrArg List.reverse hsplit]
      simp
    · intro y hy
      obtain ⟨m, hm, rfl⟩ := List.mem_iff_getElem.mp (List.mem_reverse.mp hy)
      rw [List.getElem_drop]
      simpa using hlast (n + 1 + m) (by simp at hm; omega) (by omega)

/-- What stands behind others is listed unless it is one of them. -/
theorem eraseDups_append_singleton {α : Type} [BEq α] [LawfulBEq α] (as : List α) (a : α) :
    (as ++ [a]).eraseDups = if a ∈ as then as.eraseDups else as.eraseDups ++ [a] := by
  rw [List.eraseDups_append]
  by_cases h : a ∈ as
  · simp [h, List.removeAll]
  · simp [h, List.removeAll, List.eraseDups_cons]

/-- What is listed once stands there once. -/
theorem nodup_eraseDups {α : Type} [BEq α] [LawfulBEq α] (as : List α) : as.eraseDups.Nodup := by
  induction as using List.reverseRecOn with
  | nil => exact List.nodup_nil
  | append_singleton as a ih =>
    rw [eraseDups_append_singleton]
    split
    · exact ih
    · rename_i ha
      refine ih.append (List.nodup_singleton a) fun b hb hba => ha ?_
      rw [← List.mem_singleton.mp hba]
      exact List.mem_eraseDups.mp hb

/-- The interfaces after an addition under several. -/
theorem interfaces_add {δ : Type} (names : List String) (k : Option String) (d : δ) :
    ∀ (c : Container δ) (seen : List String), c.interfaces = seen.eraseDups →
      (c.add names k d).interfaces = (seen ++ names).eraseDups := by
  induction names with
  | nil =>
    intro c seen h
    rw [List.append_nil]
    exact h
  | cons n rest ih =>
    intro c seen h
    rw [List.append_cons]
    refine ih _ _ ?_
    rw [interfaces_addOne, eraseDups_append_singleton, h]
    simp only [List.mem_eraseDups]

/-- The identifiers of an interface after an addition under several. -/
theorem keys_definitions_add {δ : Type} (names : List String) (j : String) (k : Option String)
    (d : δ) :
    ∀ c : Container δ, ((c.add names k d).definitions j).keys
      = if j ∈ names ∧ k ∉ (c.definitions j).keys then (c.definitions j).keys ++ [k]
        else (c.definitions j).keys := by
  induction names with
  | nil => simp [add]
  | cons n rest ih =>
    intro c
    show (((c.addOne n k d).add rest k d).definitions j).keys = _
    rw [ih, keys_definitions_addOne]
    by_cases hj : j = n
    · subst hj
      by_cases hk : k ∈ (c.definitions j).keys
      · simp [hk]
      · simp [hk]
    · simp [hj]

/-- Interfaces are listed in the order in which definitions first name them. -/
theorem interfaces_ofDefinitions (built : List Definition) :
    (ofDefinitions built).interfaces = (built.flatMap DefinitionOf.interfaces).eraseDups := by
  induction built using List.reverseRecOn with
  | nil => rfl
  | append_singleton built x ih =>
    rw [ofDefinitions_append, interfaces_add _ _ _ _ _ ih, List.flatMap_append,
      List.flatMap_singleton]

/-- The identifiers of an interface are listed in the order in which definitions first name them. -/
theorem keys_ofDefinitions (built : List Definition) (i : String) :
    ((ofDefinitions built).definitions i).keys
      = ((built.filter fun x => decide (i ∈ x.interfaces)).map DefinitionOf.identifier).eraseDups := by
  induction built using List.reverseRecOn with
  | nil => rfl
  | append_singleton built x ih =>
    rw [ofDefinitions_append, keys_definitions_add, ih, List.filter_append, List.map_append]
    by_cases hi : i ∈ x.interfaces
    · simp only [hi, true_and, decide_true, List.filter_cons_of_pos, List.filter_nil,
        List.map_cons, List.map_nil, List.mem_eraseDups]
      rw [eraseDups_append_singleton, ite_not]
    · simp [hi]

end Container

/-! ### Declarations in turn -/

/-- The definitions after an addition. -/
theorem Catalogue.definitions_add (c : Catalogue) (names : List String) (d : Definition) :
    (c.add names d).definitions = c.definitions.add names d.identifier d :=
  Container.map_add _ _ _ _ _

/-- Texts pass the check of names when none is empty, and each of them counts once. -/
theorem DefinitionOf.checkNames_texts_iff {className : String} (names : List String) :
    ∀ (before : List String) {found : List String},
      DefinitionOf.checkNames className before.eraseDups (names.map .text) = .ok found
        ↔ "" ∉ names ∧ found = (before ++ names).eraseDups := by
  induction names with
  | nil => simp [DefinitionOf.checkNames, eq_comm]
  | cons n rest ih =>
    intro before found
    rw [List.map_cons, DefinitionOf.checkNames]
    by_cases hn : n = ""
    · simp [hn, Value.name?]
    · have hseen : (if n ∈ before.eraseDups then before.eraseDups else before.eraseDups ++ [n])
          = (before ++ [n]).eraseDups := by
        rw [Container.eraseDups_append_singleton]
        simp only [List.mem_eraseDups]
      simp only [Value.name?, if_neg hn, hseen]
      rw [ih, List.mem_cons, List.append_cons, not_or]
      simp [Ne.symm hn]

/-- Texts are accepted as interfaces when none is empty, and each of them counts once. -/
theorem DefinitionOf.checkInterfaces_texts_iff {className : String} {names found : List String} :
    DefinitionOf.checkInterfaces className (.list none (names.map .text)) = .ok found
      ↔ "" ∉ names ∧ found = names.eraseDups := by
  cases names with
  | nil => simp [DefinitionOf.checkInterfaces, Value.truthy, eq_comm]
  | cons n rest =>
    unfold DefinitionOf.checkInterfaces
    rw [if_neg (by simp [Value.truthy])]
    exact Except.mapError_eq_ok.trans (checkNames_texts_iff (n :: rest) [])

/-- A text that is not empty passes the check of an interface. -/
theorem Container.checkInterface_text {n : String} (h : n ≠ "") :
    Container.checkInterface (.text n) = .ok n := by
  simp [Container.checkInterface, Value.name?, h]

/-- Texts pass the check of interfaces one by one when none is empty. -/
theorem Container.mapM_checkInterface {names : List String} (h : "" ∉ names) :
    (names.mapM fun n => Container.checkInterface (.text n)) = .ok names := by
  induction names with
  | nil => rfl
  | cons n rest ih =>
    obtain ⟨hn, hrest⟩ := List.ne_and_not_mem_of_not_mem_cons h
    rw [List.mapM_cons, checkInterface_text hn.symm, ih hrest]
    rfl

namespace Declaration

/-- There is an interface that a declaration is added under. -/
theorem targets_ne_nil (d : Declaration) (interface : Option String) (className : String) :
    d.targets interface className ≠ [] := by
  unfold targets
  dsimp only
  split
  · exact List.cons_ne_nil _ _
  · rename_i hnames
    exact fun h => hnames (List.isEmpty_iff.mpr h)

/-- An optional text passes the check of identifiers unless it is empty. -/
theorem checkIdentifier_optional_iff {owner : String} {o i : Option String} :
    DefinitionOf.checkIdentifier owner (Value.optional o) = .ok i ↔ o ≠ some "" ∧ i = o := by
  cases o with
  | none => simp [Value.optional, DefinitionOf.checkIdentifier, eq_comm]
  | some n =>
    by_cases hn : n = ""
    · simp [hn, Value.optional, DefinitionOf.checkIdentifier, Value.name?]
    · simp [hn, Value.optional, DefinitionOf.checkIdentifier, Value.name?, eq_comm]

/-- A text passes the check of classes unless it is empty. -/
theorem checkClassName_text_iff {n m : String} :
    DefinitionOf.checkClassName (.text n) = .ok m ↔ n ≠ "" ∧ m = n := by
  by_cases hn : n = ""
  · simp [hn, DefinitionOf.checkClassName, Value.name?]
  · simp [hn, DefinitionOf.checkClassName, Value.name?, eq_comm]

/-- The class of a declaration passes the check unless it is empty. -/
theorem classOver_eq_ok_iff {d : Declaration} {b : Definition} {n : String} :
    d.classOver b = .ok n ↔ d.className ≠ some "" ∧ n = d.className.getD b.className := by
  unfold classOver
  cases d.className with
  | none => simp [eq_comm]
  | some m => simp [Except.mapError_eq_ok, checkClassName_text_iff]

/-- What it takes to extend a definition, and what comes of it. -/
theorem extended_eq_ok_iff {d : Declaration} {c : Container Definition} {k : DefinitionKey}
    {x : Definition} :
    d.extended c k = .ok x ↔ d.identifier ≠ some "" ∧ d.className ≠ some "" ∧
      ∃ b, c.find? k = some b ∧
        x = { b with identifier := d.identifier, className := d.className.getD b.className } := by
  unfold extended
  cases c.find? k with
  | none => simp
  | some b =>
    simp only [Except.bind_eq_ok, Except.mapError_eq_ok, checkIdentifier_optional_iff,
      classOver_eq_ok_iff]
    constructor
    · rintro ⟨-, ⟨hi, rfl⟩, -, ⟨hn, rfl⟩, hx⟩
      exact ⟨hi, hn, b, rfl, (Except.ok.inj hx).symm⟩
    · rintro ⟨hi, hn, base, hb, rfl⟩
      cases hb
      exact ⟨_, ⟨hi, rfl⟩, _, ⟨hn, rfl⟩, rfl⟩

/-- What a declaration that extends a definition starts from. -/
theorem start_eq_ok_of_base {d : Declaration} {c : Container Definition} {reference : String}
    (h : d.base = some reference) {y : Definition} {interface : Option String} :
    d.start c = .ok (y, interface) ↔
      d.extended c ⟨(d.baseKey reference).1, (d.baseKey reference).2⟩ = .ok y ∧
        interface = d.interface.orElse fun _ =>
          if (d.baseKey reference).1 = "" then none else some (d.baseKey reference).1 := by
  unfold start
  rw [h]
  dsimp only
  constructor
  · intro hy
    obtain ⟨x, hx, hy⟩ := Except.map_eq_ok.mp hy
    cases hy
    exact ⟨hx, rfl⟩
  · rintro ⟨hx, rfl⟩
    rw [hx]
    rfl

/-- What a declaration that extends nothing starts from. -/
theorem start_eq_ok_of_no_base {d : Declaration} {c : Container Definition} (h : d.base = none)
    {y : Definition} {interface : Option String} :
    d.start c = .ok (y, interface) ↔ d.identifier ≠ some "" ∧ interface = d.interface ∧
      ∃ n, d.className = some n ∧ n ≠ "" ∧ y = ⟨n, d.identifier, [], none, .empty⟩ := by
  have hclass : ∀ n, DefinitionOf.checkClassName (Value.optional d.className) = .ok n
      ↔ d.className = some n ∧ n ≠ "" := by
    intro n
    cases d.className with
    | none => simp [Value.optional, DefinitionOf.checkClassName, Value.name?]
    | some m =>
      rw [Value.optional, checkClassName_text_iff, Option.some.injEq]
      exact ⟨fun hm => ⟨hm.2.symm, hm.2 ▸ hm.1⟩, fun hm => ⟨hm.1 ▸ hm.2, hm.1.symm⟩⟩
  have hinterfaces : ∀ n, DefinitionOf.checkInterfaces n (.list none []) = .ok [] := fun _ => rfl
  unfold start
  rw [h]
  dsimp only
  rw [Except.map_eq_ok]
  unfold DefinitionOf.declare
  simp only [Except.bind_eq_ok, Except.mapError_eq_ok, hclass, checkIdentifier_optional_iff,
    hinterfaces]
  constructor
  · rintro ⟨x, ⟨n, ⟨hn, hne⟩, i, ⟨hi, rfl⟩, names, hnames, hx⟩, hy⟩
    cases hnames
    cases hx
    cases hy
    exact ⟨hi, rfl, n, hn, hne, rfl⟩
  · rintro ⟨hi, rfl, n, hn, hne, rfl⟩
    exact ⟨_, ⟨n, ⟨hn, hne⟩, _, ⟨hi, rfl⟩, _, rfl, rfl⟩, rfl⟩

/-- What it takes to define what is declared, and what comes of it. -/
theorem define_eq_ok_iff {d : Declaration} {c : Container Definition} {x : Definition} :
    d.define c = .ok x ↔ ∃ y interface, d.start c = .ok (y, interface) ∧
      let called := d.calls.foldl DefinitionOf.addCall y
      "" ∉ d.targets interface called.className ∧
        x = { called with interfaces := (d.targets interface called.className).eraseDups } := by
  unfold define
  rw [Except.bind_eq_ok, Prod.exists]
  refine exists_congr fun y => exists_congr fun interface => and_congr_right fun _ => ?_
  dsimp only
  rw [Except.bind_eq_ok]
  constructor
  · rintro ⟨interfaces, hinterfaces, hx⟩
    cases hx
    obtain ⟨hne, rfl⟩ := DefinitionOf.checkInterfaces_texts_iff.mp hinterfaces
    exact ⟨hne, rfl⟩
  · rintro ⟨hne, rfl⟩
    exact ⟨_, DefinitionOf.checkInterfaces_texts_iff.mpr ⟨hne, rfl⟩, rfl⟩

/-- The interfaces of a definition that was declared are names, each once, and there is one. -/
theorem interfaces_of_define {d : Declaration} {c : Container Definition} {x : Definition}
    (h : d.define c = .ok x) : x.interfaces ≠ [] ∧ "" ∉ x.interfaces := by
  obtain ⟨y, interface, -, hne, rfl⟩ := define_eq_ok_iff.mp h
  refine ⟨fun hnil => ?_, fun hempty => hne (List.mem_eraseDups.mp hempty)⟩
  obtain ⟨n, hn⟩ := List.exists_mem_of_ne_nil _ (d.targets_ne_nil interface
    (d.calls.foldl DefinitionOf.addCall y).className)
  exact List.ne_nil_of_mem (List.mem_eraseDups.mpr hn) hnil

/-- The definition of a declaration lists its interfaces, and there is one. -/
theorem allInterfaces_of_define {d : Declaration} {c : Container Definition} {x : Definition}
    (h : d.define c = .ok x) : x.allInterfaces = x.interfaces :=
  if_neg (by simpa using (interfaces_of_define h).1)

/-- Applying a declaration adds what it defines under the interfaces of that. -/
theorem apply_eq_ok_iff {d : Declaration} {c c' : Catalogue} :
    d.apply c = .ok c' ↔ ∃ x, d.define c.definitions = .ok x ∧ c' = c.add x.interfaces x := by
  unfold apply
  rw [Except.bind_eq_ok]
  refine exists_congr fun x => and_congr_right fun hx => ?_
  rw [allInterfaces_of_define hx, Container.mapM_checkInterface (interfaces_of_define hx).2]
  exact ⟨fun h => (Except.ok.inj h).symm, fun h => congrArg Except.ok h.symm⟩

/-- A successful run builds a definition for each declaration, against the container that the run of
those before it gives, and adds them in turn. -/
theorem applyAll_eq_ok (ds : List Declaration) :
    ∀ {c c' : Catalogue} {b : List Definition},
      c.definitions = Container.ofDefinitions b → applyAll c ds = .ok c' →
      ∃ built : List Definition, built.length = ds.length ∧
        (∀ n (hd : n < ds.length) (hb : n < built.length),
          ∃ k, applyAll c (ds.take n) = .ok k ∧
            k.definitions = Container.ofDefinitions (b ++ built.take n) ∧
            ds[n].define k.definitions = .ok built[n]) ∧
        c'.definitions = Container.ofDefinitions (b ++ built) := by
  induction ds with
  | nil =>
    intro c c' b hc h
    cases h
    exact ⟨[], rfl, nofun, by rw [List.append_nil, hc]⟩
  | cons d rest ih =>
    intro c c' b hc h
    unfold applyAll at h
    split at h
    · cases h
    · rename_i next hstep
      obtain ⟨x, hx, hnext⟩ := apply_eq_ok_iff.mp hstep
      have hnextc : next.definitions = Container.ofDefinitions (b ++ [x]) := by
        rw [Container.ofDefinitions_append, ← hc, hnext, Catalogue.definitions_add]
      obtain ⟨built, hlength, hbuilt, hc'⟩ := ih hnextc h
      refine ⟨x :: built, by simp [hlength], ?_, by rw [hc']; simp⟩
      intro n hd hb
      cases n with
      | zero => exact ⟨c, rfl, by simpa using hc, by simpa using hx⟩
      | succ n =>
        obtain ⟨k, hk, hview, hx⟩ := hbuilt n (by simpa using hd) (by simpa using hb)
        refine ⟨k, ?_, by simpa using hview, by simpa using hx⟩
        rw [List.take_succ_cons, applyAll, hstep]
        exact hk

/-- The declarations in a file. -/
def inFile (t : Tree) (p : Path) : List Declaration :=
  match ofFile t p with
  | .ok ds => ds
  | .error _ => []

/-- Declarations behind others are applied to what those leave. -/
theorem applyAll_append (ds es : List Declaration) :
    ∀ {c c' : Catalogue}, applyAll c ds = .ok c' → applyAll c (ds ++ es) = applyAll c' es := by
  induction ds with
  | nil =>
    intro c c' h
    cases h
    rfl
  | cons d rest ih =>
    intro c c' h
    rw [List.cons_append]
    rw [applyAll] at h ⊢
    split at h
    · cases h
    · exact ih h

end Declaration

/-- Loading files that succeeds reads all of them and applies their declarations in turn. -/
theorem Overlay.load_eq_ok (t : Tree) (paths : List Path) :
    ∀ {c c' : Catalogue}, (load t c paths).2 = .ok c' →
      (∀ p ∈ paths, ∃ ds, Declaration.ofFile t p = .ok ds) ∧
      Declaration.applyAll c (paths.flatMap (Declaration.inFile t)) = .ok c' := by
  induction paths with
  | nil =>
    intro c c' h
    cases h
    exact ⟨nofun, rfl⟩
  | cons p rest ih =>
    intro c c' h
    unfold load at h
    split at h
    · cases h
    · rename_i next hnext
      cases hds : Declaration.ofFile t p with
      | error e =>
        rw [hds] at hnext
        cases hnext
      | ok ds =>
        rw [hds] at hnext
        obtain ⟨hread, happly⟩ := ih h
        constructor
        · intro q hq
          rcases List.mem_cons.mp hq with rfl | hq
          · exact ⟨ds, hds⟩
          · exact hread q hq
        · have hin : Declaration.inFile t p = ds := by
            unfold Declaration.inFile
            rw [hds]
          rw [List.flatMap_cons, hin, Declaration.applyAll_append ds _ hnext, happly]

/-! ### Files of layered directories -/

namespace Files

/-- Whether a path names anything, as far as it can be told. -/
def Tree.holds (t : Tree) (p : Path) : Bool :=
  match t.exists? p with
  | .ok b => b
  | .error _ => false

/-- The directories inside a directory, sorted by their names. -/
def Tree.subdirectories (t : Tree) (p : Path) : List Path :=
  match t.find p, t.locate p with
  | .ok .directory, .ok l =>
    (((t.namesIn l).mergeSort fun a b => decide (a ≤ b)).map p.join).filter t.isDirectory
  | _, _ => []

/-- The paths for which a question was answered with yes. -/
theorem Browser.passing_eq_ok {f : Path → Except Trouble Bool} {g : Path → Bool}
    (hfg : ∀ p b, f p = .ok b → g p = b) (ps : List Path) :
    ∀ {found : List Path}, passing f ps = .ok found → found = ps.filter g := by
  induction ps with
  | nil =>
    intro found h
    cases h
    rfl
  | cons p rest ih =>
    intro found h
    unfold passing at h
    obtain ⟨yes, hyes, h⟩ := Except.bind_eq_ok.mp h
    obtain ⟨more, hmore, h⟩ := Except.bind_eq_ok.mp h
    cases h
    rw [List.filter_cons, hfg p yes hyes, ih hmore]

/-- The include directories by the tree: the application directory, and behind it the directories
inside each modules directory. -/
def Browser.directories (b : Browser) (t : Tree) : List Path :=
  b.application.toList ++ b.modules.flatMap t.subdirectories

/-- The directories inside a modules directory. -/
theorem Browser.modulesIn_eq_ok {t : Tree} {p : Path} {found : List Path}
    (h : modulesIn t p = .ok found) : found = t.subdirectories p := by
  unfold modulesIn at h
  obtain ⟨isDirectory, hdirectory, h⟩ := Except.bind_eq_ok.mp h
  unfold Tree.isDirectory? Tree.asks at hdirectory
  unfold Tree.subdirectories
  cases isDirectory with
  | true =>
    rw [if_pos rfl] at h
    obtain ⟨names, hnames, h⟩ := Except.bind_eq_ok.mp h
    unfold Tree.list at hnames
    obtain ⟨n, hn, hnames⟩ := Except.bind_eq_ok.mp hnames
    cases n with
    | file content => cases hnames
    | directory =>
      obtain ⟨l, hl, hnames⟩ := Except.bind_eq_ok.mp hnames
      cases hnames
      rw [hn, hl]
      refine passing_eq_ok (fun q b hb => ?_) _ h
      rw [Tree.isDirectory, hb]
  | false =>
    rw [if_neg Bool.false_ne_true] at h
    cases h
    -- What is no directory was found to be a file or not found.
    cases hn : t.find p with
    | error e => rfl
    | ok n =>
      rw [hn] at hdirectory
      cases n with
      | file content => rfl
      | directory => cases hdirectory

/-- The include directories are the ones that the tree gives. -/
theorem Browser.computed_eq_ok {b : Browser} {t : Tree} {dirs : List Path}
    (h : b.computed t = .ok dirs) : dirs = b.directories t := by
  have hall : ∀ (ps : List Path) {found : List Path}, modulesInAll t ps = .ok found →
      found = ps.flatMap t.subdirectories := by
    intro ps
    induction ps with
    | nil =>
      intro found h
      cases h
      rfl
    | cons p rest ih =>
      intro found h
      unfold modulesInAll at h
      obtain ⟨here, hhere, h⟩ := Except.bind_eq_ok.mp h
      obtain ⟨more, hmore, h⟩ := Except.bind_eq_ok.mp h
      cases h
      rw [List.flatMap_cons, modulesIn_eq_ok hhere, ih hmore]
  unfold computed at h
  cases hm : modulesInAll t b.modules with
  | error e =>
    rw [hm] at h
    cases h
  | ok found =>
    rw [hm] at h
    cases h
    rw [directories, hall _ hm]

/-- A new browser keeps each modules directory once, in the order in which they were given. -/
theorem Browser.of_eq (application : Option Path) (modules : List Path) :
    Browser.of application modules = ⟨application, modules.eraseDups, none⟩ := by
  unfold Browser.of
  induction modules using List.reverseRecOn with
  | nil => rfl
  | append_singleton modules m ih =>
    rw [List.foldl_append, ih, List.foldl_cons, List.foldl_nil,
      Container.eraseDups_append_singleton]
    simp only [add, List.mem_eraseDups]

/-- The include directories of an application: its own directory, and behind it, for each modules
directory in turn, the directories inside it. -/
def includeDirectories (application : Option Path) (modules : List Path) (t : Tree) : List Path :=
  application.toList ++ modules.eraseDups.flatMap t.subdirectories

/-- A new browser looks below the include directories. -/
theorem Browser.directories_of (application : Option Path) (modules : List Path) (t : Tree) :
    (Browser.of application modules).directories t = includeDirectories application modules t := by
  rw [Browser.of_eq]
  rfl

end Files

namespace Overlay

/-- The files of a name below some directories, the one of the last directory first. -/
def layer (t : Tree) (directories : List Path) (name : String) : List Path :=
  ((directories.map fun d => d.join name).filter t.holds).reverse

/-- The files in the order in which they are applied: those outside of any environment, and then
those of the environment, each time from the least to the most specific directory. -/
def applied (o : Overlay) (t : Tree) (directories : List Path) : List Path :=
  o.names.flatMap (layer t directories)

/-- The declarations of an application in the order in which they are applied. -/
def declarations (o : Overlay) (t : Tree) (directories : List Path) : List Declaration :=
  (o.applied t directories).flatMap (Declaration.inFile t)

end Overlay

end Wiring
