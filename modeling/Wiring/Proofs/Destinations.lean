import Wiring.Proofs.Extending
import Wiring.Proofs.Applying

/-!
# `Wiring.Proofs.Destinations`: where the definition of a declaration goes

A declaration lists interfaces, it may have an interface attribute, and it may extend a definition
of some interface. `declared` are the interfaces that are its own: those that it lists and its
attribute, with its class in place of a missing attribute. What it extends is read and copied.

There is one way from the extended definition back into the container. A declaration without an
interface attribute that extends `X#id` is meant for `X` and not for its class (`redirect?`), so
that the definition of `X` under its identifier is lost (`redirected_overwrites`). Apart from that
nothing changes under an interface that is not declared, and no definition that was there becomes
another one (`applyDeclaration_frame`).

The container is written to once, when all else is done. So it is enough to know the interfaces of
what is made (`mem_declared_of_define`) and that making it only adds cells
(`createDefinition_eq_ok`).
-/

set_option autoImplicit false

namespace Wiring

namespace Container

variable {δ : Type}

/-- Under other interfaces an addition changes nothing, not even an order. -/
theorem definitions_add_of_not_mem {names : List String} {i : String} (h : i ∉ names)
    (c : Container δ) (k : Option String) (d : δ) :
    (c.add names k d).definitions i = c.definitions i := by
  unfold add
  induction names generalizing c with
  | nil => rfl
  | cons n rest ih =>
    obtain ⟨hn, hrest⟩ := List.ne_and_not_mem_of_not_mem_cons h
    rw [List.foldl_cons, ih hrest, definitions_addOne, if_neg hn]

end Container

namespace Declaration

/-- The interfaces that a declaration names for itself: the listed ones, and its attribute or else
its class. -/
def declared (d : Declaration) : List String :=
  d.interfaces ++ (d.interface.orElse fun _ => d.className).toList

/-- The interface that a declaration takes over from what it extends, because it has no interface
attribute. -/
def redirect? (d : Declaration) : Option String :=
  match d.interface, d.base with
  | none, some reference =>
    if '#' ∈ reference.toList ∧ (d.baseKey reference).1 ≠ "" then some (d.baseKey reference).1
    else none
  | _, _ => none

/-! ### The interfaces of what is defined -/

variable {d : Declaration} {c : Container Definition} {x y : Definition}
  {interface : Option String}

/-- What a declaration starts from is meant for the interface attribute, for the interface that it
takes over, or for the class. -/
theorem interface_of_start (hread : d.IsRead) (h : d.start c = .ok (y, interface)) :
    interface = d.interface.or d.redirect? ∨
      (d.interface = none ∧ d.redirect? = none ∧ interface = d.className) := by
  cases hbase : d.base with
  | none =>
    have hstart := ((start_eq_ok_of_no_base hbase).mp h).2.1
    left
    rw [hstart, redirect?, hbase]
    cases d.interface <;> rfl
  | some reference =>
    have hstart := ((start_eq_ok_of_base hbase).mp h).2
    rw [hstart]
    cases hi : d.interface with
    | some i => exact Or.inl rfl
    | none =>
      -- A declaration without the attribute has a class.
      obtain ⟨n, hn⟩ := Option.isSome_iff_exists.mp (hread.named.resolve_left (by simp [hi]))
      have hne : n ≠ "" := fun he => hread.plain.className_ne (he ▸ hn)
      by_cases hsign : '#' ∈ reference.toList
      · left
        simp only [redirect?, hi, hbase, hsign, true_and]
        by_cases hempty : (d.baseKey reference).1 = "" <;> simp [hempty]
      · right
        have hkey : (d.baseKey reference).1 = n := by
          unfold baseKey
          simp [hsign, hi, hn]
        have hredirect : d.redirect? = none := by
          unfold redirect?
          simp [hi, hbase, hsign]
        exact ⟨rfl, hredirect, by simp [hkey, hne, hn]⟩

/-- What a declaration starts from has the class of the declaration, if it has one. -/
theorem className_of_start (h : d.start c = .ok (y, interface)) {n : String}
    (hn : d.className = some n) : y.className = n := by
  cases hbase : d.base with
  | none =>
    obtain ⟨-, -, m, hm, -, rfl⟩ := (start_eq_ok_of_no_base hbase).mp h
    exact Option.some.inj (hm.symm.trans hn)
  | some reference =>
    obtain ⟨-, -, b, -, rfl⟩ := extended_eq_ok_iff.mp ((start_eq_ok_of_base hbase).mp h).1
    show d.className.getD b.className = n
    rw [hn, Option.getD_some]

/-- The identifier of what a declaration defines is its own, whatever it extends. -/
theorem identifier_of_define (h : d.define c = .ok x) : x.identifier = d.identifier := by
  obtain ⟨y, interface, hstart, -, rfl⟩ := define_eq_ok_iff.mp h
  show (d.calls.foldl DefinitionOf.addCall y).identifier = d.identifier
  rw [(foldl_addCall d.calls y).2.1]
  cases hbase : d.base with
  | none =>
    obtain ⟨-, -, m, -, -, rfl⟩ := (start_eq_ok_of_no_base hbase).mp hstart
    rfl
  | some reference =>
    obtain ⟨-, -, b, -, rfl⟩ := extended_eq_ok_iff.mp ((start_eq_ok_of_base hbase).mp hstart).1
    rfl

/-- What is defined goes to interfaces that are declared or taken over. -/
theorem mem_declared_of_define (hread : d.IsRead) (h : d.define c = .ok x) {i : String}
    (hi : i ∈ x.interfaces) : i ∈ d.declared ∨ d.redirect? = some i := by
  obtain ⟨y, interface, hstart, -, rfl⟩ := define_eq_ok_iff.mp h
  have hi : i ∈ d.targets interface (d.calls.foldl DefinitionOf.addCall y).className :=
    List.mem_eraseDups.mp hi
  rw [(foldl_addCall d.calls y).1] at hi
  unfold targets at hi
  dsimp only at hi
  split at hi
  · -- Without an interface attribute there is a class, and it is the class of what was made.
    rename_i hnames
    obtain ⟨-, hnone⟩ : d.interfaces = [] ∧ interface = none := by simpa using hnames
    have hattribute : d.interface = none := by
      rcases interface_of_start hread hstart with ho | ⟨ho, -⟩
      · exact (Option.or_eq_none_iff.mp (ho.symm.trans hnone)).1
      · exact ho
    obtain ⟨n, hn⟩ := Option.isSome_iff_exists.mp (hread.named.resolve_left (by simp [hattribute]))
    rw [className_of_start hstart hn, List.mem_singleton] at hi
    left
    simp [declared, hattribute, hn, hi]
  · rcases List.mem_append.mp hi with hlisted | hmeant
    · exact Or.inl (List.mem_append_left _ hlisted)
    · have hmeant : interface = some i := Option.mem_toList.mp hmeant
      rcases interface_of_start hread hstart with ho | ⟨ho, -, hclass⟩
      · rcases Option.or_eq_some_iff.mp (ho.symm.trans hmeant) with hi | ⟨-, hi⟩
        · left
          simp [declared, hi]
        · exact Or.inr hi
      · left
        simp [declared, ho, ← hclass, hmeant]

/-- What is defined goes to all listed interfaces, to the attribute, and to the interface that is
taken over. -/
theorem mem_interfaces_of_define (hread : d.IsRead) (h : d.define c = .ok x) {i : String}
    (hi : i ∈ d.interfaces ∨ d.interface = some i ∨ d.redirect? = some i) : i ∈ x.interfaces := by
  obtain ⟨y, interface, hstart, -, rfl⟩ := define_eq_ok_iff.mp h
  have hmem : i ∈ d.interfaces ++ interface.toList := by
    rcases hi with hlisted | hmeant
    · exact List.mem_append_left _ hlisted
    · refine List.mem_append_right _ (Option.mem_toList.mpr ?_)
      have hnone : d.redirect? = some i → d.interface = none := by
        intro hi
        unfold redirect? at hi
        split at hi
        · assumption
        · cases hi
      rcases interface_of_start hread hstart with ho | ⟨ho, hredirect, -⟩
      · rcases hmeant with hi | hi
        · rw [ho, hi]
          rfl
        · rw [ho, hnone hi, hi]
          rfl
      · rcases hmeant with hi | hi
        · rw [ho] at hi
          cases hi
        · rw [hredirect] at hi
          cases hi
  show i ∈ (d.targets interface _).eraseDups
  rw [List.mem_eraseDups]
  unfold targets
  dsimp only
  rw [if_neg]
  · exact hmem
  · intro hempty
    rw [List.isEmpty_iff.mp hempty] at hmem
    cases hmem

end Declaration

namespace Store

variable {s u : Store} {r : Ref ContainerCell} {d : Declaration} {x : Ref DefinitionCell}

/-! ### What a declaration makes -/

/-- A declaration that was read makes a definition that it defines against some container, and
making it only adds cells. -/
theorem createDefinition_eq_ok (hread : d.IsRead)
    (hwhole : ∀ e ∈ (s.containers.get r).entries, s.Whole e.2)
    (h : (createDefinition r d).run s = (.ok x, u)) :
    s.Grows u ∧ u.Whole x ∧ ∃ c, d.define c = .ok (u.held x) := by
  cases hkey : d.baseKey? with
  | none =>
    obtain ⟨x', u', hrun, hgrows, -, -, hx, hdefine⟩ :=
      run_createDefinition_of_no_base hread hkey s r
    cases h.symm.trans hrun
    exact ⟨hgrows, hx, .empty, hdefine .empty⟩
  | some k =>
    cases hfind : (s.containers.get r).find? k with
    | none => cases h.symm.trans (run_createDefinition_of_absent hkey hfind)
    | some b =>
      by_cases hcan : s.CanCopy b
      · obtain ⟨y, t, hcopy⟩ : ∃ y t, (copy b).run s = (.ok y, t) := ⟨_, _, hcan.run_copy⟩
        obtain ⟨hgrows, -, hnew, hcopied, -⟩ :=
          copy_eq_ok (hwhole _ (Container.mem_entries_iff.mpr hfind)) hcopy
        obtain ⟨u', hrun, hshapes, hx, -, hdefine⟩ :=
          run_createDefinition_of_base hread hkey hfind hcopy hcopied
        cases h.symm.trans hrun
        -- Any container with the copy for its base will do.
        have hfound : (Container.empty.addOne k.interface k.identifier (t.held x)).find? k
            = some (t.held x) := by rw [Container.find?_addOne, if_pos ⟨rfl, rfl⟩]
        exact ⟨hshapes.grows hgrows hnew, hx, _, hdefine _ hfound⟩
      · cases h.symm.trans (run_createDefinition_of_not_canCopy hkey hfind hcan)

/-! ### What applying a declaration changes -/

/-- A declaration that was read, and that makes a definition, is applied. The container then has
that definition, under the identifier of the declaration, and differs from before only

* under the interfaces that the declaration declares, and
* under the interface that it takes over from what it extends, if it has no interface attribute and
  extends `X#id`.

Every other entry stays in its place, the definitions that were there hold what they held, and the
other containers are left alone. -/
theorem applyDeclaration_frame (hread : d.IsRead) (hr : s.containers.Holds r)
    (hwhole : ∀ e ∈ (s.containers.get r).entries, s.Whole e.2)
    (hcreate : (createDefinition r d).run s = (.ok x, u)) :
    ∃ t, (applyDeclaration r d).run s = (.ok (), t) ∧
      (∀ k, (t.containers.get r).find? k ≠ (s.containers.get r).find? k →
        (t.containers.get r).find? k = some x ∧ k.identifier = d.identifier ∧
          (k.interface ∈ d.declared ∨ d.redirect? = some k.interface)) ∧
      (∀ i, i ∈ d.interfaces ∨ d.interface = some i ∨ d.redirect? = some i →
        (t.containers.get r).find? ⟨i, d.identifier⟩ = some x) ∧
      (∀ i, i ∉ d.declared → d.redirect? ≠ some i →
        (t.containers.get r).definitions i = (s.containers.get r).definitions i) ∧
      (∀ b, s.Whole b → t.held b = s.held b) ∧
      (∀ q, s.containers.Holds q → q ≠ r → t.containers.get q = s.containers.get q) := by
  obtain ⟨hgrows, hx, c, hdefine⟩ := createDefinition_eq_ok hread hwhole hcreate
  set names := (u.definitions.get x).allInterfaces with hall
  have hsame : names = (u.held x).interfaces := Declaration.allInterfaces_of_define hdefine
  have hidentifier : (u.definitions.get x).identifier = d.identifier :=
    Declaration.identifier_of_define hdefine
  have hnames : "" ∉ names := hsame ▸ (Declaration.interfaces_of_define hdefine).2
  have hadd := run_addDefinition u r x hnames
  rw [hidentifier] at hadd
  set t : Store := { u with
    containers := u.containers.modify r fun c => c.add names d.identifier x } with ht
  have hrun : (applyDeclaration r d).run s = (.ok (), t) := by
    unfold applyDeclaration
    rw [Work.run_bind_ok hcreate, hadd]
  have hget : t.containers.get r = (s.containers.get r).add names d.identifier x := by
    rw [← hgrows.containers.get hr]
    exact Cells.get_modify_self (hgrows.containers.holds hr) _
  have htargets : ∀ i ∈ names, i ∈ d.declared ∨ d.redirect? = some i := fun i hi =>
    Declaration.mem_declared_of_define hread hdefine (hsame ▸ hi)
  refine ⟨t, hrun, fun k hk => ?_, fun i hi => ?_, fun i hown hredirect => ?_, fun b hb => ?_,
    fun q hq hne => ?_⟩
  · rw [hget, Container.find?_add] at hk ⊢
    split at hk
    · rename_i hmem
      rw [if_pos hmem]
      exact ⟨rfl, hmem.2, htargets _ hmem.1⟩
    · exact absurd rfl hk
  · have hmem : i ∈ names := hsame ▸ Declaration.mem_interfaces_of_define hread hdefine hi
    rw [hget, Container.find?_add, if_pos ⟨hmem, rfl⟩]
  · rw [hget]
    refine Container.definitions_add_of_not_mem (fun hi => ?_) _ _ _
    rcases htargets i hi with hi | hi
    · exact hown hi
    · exact hredirect hi
  · exact (hb.grows hgrows).2
  · rw [← hgrows.containers.get hq]
    exact Cells.get_modify_of_ne hne _

/-- A declaration with an interface attribute of its own that extends the logger. -/
def borrowing : Declaration :=
  ⟨some "Audit", some "app.Audit", none, some "Log#", ["Trail"], [], "a.xml"⟩

theorem isRead_borrowing : borrowing.IsRead :=
  ⟨"a.xml", .mk "dependency" [("interface", "Audit"), ("class", "app.Audit"), ("extends", "Log#")]
    [.mk "interface" [("name", "Trail")] []], [borrowing], rfl, List.mem_singleton.mpr rfl⟩

/-- It is added under its two interfaces, and the logger that it extends stays where it is. -/
theorem applyDeclaration_frame_borrowing :
    ∃ x t, (applyDeclaration ⟨0⟩ borrowing).run loggerStore = (.ok (), t) ∧
      (t.containers.get ⟨0⟩).find? ⟨"Audit", none⟩ = some x ∧
      (t.containers.get ⟨0⟩).find? ⟨"Trail", none⟩ = some x ∧
      (t.containers.get ⟨0⟩).definitions "Log"
        = (loggerStore.containers.get ⟨0⟩).definitions "Log" ∧
      t.held ⟨0⟩ = loggerStore.held ⟨0⟩ := by
  have hwhole : ∀ x, loggerStore.definitions.Holds x → loggerStore.Whole x :=
    fun x => declared_loggerStore.sound.whole
  have hlogger : loggerStore.definitions.Holds ⟨0⟩ := Nat.zero_lt_one
  have hentries : ∀ e ∈ (loggerStore.containers.get ⟨0⟩).entries, e.2 = ⟨0⟩ := by decide +kernel
  obtain ⟨t, hrun, -, hadded, hkept, hheld, -⟩ := applyDeclaration_frame isRead_borrowing
    (s := loggerStore) (r := ⟨0⟩) Nat.zero_lt_one
    (fun e he => hentries e he ▸ hwhole _ hlogger) rfl
  exact ⟨_, t, hrun, hadded "Audit" (Or.inr (Or.inl rfl)), hadded "Trail" (Or.inl (.head _)),
    hkept "Log" (by decide) (by decide), hheld ⟨0⟩ (hwhole _ hlogger)⟩

/-- The same declaration without the interfaces. -/
def redirected : Declaration := ⟨none, some "app.Audit", none, some "Log#", [], [], "a.xml"⟩

theorem isRead_redirected : redirected.IsRead :=
  ⟨"a.xml", .mk "dependency" [("class", "app.Audit"), ("extends", "Log#")] [], [redirected], rfl,
    List.mem_singleton.mpr rfl⟩

/-- Its own interface is its class, but it replaces the logger that it extends, and nothing is added
under its class. -/
theorem redirected_overwrites :
    redirected.IsRead ∧ "Log" ∉ redirected.declared ∧
      ∃ x u t, (createDefinition ⟨0⟩ redirected).run loggerStore = (.ok x, u) ∧
        (applyDeclaration ⟨0⟩ redirected).run loggerStore = (.ok (), t) ∧
        (loggerStore.containers.get ⟨0⟩).find? ⟨"Log", none⟩ = some ⟨0⟩ ∧
        (t.containers.get ⟨0⟩).find? ⟨"Log", none⟩ = some x ∧ x ≠ ⟨0⟩ ∧
        (t.containers.get ⟨0⟩).find? ⟨"app.Audit", none⟩ = none := by
  refine ⟨isRead_redirected, by decide, _, _, _, rfl, rfl, ?_, ?_, ?_, ?_⟩
  · decide +kernel
  · decide +kernel
  · decide +kernel
  · decide +kernel

end Store

end Wiring
