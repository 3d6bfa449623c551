import Wiring.Proofs.Copying
import Wiring.Proofs.Declaring
import Wiring.Proofs.Overriding

/-!
# `Wiring.Proofs.Extending`: making the definition of a declaration

A declaration is turned into a definition in the store: a copy of its base, or a new definition, gets
its calls and its interfaces. While that goes on, nothing but this definition changes, and arguments
and calls are added (`Store.Shapes`). Each step does to the definition that the store holds what the
corresponding operation does to a definition (`run_addCall`, `run_addCalls`, `run_extend`).

`createDefinition_overrides` is the main fact: what is made keeps of its base what the declaration
does not override, and the container and the base are as before.
-/

set_option autoImplicit false

namespace Wiring

/-! ### Changes of a definition -/

namespace DefinitionOf

variable {γ δ : Type}

theorem freeIdentifier_map (f : γ → δ) (d : DefinitionOf γ) :
    (d.map f).freeIdentifier = d.freeIdentifier := by
  have hcontains : ∀ k, (d.calls.map f).contains k = d.calls.contains k := by
    intro k
    unfold OrderedMap.contains
    rw [OrderedMap.keys_map]
  have hsize : (d.calls.map f).size = d.calls.size := by
    simp [OrderedMap.size, OrderedMap.map]
  unfold freeIdentifier map
  simp only [hcontains, hsize]

theorem placeFor_map {α : Type} (f : γ → δ) (d : DefinitionOf γ) (c : CallOf α) :
    (d.map f).placeFor c = d.placeFor c := by
  unfold placeFor
  rw [freeIdentifier_map]

theorem map_keep (f : γ → δ) (d : DefinitionOf γ) (p : CallPlace) (q : γ) :
    (d.keep p q).map f = (d.map f).keep p (f q) := by
  cases p with
  | constructor => rfl
  | keyed i =>
    unfold keep map
    rw [OrderedMap.map_insert]

/-- A call that a definition keeps now is a new one or was kept before. -/
theorem mem_parts_keep {d : DefinitionOf γ} {p : CallPlace} {q r : γ} (h : r ∈ (d.keep p q).parts) :
    r = q ∨ r ∈ d.parts := by
  rcases List.mem_append.mp h with h | h
  · cases p with
    | constructor => exact Or.inl (List.mem_singleton.mp h)
    | keyed i => exact Or.inr (List.mem_append_left _ h)
  · cases p with
    | constructor => exact Or.inr (List.mem_append_right _ h)
    | keyed i =>
      obtain ⟨e, he, rfl⟩ := List.mem_map.mp h
      rcases OrderedMap.mem_of_mem_put he with rfl | he
      · exact Or.inl rfl
      · exact Or.inr (List.mem_append_right _ (List.mem_map_of_mem he))

end DefinitionOf

namespace Store

variable {s t u : Store} {x : Ref DefinitionCell}

/-! ### What making a definition changes -/

/-- A definition was changed, arguments and calls were added, and the rest was left alone. -/
structure Shapes (x : Ref DefinitionCell) (s t : Store) : Prop where
  arguments : s.arguments.Extends t.arguments
  calls : s.calls.Extends t.calls
  definitions : ∃ f, t.definitions = s.definitions.modify x f
  rest : t = { s with arguments := t.arguments, calls := t.calls, definitions := t.definitions }

theorem Shapes.refl (x : Ref DefinitionCell) (s : Store) : Shapes x s s where
  arguments := .refl _
  calls := .refl _
  definitions := ⟨id, by simp [Cells.modify]⟩
  rest := rfl

theorem Shapes.trans (h : Shapes x s t) (h' : Shapes x t u) : Shapes x s u where
  arguments := h.arguments.trans h'.arguments
  calls := h.calls.trans h'.calls
  definitions := by
    obtain ⟨f, hf⟩ := h.definitions
    obtain ⟨g, hg⟩ := h'.definitions
    refine ⟨g ∘ f, ?_⟩
    rw [hg, hf]
    unfold Cells.modify
    rw [List.modify_modify_eq]
  rest := by
    rw [h'.rest, h.rest]

/-- A change of the definition alone. -/
theorem shapes_modify (x : Ref DefinitionCell) (s : Store) (f : DefinitionCell → DefinitionCell) :
    Shapes x s { s with definitions := s.definitions.modify x f } :=
  ⟨.refl _, .refl _, ⟨f, rfl⟩, rfl⟩

/-- A store in which the definition is new has all that it had. -/
theorem Shapes.grows (h : Shapes x t u) (hs : s.Grows t) (hx : ¬ s.definitions.Holds x) :
    s.Grows u := by
  obtain ⟨f, hf⟩ := h.definitions
  have hdefinitions : s.definitions.Extends u.definitions := by
    rw [hf]
    exact hs.definitions.modify hx f
  rw [h.rest]
  exact { hs with
    arguments := hs.arguments.trans h.arguments
    calls := hs.calls.trans h.calls
    definitions := hdefinitions }

theorem Shapes.containers (h : Shapes x s t) : t.containers = s.containers := by
  rw [h.rest]

theorem Shapes.collections (h : Shapes x s t) : t.collections = s.collections := by
  rw [h.rest]

/-- A change of the definition that keeps its calls does the same to what it holds. -/
theorem run_reshape {ε : Type} (h : s.Whole x) {f : ∀ {γ : Type}, DefinitionOf γ → DefinitionOf γ}
    (hf : ∀ {γ δ : Type} (g : γ → δ) (d : DefinitionOf γ), (f d).map g = f (d.map g))
    (hparts : ∀ {γ : Type} (d : DefinitionOf γ), (f d).parts = d.parts) :
    ∃ t, (change x (fun d : DefinitionCell => f d) : Work ε Unit).run s = (.ok (), t) ∧
      Shapes x s t ∧ t.Whole x ∧ t.held x = f (s.held x) := by
  have hget : (s.definitions.modify x fun d => f d).get x = f (s.definitions.get x) :=
    Cells.get_modify_self h.definition _
  refine ⟨_, rfl, shapes_modify x s fun d => f d, ⟨Cells.holds_modify.mpr h.definition, ?_⟩, ?_⟩
  · intro q hq
    have hq' : q ∈ (f (s.definitions.get x)).parts := hget ▸ hq
    rw [hparts] at hq'
    exact ⟨(h.call q hq').call, (h.call q hq').argument⟩
  · show ((s.definitions.modify x fun d => f d).get x).map s.heldCall = _
    rw [hget, hf]
    rfl

/-! ### Cells of a declared call -/

/-- Settling what is flat changes nothing. -/
theorem run_settleEntries_of_isFlat {ε : Type} (s : Store) :
    ∀ {entries : List (Value × Value)}, (∀ e ∈ entries, e.2.isFlat = true) →
      (settleEntries entries : Work ε _).run s = (.ok entries, s)
  | [], _ => rfl
  | (k, v) :: rest, h => by
    obtain ⟨hv, hrest⟩ := List.forall_mem_cons.mp h
    have hsettle : (settle v : Work ε Value).run s = (.ok v, s) := by
      cases v with
      | list place items => cases hv
      | map place entries => cases hv
      | _ => rfl
    rw [settleEntries, Work.run_bind_ok hsettle,
      Work.run_bind_ok (run_settleEntries_of_isFlat s hrest), Work.run_pure]

/-- The cells of flat arguments hold the arguments. -/
theorem run_placeArguments_of_isFlat (as : List Argument) : ∀ s : Store, (∀ a ∈ as, a.IsFlat) →
    ∃ rs t, (as.mapM placeArgument).run s = (.ok rs, t) ∧ s.arguments.Extends t.arguments ∧
      t = { s with arguments := t.arguments } ∧ (∀ r ∈ rs, t.arguments.Holds r) ∧
      rs.map t.arguments.get = as := by
  induction as with
  | nil => exact fun s _ => ⟨[], s, rfl, .refl _, rfl, nofun, rfl⟩
  | cons a rest ih =>
    intro s has
    obtain ⟨ha, hrest⟩ := List.forall_mem_cons.mp has
    have hplace : (placeArgument a).run s
        = (.ok s.arguments.next, { s with arguments := s.arguments.add a }) := by
      unfold placeArgument
      rw [Work.run_bind_ok (run_settleEntries_of_isFlat s ha), run_make]
      rfl
    obtain ⟨rs, t, hrun, hextends, hsame, hheld, hviews⟩ :=
      ih { s with arguments := s.arguments.add a } hrest
    refine ⟨s.arguments.next :: rs, t, ?_, (Cells.extends_add _ a).trans hextends, hsame, ?_, ?_⟩
    · rw [List.mapM_cons, Work.run_bind_ok hplace, Work.run_bind_ok hrun, Work.run_pure]
    · exact List.forall_mem_cons.mpr ⟨hextends.holds (Cells.holds_next _ a), hheld⟩
    · rw [List.map_cons, hviews, hextends.get (Cells.holds_next _ a)]
      exact congrArg (· :: rest) (Cells.get_add_next _ a)

/-- The cell of a flat call is new and holds the call. -/
theorem run_placeCall_of_isFlat (s : Store) {c : Call} (hc : CallOf.IsFlat c) :
    ∃ q t, (placeCall c).run s = (.ok q, t) ∧ s.arguments.Extends t.arguments ∧
      s.calls.Extends t.calls ∧ t = { s with arguments := t.arguments, calls := t.calls } ∧
      ¬ s.calls.Holds q ∧ t.WholeCall q ∧ t.heldCall q = c := by
  obtain ⟨rs, t, hrun, hextends, hsame, hheld, hviews⟩ :=
    run_placeArguments_of_isFlat c.arguments s hc
  have hcalls : t.calls = s.calls := by rw [hsame]
  have hget : (t.calls.add ⟨c.method, c.identifier, rs⟩).get t.calls.next
      = ⟨c.method, c.identifier, rs⟩ := Cells.get_add_next _ _
  refine ⟨t.calls.next, { t with calls := t.calls.add ⟨c.method, c.identifier, rs⟩ }, ?_, hextends,
    ?_, ?_, ?_, ⟨Cells.holds_next _ _, fun a ha => hheld a ?_⟩, ?_⟩
  · unfold placeCall
    rw [Work.run_bind_ok hrun, run_make]
    rfl
  · rw [hcalls]
    exact Cells.extends_add _ _
  · rw [hsame]
  · rw [hcalls]
    exact (Cells.Extends.refl _).not_holds_next
  · have ha' : a ∈ ((t.calls.add ⟨c.method, c.identifier, rs⟩).get t.calls.next).arguments := ha
    rw [hget] at ha'
    exact ha'
  · unfold heldCall
    rw [hget]
    exact congrArg (CallOf.mk _ _) hviews

/-! ### Calls of a declaration -/

/-- Adding a call cell to a definition adds the call that it holds. -/
theorem run_addCall {q : Ref CallCell} (hx : s.Whole x) (hq : s.WholeCall q)
    (hnew : q ∉ (s.definitions.get x).parts) :
    ∃ t, (addCall x q).run s = (.ok (), t) ∧ t.arguments = s.arguments ∧
      (∃ f, t.calls = s.calls.modify q f) ∧ (∃ f, t.definitions = s.definitions.modify x f) ∧
      t = { s with calls := t.calls, definitions := t.definitions } ∧
      t.Whole x ∧ t.held x = (s.held x).addCall (s.heldCall q) := by
  have hplaces : (s.held x).placeFor (s.heldCall q)
      = (s.definitions.get x).placeFor (s.calls.get q) := DefinitionOf.placeFor_map _ _ _
  unfold addCall
  rw [Work.run_bind_ok (run_read x s), Work.run_bind_ok (run_read q s)]
  unfold DefinitionOf.addCall
  rw [hplaces]
  simp only [Stored.cells]
  cases (s.definitions.get x).placeFor (s.calls.get q) with
  | constructor =>
    -- The cell of the call is left as it is.
    have hget : (s.definitions.modify x fun d => d.keep .constructor q).get x
        = (s.definitions.get x).keep .constructor q := Cells.get_modify_self hx.definition _
    refine ⟨_, rfl, rfl, ⟨id, by simp [Stored.setCells, Cells.modify]⟩, ⟨_, rfl⟩, rfl,
      ⟨Cells.holds_modify.mpr hx.definition, fun r hr => ?_⟩, ?_⟩
    · rcases DefinitionOf.mem_parts_keep (hget ▸ hr) with rfl | hr
      · exact ⟨hq.call, hq.argument⟩
      · exact ⟨(hx.call r hr).call, (hx.call r hr).argument⟩
    · show ((s.definitions.modify x fun d => d.keep .constructor q).get x).map s.heldCall = _
      rw [hget, DefinitionOf.map_keep]
      rfl
  | keyed i =>
    -- The call gets the identifier in its own cell, which no other call of the definition shares.
    have hget : (s.definitions.modify x fun d => d.keep (.keyed i) q).get x
        = (s.definitions.get x).keep (.keyed i) q := Cells.get_modify_self hx.definition _
    set calls := s.calls.modify q fun c => { c with identifier := some i } with hcalls
    have hown : calls.get q = { s.calls.get q with identifier := some i } :=
      Cells.get_modify_self hq.call _
    have hother : ∀ r ∈ (s.definitions.get x).parts, calls.get r = s.calls.get r := by
      intro r hr
      have hne : r ≠ q := fun he => hnew (he ▸ hr)
      exact Cells.get_modify_of_ne hne _
    refine ⟨{ s with
        calls := calls
        definitions := s.definitions.modify x fun d => d.keep (.keyed i) q },
      rfl, rfl, ⟨_, hcalls⟩, ⟨_, rfl⟩, rfl,
      ⟨Cells.holds_modify.mpr hx.definition, fun r hr => ?_⟩, ?_⟩
    · rcases DefinitionOf.mem_parts_keep (hget ▸ hr) with rfl | hr
      · exact ⟨Cells.holds_modify.mpr hq.call, fun a ha =>
          hq.argument a ((congrArg CallOf.arguments hown) ▸ ha)⟩
      · exact ⟨Cells.holds_modify.mpr (hx.call r hr).call, fun a ha =>
          (hx.call r hr).argument a ((congrArg CallOf.arguments (hother r hr)) ▸ ha)⟩
    · show ((s.definitions.modify x fun d => d.keep (.keyed i) q).get x).map
        (fun r => (calls.get r).map s.arguments.get) = _
      rw [hget, DefinitionOf.map_keep, hown, DefinitionOf.map_congr fun r hr => by rw [hother r hr]]
      rfl

/-- Adding declared calls to a definition adds them one by one to what it holds. -/
theorem run_addCalls (cs : List Call) : ∀ s : Store, s.Whole x → (∀ c ∈ cs, CallOf.IsFlat c) →
    ∃ t, (addCalls x cs).run s = (.ok (), t) ∧ Shapes x s t ∧ t.Whole x ∧
      t.held x = cs.foldl DefinitionOf.addCall (s.held x) := by
  induction cs with
  | nil => exact fun s hx _ => ⟨s, rfl, .refl x s, hx, rfl⟩
  | cons c rest ih =>
    intro s hx hcs
    obtain ⟨hc, hrest⟩ := List.forall_mem_cons.mp hcs
    obtain ⟨q, s₁, hplace, harguments, hcalls, hsame, hq, hwhole, hheld⟩ :=
      run_placeCall_of_isFlat s hc
    have hdefinitions : s₁.definitions = s.definitions := by rw [hsame]
    obtain ⟨hx₁, hview⟩ := hx.extends harguments hcalls (hdefinitions ▸ .refl _)
    -- The definition keeps calls that were there, and the new one was not.
    have hnew : q ∉ (s₁.definitions.get x).parts := fun hm => by
      rw [hdefinitions] at hm
      exact hq (hx.call q hm).call
    obtain ⟨s₂, hadd, harguments', ⟨f, hcalls'⟩, ⟨g, hdefinitions'⟩, hsame', hx₂, hview'⟩ :=
      run_addCall hx₁ hwhole hnew
    obtain ⟨t, hrun, hshapes, hxt, hviewt⟩ := ih s₂ hx₂ hrest
    have hshapes₂ : Shapes x s s₂ :=
      { arguments := harguments' ▸ harguments
        calls := by
          rw [hcalls']
          exact hcalls.modify hq f
        definitions := ⟨g, by rw [hdefinitions', hdefinitions]⟩
        rest := by rw [hsame', hsame] }
    refine ⟨t, ?_, hshapes₂.trans hshapes, hxt, ?_⟩
    · rw [addCalls, Work.run_bind_ok hplace, Work.run_bind_ok hadd, hrun]
    · rw [hviewt, hview', hview, hheld]
      rfl

/-! ### Bases -/

/-- The base of a declaration is looked for under its key. -/
theorem run_baseOf (s : Store) (r : Ref ContainerCell) (i : String) (k : Option String) :
    (baseOf r (.text i) (Value.optional k)).run s
      = match (s.containers.get r).find? ⟨i, k⟩ with
        | some b => (.ok b, s)
        | none => (.error (.notFound (.base i k)), s) := by
  have hsought : soughtIdentifier (Value.optional k) = .ok (true, k) := by cases k <;> rfl
  have hlift : (Work.lift (soughtIdentifier (Value.optional k)) : Action (Bool × Option String)).run s
      = (.ok (true, k), s) := by rw [Work.run_lift, hsought]
  unfold baseOf
  rw [if_neg (show ¬ (!(Value.text i).isKey) = true from nofun)]
  dsimp only
  rw [Work.run_bind_ok hlift]
  dsimp only
  rw [Work.run_bind_ok (run_read r s)]
  show ExceptT.run (match (s.containers.get r).find? ⟨i, k⟩ with
    | some d => pure d
    | none => throw (.notFound (.base i k)) : Action _) s = _
  cases (s.containers.get r).find? ⟨i, k⟩ <;> rfl

/-- A definition gets an identifier, or none. -/
theorem run_setIdentifier (hx : s.Whole x) {k : Option String} (hk : k ≠ some "") :
    ∃ t, (setIdentifier x (Value.optional k)).run s = (.ok (), t) ∧ Shapes x s t ∧ t.Whole x ∧
      t.held x = { s.held x with identifier := k } := by
  obtain ⟨t, hrun, hrest⟩ := run_reshape (ε := Fault) hx
    (f := fun d => { d with identifier := k }) (fun _ _ => rfl) fun _ => rfl
  refine ⟨t, ?_, hrest⟩
  have hcheck : DefinitionOf.checkIdentifier (s.definitions.get x).className (Value.optional k)
      = .ok k := Declaration.checkIdentifier_optional_iff.mpr ⟨hk, rfl⟩
  unfold setIdentifier
  rw [Work.run_bind_ok (run_read x s)]
  dsimp only [Stored.cells]
  rw [hcheck]
  exact hrun

/-- A definition gets a class. -/
theorem run_setClassName (hx : s.Whole x) {n : String} (hn : n ≠ "") :
    ∃ t, (setClassName x (.text n)).run s = (.ok (), t) ∧ Shapes x s t ∧ t.Whole x ∧
      t.held x = { s.held x with className := n } := by
  obtain ⟨t, hrun, hrest⟩ := run_reshape (ε := Fault) hx
    (f := fun d => { d with className := n }) (fun _ _ => rfl) fun _ => rfl
  refine ⟨t, ?_, hrest⟩
  unfold setClassName
  rw [Declaration.checkClassName_text_iff.mpr ⟨hn, rfl⟩]
  exact hrun

/-- A definition gets interfaces, each once. -/
theorem run_setInterfaces (hx : s.Whole x) {names : List String} (hnames : "" ∉ names) :
    ∃ t, (setInterfaces x (.list none (names.map .text))).run s = (.ok (), t) ∧ Shapes x s t ∧
      t.Whole x ∧ t.held x = { s.held x with interfaces := names.eraseDups } := by
  obtain ⟨t, hrun, hrest⟩ := run_reshape (ε := Fault) hx
    (f := fun d => { d with interfaces := names.eraseDups }) (fun _ _ => rfl) fun _ => rfl
  refine ⟨t, ?_, hrest⟩
  unfold setInterfaces
  rw [Work.run_bind_ok (run_read x s), DefinitionOf.checkInterfaces_texts_iff.mpr ⟨hnames, rfl⟩]
  exact hrun

/-- Extending gives the copy the identifier, and the class if there is one. -/
theorem run_extend {r : Ref ContainerCell} {i : String} {k identifier className : Option String}
    {b : Ref DefinitionCell} (hfind : (s.containers.get r).find? ⟨i, k⟩ = some b)
    (hcopy : (copy b).run s = (.ok x, t)) (hx : t.Whole x) (hi : identifier ≠ some "")
    (hc : className ≠ some "") :
    ∃ u, (extend r (.text i) (Value.optional k) (Value.optional identifier)
        (Value.optional className)).run s = (.ok x, u) ∧ Shapes x t u ∧ u.Whole x ∧
      u.held x = { t.held x with
        identifier := identifier
        className := className.getD (t.held x).className } := by
  have hbase : (baseOf r (.text i) (Value.optional k)).run s = (.ok b, s) := by
    rw [run_baseOf, hfind]
  obtain ⟨u, hrun, hshapes, hxu, hview⟩ := run_setIdentifier hx hi
  unfold extend
  rw [Work.run_bind_ok hbase, Work.run_bind_ok hcopy, Work.run_bind_ok hrun]
  cases className with
  | none => exact ⟨u, rfl, hshapes, hxu, hview⟩
  | some n =>
    have hn : n ≠ "" := fun he => hc (congrArg some he)
    obtain ⟨v, hrun', hshapes', hxv, hview'⟩ := run_setClassName hxu hn
    rw [if_pos (show (Value.optional (some n)).truthy = true from decide_eq_true hn)]
    refine ⟨v, ?_, hshapes.trans hshapes', hxv, ?_⟩
    · rw [show Value.optional (some n) = .text n from rfl, Work.run_bind_ok hrun', Work.run_pure]
    · rw [hview', hview]
      rfl

/-- A definition that is declared without interfaces is new. -/
theorem run_declareDefinition (s : Store) {n : String} (hn : n ≠ "") {i : Option String}
    (hi : i ≠ some "") :
    ∃ t, (declareDefinition (.text n) (Value.optional i) (.list none [])).run s
        = (.ok s.definitions.next, t) ∧ s.Grows t ∧ t.containers = s.containers ∧
      t.Whole s.definitions.next ∧ t.held s.definitions.next = ⟨n, i, [], none, .empty⟩ := by
  have hdeclare : (DefinitionOf.declare (.text n) (Value.optional i) (.list none []) :
      Except Fault DefinitionCell) = .ok ⟨n, i, [], none, .empty⟩ := by
    unfold DefinitionOf.declare
    rw [Declaration.checkClassName_text_iff.mpr ⟨hn, rfl⟩]
    show (((DefinitionOf.checkIdentifier n (Value.optional i)).mapError _) >>= _ :
      Except Fault DefinitionCell) = _
    rw [Declaration.checkIdentifier_optional_iff.mpr ⟨hi, rfl⟩]
    rfl
  have hget : (s.definitions.add ⟨n, i, [], none, .empty⟩).get s.definitions.next
      = ⟨n, i, [], none, .empty⟩ := Cells.get_add_next _ _
  refine ⟨{ s with definitions := s.definitions.add ⟨n, i, [], none, .empty⟩ }, ?_,
    { Grows.refl s with definitions := Cells.extends_add _ _ }, rfl,
    ⟨Cells.holds_next _ _, fun q hq => ?_⟩, ?_⟩
  · unfold declareDefinition
    rw [hdeclare]
    rfl
  · rw [hget] at hq
    cases hq
  · unfold held
    rw [hget]
    rfl

/-! ### Definitions of declarations -/

variable {d : Declaration} {r : Ref ContainerCell} {b : Ref DefinitionCell} {k : DefinitionKey}
  {reference : String}

/-- Extends what a declaration refers to. -/
def extendBase (r : Ref ContainerCell) (d : Declaration) (reference : String) :
    Action (Ref DefinitionCell) :=
  extend r (.text (d.baseKey reference).1) (Value.optional (d.baseKey reference).2)
    (Value.optional d.identifier) (Value.optional d.className)

/-- A declaration with a base starts from the extended base. -/
theorem run_startDefinition_of_base (hbase : d.base = some reference)
    (h : (extendBase r d reference).run s = (.ok x, t)) :
    (startDefinition r d).run s = (.ok (x, d.interface.orElse fun _ =>
      if (d.baseKey reference).1 = "" then none else some (d.baseKey reference).1), t) := by
  have hmapped : (Work.mapFault (declaredIn d.source) (extendBase r d reference)).run s
      = (.ok x, t) := by
    rw [Work.run_mapFault, h]
    rfl
  unfold startDefinition
  rw [hbase]
  exact Work.run_bind_ok hmapped

/-- A declaration makes nothing if its base cannot be extended. -/
theorem run_createDefinition_of_error {f : Fault} (hbase : d.base = some reference)
    (h : (extendBase r d reference).run s = (.error f, t)) :
    (createDefinition r d).run s = (.error (declaredIn d.source f), t) := by
  have hmapped : (Work.mapFault (declaredIn d.source) (extendBase r d reference)).run s
      = (.error (declaredIn d.source f), t) := by
    rw [Work.run_mapFault, h]
    rfl
  have hstart : (startDefinition r d).run s = (.error (declaredIn d.source f), t) := by
    unfold startDefinition
    rw [hbase]
    exact Work.run_bind_error hmapped
  unfold createDefinition
  rw [Work.run_bind_error hstart]

/-- Behind what a declaration starts from, its calls are added and its interfaces are set. -/
theorem run_createDefinition_of_start {interface : Option String} (hread : d.IsRead)
    (hstart : (startDefinition r d).run s = (.ok (x, interface), t)) (hx : t.Whole x)
    (hne : interface ≠ some "") (hnone : interface = none → d.interface = none)
    (hclass : (t.held x).className = d.className.getD (t.held x).className) :
    ∃ u, (createDefinition r d).run s = (.ok x, u) ∧ Shapes x t u ∧ u.Whole x ∧
      "" ∉ d.targets interface (d.calls.foldl DefinitionOf.addCall (t.held x)).className ∧
      u.held x = { d.calls.foldl DefinitionOf.addCall (t.held x) with
        interfaces := (d.targets interface
          (d.calls.foldl DefinitionOf.addCall (t.held x)).className).eraseDups } := by
  obtain ⟨v, hcalls, hshapes, hxv, hview⟩ := run_addCalls d.calls t hx
    fun c hc => (hread.plain.call c hc).flat
  -- Calls leave the class alone, so it is still that of the declaration if it has one.
  have hsame : (d.calls.foldl DefinitionOf.addCall (t.held x)).className = (t.held x).className :=
    (Declaration.foldl_addCall d.calls (t.held x)).1
  have hnames : "" ∉ d.targets interface
      (d.calls.foldl DefinitionOf.addCall (t.held x)).className := by
    refine hread.targets_ne hne hnone fun hsome => ?_
    obtain ⟨n, hn⟩ := Option.isSome_iff_exists.mp hsome
    rw [hsame, hclass, hn]
    exact fun he => hread.plain.className_ne (he ▸ hn)
  obtain ⟨u, hset, hshapes', hxu, hview'⟩ := run_setInterfaces hxv hnames
  refine ⟨u, ?_, hshapes.trans hshapes', hxu, hnames, by rw [hview', hview]⟩
  have hcell : (v.definitions.get x).className
      = (d.calls.foldl DefinitionOf.addCall (t.held x)).className := by
    rw [← hview]
    rfl
  unfold createDefinition
  rw [Work.run_bind_ok hstart]
  dsimp only
  rw [Work.run_bind_ok hcalls, Work.run_bind_ok (run_read x v)]
  dsimp only [Stored.cells]
  rw [hcell, Work.run_bind_ok hset, Work.run_pure]

/-- A declaration that extends a definition which can be copied makes a definition of the copy. It
is the one that the declaration defines against any container with the copy for its base. -/
theorem run_createDefinition_of_base (hread : d.IsRead) (hkey : d.baseKey? = some k)
    (hfind : (s.containers.get r).find? k = some b) (hcopy : (copy b).run s = (.ok x, t))
    (hx : t.Whole x) :
    ∃ u, (createDefinition r d).run s = (.ok x, u) ∧ Shapes x t u ∧ u.Whole x ∧
      d.Overrides (t.held x) (u.held x) ∧
      ∀ c : Container Definition, c.find? k = some (t.held x) → d.define c = .ok (u.held x) := by
  obtain ⟨reference, hbase, rfl⟩ := Option.map_eq_some_iff.mp hkey
  have hplain := hread.plain
  obtain ⟨v, hextend, hshapes, hxv, hview⟩ :=
    run_extend hfind hcopy hx hplain.identifier_ne hplain.className_ne
  have hstart := run_startDefinition_of_base hbase hextend
  set interface := d.interface.orElse fun _ =>
    if (d.baseKey reference).1 = "" then none else some (d.baseKey reference).1 with hinterface
  obtain ⟨hne, hnone⟩ := hread.interface_ne (d.baseKey reference).1
  obtain ⟨u, hrun, hshapes', hxu, hnames, hheld⟩ := run_createDefinition_of_start hread hstart hxv
    hne hnone (by rw [hview]; cases d.className <;> rfl)
  refine ⟨u, hrun, hshapes.trans hshapes', hxu, ?_, fun c hc => ?_⟩
  · rw [hheld, hview]
    exact d.overrides_foldl_addCall (t.held x) _
  · refine Declaration.define_eq_ok_iff.mpr ⟨v.held x, interface, ?_, hnames, hheld⟩
    refine (Declaration.start_eq_ok_of_base hbase).mpr ⟨?_, hinterface⟩
    exact Declaration.extended_eq_ok_iff.mpr
      ⟨hplain.identifier_ne, hplain.className_ne, t.held x, hc, hview⟩

/-- A declaration that extends nothing makes a new definition, the one that it defines against any
container. -/
theorem run_createDefinition_of_no_base (hread : d.IsRead) (hkey : d.baseKey? = none)
    (s : Store) (r : Ref ContainerCell) :
    ∃ x u, (createDefinition r d).run s = (.ok x, u) ∧ s.Grows u ∧ u.containers = s.containers ∧
      ¬ s.definitions.Holds x ∧ u.Whole x ∧
      ∀ c : Container Definition, d.define c = .ok (u.held x) := by
  have hbase : d.base = none := Option.map_eq_none_iff.mp hkey
  have hplain := hread.plain
  obtain ⟨n, hn⟩ : ∃ n, d.className = some n := by
    cases hclass : d.className with
    | some n => exact ⟨n, rfl⟩
    | none =>
      have hsome := hplain.extending hclass
      rw [hbase] at hsome
      cases hsome
  have hne : n ≠ "" := fun he => hplain.className_ne (he ▸ hn)
  obtain ⟨v, hdeclare, hgrows, hcontainers, hv, hview⟩ :=
    run_declareDefinition s hne hplain.identifier_ne
  have hstart : (startDefinition r d).run s = (.ok (s.definitions.next, d.interface), v) := by
    unfold startDefinition
    rw [hbase, hn]
    exact Work.run_bind_ok hdeclare
  obtain ⟨u, hrun, hshapes, hxu, hnames, hheld⟩ := run_createDefinition_of_start hread hstart hv
    hplain.interface_ne id (by rw [hview, hn]; rfl)
  have hnew : ¬ s.definitions.Holds s.definitions.next := (Cells.Extends.refl _).not_holds_next
  refine ⟨_, u, hrun, hshapes.grows hgrows hnew, hshapes.containers.trans hcontainers, hnew, hxu,
    fun c => ?_⟩
  refine Declaration.define_eq_ok_iff.mpr ⟨v.held s.definitions.next, d.interface, ?_, hnames, hheld⟩
  exact (Declaration.start_eq_ok_of_no_base hbase).mpr
    ⟨hplain.identifier_ne, rfl, n, hn, hne, hview⟩

/-- A declaration whose base is not in the container makes nothing. -/
theorem run_createDefinition_of_absent (hkey : d.baseKey? = some k)
    (hfind : (s.containers.get r).find? k = none) :
    (createDefinition r d).run s
      = (.error (.notFoundIn d.source (.base k.interface k.identifier)), s) := by
  obtain ⟨reference, hbase, rfl⟩ := Option.map_eq_some_iff.mp hkey
  have hmissing : (baseOf r (.text (d.baseKey reference).1)
      (Value.optional (d.baseKey reference).2)).run s
      = (.error (.notFound (.base (d.baseKey reference).1 (d.baseKey reference).2)), s) := by
    rw [run_baseOf, hfind]
  have hextend : (extendBase r d reference).run s
      = (.error (.notFound (.base (d.baseKey reference).1 (d.baseKey reference).2)), s) := by
    unfold extendBase extend
    rw [Work.run_bind_error hmissing]
  exact run_createDefinition_of_error hbase hextend

/-- A declaration whose base cannot be copied makes nothing. -/
theorem run_createDefinition_of_not_canCopy (hkey : d.baseKey? = some k)
    (hfind : (s.containers.get r).find? k = some b) (h : ¬ s.CanCopy b) :
    (createDefinition r d).run s = (.error (.foreign .type), s) := by
  obtain ⟨reference, hbase, rfl⟩ := Option.map_eq_some_iff.mp hkey
  have hfound : (baseOf r (.text (d.baseKey reference).1)
      (Value.optional (d.baseKey reference).2)).run s = (.ok b, s) := by
    rw [run_baseOf, hfind]
  have hcopy : (copy b).run s = (.error (.foreign .type), s) := by
    rw [run_copy, if_neg]
    intro hempty
    refine h fun n hn => ?_
    rw [List.isEmpty_iff] at hempty
    exact List.not_mem_nil (hempty ▸ mem_componentsIn.mpr hn)
  have hextend : (extendBase r d reference).run s = (.error (.foreign .type), s) := by
    unfold extendBase extend
    rw [Work.run_bind_ok hfound, Work.run_bind_error hcopy]
  exact run_createDefinition_of_error hbase hextend

/-! ### What extending keeps -/

/-- A declaration that was read makes a definition of its base that keeps what the declaration does
not override. The base is taken as its copy holds it, which differs from the base in nothing but the
names of what the properties refer to, so not at all if they refer to nothing. The container and the
base stay as they are. -/
theorem createDefinition_overrides (hread : d.IsRead) (hkey : d.baseKey? = some k)
    (hfind : (s.containers.get r).find? k = some b) (hb : s.Whole b) (hcan : s.CanCopy b) :
    ∃ x t, (createDefinition r d).run s = (.ok x, t) ∧
      d.Overrides ((s.held b).mapArguments (Argument.renamed (s.newName (s.reachable b))))
        (t.held x) ∧
      ((s.held b).IsClosed → d.Overrides (s.held b) (t.held x)) ∧
      ¬ s.definitions.Holds x ∧ t.Whole x ∧
      t.containers.get r = s.containers.get r ∧ t.definitions.get b = s.definitions.get b ∧
      t.held b = s.held b ∧ s.collections <+: t.collections ∧ s.Grows t := by
  have hcopy := hcan.run_copy
  obtain ⟨hgrows, hcollections, hnew, hwhole, hview⟩ := copy_eq_ok hb hcopy
  obtain ⟨t, hrun, hshapes, hx, hoverrides, -⟩ :=
    run_createDefinition_of_base hread hkey hfind hcopy hwhole
  have hgrows' := hshapes.grows hgrows hnew
  -- A cell that is not there holds no entries, so the container is there.
  have hr : s.containers.Holds r := by
    by_contra hr
    have hdefault : s.containers.get r = default := by
      unfold Cells.get
      rw [List.getElem?_eq_none (Nat.le_of_not_lt hr)]
      rfl
    rw [hdefault] at hfind
    cases hfind
  rw [hview] at hoverrides
  refine ⟨_, t, hrun, hoverrides, fun hclosed => ?_, hnew, hx, hgrows'.containers.get hr,
    hgrows'.definitions.get hb.definition, (hb.grows hgrows').2, ?_, hgrows'⟩
  · rw [hclosed.renamed] at hoverrides
    exact hoverrides
  · rw [hshapes.collections]
    exact hcollections

/-- The definitions of a sound store have all their parts. -/
theorem Sound.whole (h : s.Sound) (hx : s.definitions.Holds x) : s.Whole x := by
  have hsound := h.definition.get hx
  have hcall : ∀ q, s.calls.Holds q → s.WholeCall q :=
    fun q hq => ⟨hq, (h.call.get hq).arguments⟩
  refine ⟨hx, fun q hq => ?_⟩
  rcases List.mem_append.mp hq with hq | hq
  · exact hcall q (hsound.constructor_call q (Option.mem_toList.mp hq)).1
  · obtain ⟨e, he, rfl⟩ := List.mem_map.mp hq
    exact hcall e.2 (hsound.call e he).1

/-- A declaration that extends a logger. It names one of its calls and adds another one. -/
def verboseLogger : Declaration :=
  ⟨some "Log", none, some "verbose", some "Log#", [],
    [⟨"setMode", some "mode", []⟩, ⟨"flush", none, []⟩], "a.xml"⟩

theorem isRead_verboseLogger : verboseLogger.IsRead :=
  ⟨"a.xml", .mk "dependency" [("interface", "Log"), ("id", "verbose"), ("extends", "Log#")]
    [.mk "call" [("method", "setMode"), ("id", "mode")] [], .mk "call" [("method", "flush")] []],
    [verboseLogger], rfl, List.mem_singleton.mpr rfl⟩

/-- The logger with another mode, and with one call more. -/
theorem createDefinition_overrides_logger :
    ∃ x t, (createDefinition ⟨0⟩ verboseLogger).run loggerStore = (.ok x, t) ∧
      verboseLogger.Overrides (loggerStore.held ⟨0⟩) (t.held x) ∧
      t.held ⟨0⟩ = loggerStore.held ⟨0⟩ := by
  have hclosed : (loggerStore.held ⟨0⟩).IsClosed := by
    unfold DefinitionOf.IsClosed
    decide +kernel
  obtain ⟨x, t, hrun, -, hoverrides, -, -, -, -, hbase, -, -⟩ :=
    createDefinition_overrides isRead_verboseLogger (k := ⟨"Log", none⟩) rfl (r := ⟨0⟩)
      (s := loggerStore) (b := ⟨0⟩) (by decide +kernel)
      (declared_loggerStore.sound.whole Nat.zero_lt_one) (canCopy_of_isClosed hclosed)
  exact ⟨x, t, hrun, hoverrides hclosed, hbase⟩

/-- A logger that is constructed with a source behind a snapshot file. -/
def lockedSteps : List Declaring :=
  [.argument (.text "io") (.text "scalar") [(.text "value", .component ⟨.cachedSource, 0⟩ [])],
    .call (.text "__construct") .null [⟨0⟩],
    .definition (.text "app.Logger") .null (.list none [.text "Log"]), .addCall ⟨0⟩ ⟨0⟩, .container,
    .add ⟨0⟩ .null ⟨0⟩]

/-- The store that these steps lead to, once the source is there. -/
def lockedStore : Store :=
  lockedSteps.foldl (fun s a => (ExceptT.run a.run s).2)
    ((do
      let browser ← makeBrowser .null .null
      make (Source.cached
        (.files browser ⟨none, Overlay.defaultFileName, Overlay.defaultDirectory⟩)
        ⟨"", ["cache.json"]⟩) : Action (Ref Source)).run (Store.empty default)).2

/-- The locked logger is there, but it cannot be extended, because its source cannot be copied. -/
theorem createDefinition_locked :
    verboseLogger.IsRead ∧ verboseLogger.baseKey? = some ⟨"Log", none⟩ ∧
      (lockedStore.containers.get ⟨0⟩).find? ⟨"Log", none⟩ = some ⟨0⟩ ∧
      (createDefinition ⟨0⟩ verboseLogger).run lockedStore
        = (.error (.foreign .type), lockedStore) := by
  have hfind : (lockedStore.containers.get ⟨0⟩).find? ⟨"Log", none⟩ = some ⟨0⟩ := by decide +kernel
  have hlocked : Node.component ⟨.cachedSource, 0⟩ ∈ lockedStore.reachable ⟨0⟩ := by decide +kernel
  exact ⟨isRead_verboseLogger, rfl, hfind,
    run_createDefinition_of_not_canCopy rfl hfind fun hcan => hcan 0 hlocked⟩

end Store

end Wiring
