import Wiring.Proofs.Contexts
import Wiring.Proofs.Dependencies

/-!
# `Wiring.Proofs.Rewiring`: definitions that spell out their dependencies

A definition may leave it to the parameters of a constructor or of a method to request what they
want, or it may spell this out. `Store.Rewired` says of two injectors that their containers hold the
same definitions up to that: a call of the one may spell out what the other one leaves to the
parameters, in either direction. `request_rewired` says that they answer alike.

The calls after the construction are looked up on the object that was made. What they take is told
by the class of this object, which `classOf_constructDefined` finds to be that of the definition.

A dependency that is spelled out is requested before the parameters request anything, so none of
them may be passed over. `spellingStore_differs` shows what comes of it otherwise.
-/

set_option autoImplicit false

namespace Wiring

open Work Store

/-! ### The class of what is constructed -/

section Constructed

variable {ε α β : Type}

/-- What holds of the answers of work and of the stores that it leaves behind. -/
def Work.Ensures (P : α → Store → Prop) (w : Work ε α) : Prop :=
  ∀ s a t, w.run s = (.ok a, t) → P a t

variable {P : α → Store → Prop}

theorem ensures_pure {a : α} (h : ∀ s, P a s) : Ensures P (pure a : Work ε α) := by
  intro s b t hrun
  cases hrun
  exact h s

theorem ensures_throw (e : ε) : Ensures P (throw e : Work ε α) := by
  intro s b t hrun
  cases hrun

theorem ensures_foreign (k : ForeignKind) : Ensures P (foreign k : Action α) :=
  ensures_throw (Fault.foreign k)

/-- The last piece of work counts. -/
theorem ensures_bind {P : β → Store → Prop} {w : Work ε α} {f : α → Work ε β}
    (h : ∀ a, Ensures P (f a)) : Ensures P (w >>= f) := by
  intro s b t hrun
  obtain ⟨a, u, -, hlast⟩ := Work.bind_eq_ok hrun
  exact h a u b t hlast

/-- The value has a class from then on. -/
def Store.Stays (c : ClassRef) (v : Value) (s : Store) : Prop :=
  ∀ t, s.Grows t → t.classOf v = c

/-- A new object keeps its class. -/
theorem ensures_addObject (o : Object) :
    Ensures (Stays o.cls) (do pure (.object (← addObject o)) : Action Value) := by
  intro s v t hrun u hu
  cases hrun
  have ho : (s.objects ++ [o])[s.objects.length]? = some o := by simp
  obtain ⟨o', ho', hkept⟩ := hu.object ho
  show ((u.objects[s.objects.length]?).map Object.cls).getD _ = o.cls
  rw [ho']
  exact (Prod.mk.inj hkept).1

theorem ensures_makeComponent (kind : ComponentKind) (arg : String → Value) :
    Ensures (Stays (.component kind)) (makeComponent kind arg) := by
  unfold makeComponent
  cases kind
  all_goals
    dsimp only
    repeat' first
      | exact ensures_pure fun _ _ _ => rfl
      | refine ensures_bind fun _ => ?_
      | split

theorem ensures_settle_list (items : List Value) :
    Ensures (Stays (.builtin .list)) (settle (.list none items) : Action Value) := by
  unfold settle
  exact ensures_bind fun _ => ensures_bind fun _ => ensures_pure fun _ _ _ => rfl

theorem ensures_settle_map (entries : List (Value × Value)) :
    Ensures (Stays (.builtin .mapping)) (settle (.map none entries) : Action Value) := by
  unfold settle
  exact ensures_bind fun _ => ensures_bind fun _ => ensures_pure fun _ _ _ => rfl

theorem ensures_makeText (named : List (String × Value)) :
    Ensures (Stays (.builtin .text)) (makeText named) := by
  unfold makeText
  dsimp only
  repeat' first
    | exact ensures_pure fun _ _ _ => rfl
    | exact ensures_foreign _
    | refine ensures_bind fun _ => ?_
    | split

theorem ensures_constructBuiltin (b : BuiltinClass) (passed : Passed) :
    Ensures (Stays (.builtin b)) (constructBuiltin b passed) := by
  unfold constructBuiltin
  split
  · exact ensures_settle_map _
  · exact ensures_makeText _
  · exact ensures_bind fun _ => ensures_settle_list _
  · exact ensures_settle_list _
  all_goals first
    | exact ensures_pure fun _ _ _ => rfl
    | exact ensures_addObject _
    | exact ensures_foreign _

/-- What a class constructs is of this class. -/
theorem ensures_construct (c : ClassRef) (passed : Passed) :
    Ensures (Stays c) (construct c passed) := by
  unfold construct
  refine ensures_bind fun s => ?_
  dsimp only
  cases c with
  | builtin b => exact ensures_constructBuiltin b passed
  | component k => exact ensures_bind fun _ => ensures_bind fun _ => ensures_makeComponent k _
  | outside m n => exact ensures_foreign _
  | declared i =>
    dsimp only
    split
    · exact ensures_bind fun _ => ensures_bind fun _ => ensures_bind fun _ => ensures_addObject _
    · exact ensures_bind fun _ => ensures_addObject _

end Constructed

/-! ### Rewired definitions -/

/-- What can be called under a name on the values of a class takes some parameters. -/
def Program.Takes (p : Program) (c : ClassRef) (method : String) (params : List Param) : Prop :=
  ∀ (s : Store) (v : Value) (callback : Callable), s.program = p → s.classOf v = c →
    ((valueAttribute v method).run s).1 = .ok (.callable callback) →
    callback.params? p = some params

/-- A method that a class of the program declares takes its own parameters. -/
theorem Program.takes_of_declared {p : Program} {i : Nat} {name owner : String} {m : Method}
    (h : p.declared? (.declared i) name = some (owner, .method m)) :
    p.Takes (.declared i) name m.routine.params := by
  intro s v callback hp hv hfound
  unfold valueAttribute at hfound
  rw [run_bind_ok (run_get s)] at hfound
  dsimp only at hfound
  rw [hp, hv, h] at hfound
  cases v with
  | object id =>
    cases hfound
    split <;> rfl
  | _ => cases hv

/-- Two lists of arguments are the same, or one of them spells out what the other one leaves to the
parameters. -/
def Rearranged (strict : Prop) (g : Registry) (p : Program) (takes : List Param → Prop)
    (declared declared' : List Argument) : Prop :=
  declared' = declared ∨ ∃ params, takes params ∧
    (Spelled strict g p params declared declared' ∨ Spelled strict g p params declared' declared)

/-- Two definitions from which the same is built, though dependencies may be spelled out in one of
them only, at the constructor and at each of the calls. -/
structure Definition.Rewired (strict : Prop) (g : Registry) (p : Program) (x y : Definition) :
    Prop where
  className : y.className = x.className
  identifier : y.identifier = x.identifier
  constructor : Rearranged strict g p (fun params => ∃ c, g.class? (.text x.className) = .ok c ∧
    Callable.params? p (.construct c) = some params) x.constructorArguments y.constructorArguments
  calls : List.Forall₂ (fun q q' => q'.method = q.method ∧
    Rearranged strict g p (fun params => ∃ c, g.class? (.text x.className) = .ok c ∧
      p.Takes c q.method params) q.arguments q'.arguments) x.callList y.callList

theorem Definition.Rewired.refl (strict : Prop) (g : Registry) (p : Program) (x : Definition) :
    Definition.Rewired strict g p x x :=
  ⟨rfl, rfl, .inl rfl, List.forall₂_same.mpr fun _ _ => ⟨rfl, .inl rfl⟩⟩

theorem Rearranged.symm {strict : Prop} {g : Registry} {p : Program} {takes : List Param → Prop}
    {declared declared' : List Argument} (h : Rearranged strict g p takes declared declared') :
    Rearranged strict g p takes declared' declared := by
  rcases h with h | ⟨params, hparams, h⟩
  · exact .inl h.symm
  · exact .inr ⟨params, hparams, h.symm⟩

theorem Definition.Rewired.symm {strict : Prop} {g : Registry} {p : Program} {x y : Definition}
    (h : Definition.Rewired strict g p x y) : Definition.Rewired strict g p y x where
  className := h.className.symm
  identifier := h.identifier.symm
  constructor := by
    rw [h.className]
    exact h.constructor.symm
  calls := by
    refine h.calls.flip.imp fun q' q hq => ⟨hq.1.symm, ?_⟩
    rw [h.className, hq.1]
    exact hq.2.symm

/-- A container of which all definitions are there, with what they hold. -/
structure Store.Carries (s : Store) (k : Ref ContainerCell) (c : Container Definition) : Prop where
  held : s.containers.Holds k
  whole : ∀ e ∈ (s.containers.get k).entries, s.Whole e.2
  view : (s.containers.get k).map s.held = c

/-- Two injectors that differ in their containers only. These hold definitions under the same keys
that are rewired, one by one. -/
structure Store.Rewired (strict : Prop) (s : Store) (r r' : Ref Injector)
    (c : Container (Definition × Definition)) : Prop where
  injecting : s.Injecting r
  held : s.injectors.Holds r'
  alike : (s.injectors.get r).Alike (s.injectors.get r')
  carries : s.Carries (s.injectors.get r).container (c.map Prod.fst)
  carries' : s.Carries (s.injectors.get r').container (c.map Prod.snd)
  rewired : ∀ e ∈ c.entries,
    Definition.Rewired strict (s.registryOf r) s.program e.2.1 e.2.2

section Grown

variable {strict : Prop} {s₀ s : Store} {r r' : Ref Injector} {k : Ref ContainerCell}
  {c : Container (Definition × Definition)}

theorem Store.Carries.grown {c : Container Definition} (h : s₀.Carries k c) (hs : s₀.Grows s) :
    s.Carries k c := by
  have hget := hs.containers.get h.held
  refine ⟨hs.containers.holds h.held, fun e he => ?_, ?_⟩
  · rw [hget] at he
    exact ((h.whole e he).grows hs).1
  · rw [hget, ← h.view, Container.map_congr fun e he => ((h.whole e he).grows hs).2]

theorem Store.Carries.stocked {c : Container Definition} (hr : s.injectors.Holds r)
    (h : s.Carries (s.injectors.get r).container c) : s.Stocked r :=
  ⟨hr, h.held, fun k d hd => (h.whole (k, d) (Container.mem_entries_iff.mpr hd)).definition⟩

/-- Containers that hold definitions under the same keys, with the same identifiers, select two
that stand under one key. -/
theorem Store.Carries.selected (h : s₀.Carries (s₀.injectors.get r).container (c.map Prod.fst))
    (h' : s₀.Carries (s₀.injectors.get r').container (c.map Prod.snd))
    (hr : s₀.injectors.Holds r) (hr' : s₀.injectors.Holds r')
    (hidentifier : ∀ e ∈ c.entries, e.2.2.identifier = e.2.1.identifier) (hs : s₀.Grows s)
    (q : Request) (key : DefinitionKey) :
    Except.Alike (fun d d' => s₀.Whole d ∧ s₀.Whole d' ∧
      ∃ k, (k, s₀.held d, s₀.held d') ∈ c.entries) (s.selected r q key) (s.selected r' q key) := by
  have hview : ∀ {r : Ref Injector} {f : Definition × Definition → Definition},
      s₀.injectors.Holds r → s₀.Carries (s₀.injectors.get r).container (c.map f) →
      (s.selected r q key).map s.held
        = (Selection.select (DefinitionOf.identifier ∘ f) c key q.exclude q.building).map f :=
    fun {r f} hr hc => by
      have hgrown := hc.grown hs
      rw [← hs.injectors.get hr] at hgrown
      rw [← Selection.select_map, ← hgrown.view]
      exact (Selection.select_map s.held DefinitionOf.identifier _ _ _ _).symm
  have hsame : Selection.select (DefinitionOf.identifier ∘ Prod.snd) c key q.exclude q.building
      = Selection.select (DefinitionOf.identifier ∘ Prod.fst) c key q.exclude q.building :=
    Selection.select_congr
      (fun k e he => hidentifier (k, e) (Container.mem_entries_iff.mpr he)) key _ _
  have hselected := hview hr' h'
  rw [hsame] at hselected
  -- Each of the two is compared with what is selected among the pairs.
  have hleft := Except.alike_of_map (hview hr h).symm (R := fun e d =>
      (∃ k, c.find? k = some e) ∧ s₀.Whole d ∧ e.1 = s₀.held d) fun e d he hd hshown => by
    obtain ⟨k, hentry⟩ := entry_of_selected hd
    obtain ⟨i, hfound, -⟩ := Selection.find?_of_select he
    rw [hs.injectors.get hr, hs.containers.get h.held] at hentry
    have hwhole := h.whole _ hentry
    exact ⟨⟨i, hfound⟩, hwhole, hshown.trans (hwhole.grows hs).2⟩
  have hright := Except.alike_of_map hselected.symm (R := fun e d =>
      s₀.Whole d ∧ e.2 = s₀.held d) fun e d _ hd hshown => by
    obtain ⟨k, hentry⟩ := entry_of_selected hd
    rw [hs.injectors.get hr', hs.containers.get h'.held] at hentry
    have hwhole := h'.whole _ hentry
    exact ⟨hwhole, hshown.trans (hwhole.grows hs).2⟩
  refine (hleft.along hright).mono fun d d' hboth => ?_
  obtain ⟨e, ⟨⟨k, hfound⟩, hd, hx⟩, hd', hy⟩ := hboth
  rw [← hx, ← hy]
  exact ⟨hd, hd', k, Container.mem_entries_iff.mpr hfound⟩

namespace Store.Rewired

variable (h : s₀.Rewired strict r r' c)

include h

theorem registryOf : s₀.registryOf r' = s₀.registryOf r := by
  unfold Store.registryOf
  rw [h.alike.registry]

theorem symm : s₀.Rewired strict r' r (c.map Prod.swap) where
  injecting := by
    refine ⟨h.held, ?_, by rw [h.registryOf]; exact h.injecting.named, ?_⟩
    · rw [h.alike.registry]
      exact h.injecting.registered
    · rw [h.alike.parsers]
      exact h.injecting.parser
  held := h.injecting.held
  alike := ⟨h.alike.registry.symm, h.alike.config.symm, h.alike.parsers.symm,
    h.alike.instances.symm⟩
  carries := by
    rw [Container.map_map]
    exact h.carries'
  carries' := by
    rw [Container.map_map]
    exact h.carries
  rewired e he := by
    rw [h.registryOf]
    obtain ⟨key, x, y⟩ := e
    have hmem : (key, y, x) ∈ c.entries := by
      rw [Container.mem_entries_iff, Container.find?_map] at he
      obtain ⟨⟨y', x'⟩, hfound, hswap⟩ := Option.map_eq_some_iff.mp he
      cases hswap
      exact Container.mem_entries_iff.mpr hfound
    exact (h.rewired _ hmem).symm

/-- Injectors stay rewired when the store grows. -/
theorem grown (hs : s₀.Grows s) : s.Rewired strict r r' c := by
  have hr := hs.injectors.get h.injecting.held
  have hr' := hs.injectors.get h.held
  refine ⟨h.injecting.grown hs, hs.injectors.holds h.held, ?_, ?_, ?_, ?_⟩
  · rw [hr, hr']
    exact h.alike
  · rw [hr]
    exact h.carries.grown hs
  · rw [hr']
    exact h.carries'.grown hs
  · rw [h.injecting.registryOf hs, hs.program]
    exact h.rewired

/-- What the two injectors select is rewired. -/
theorem selected (hs : s₀.Grows s) (q : Request) (key : DefinitionKey) :
    Except.Alike (fun d d' => s₀.Whole d ∧ s₀.Whole d' ∧
      Definition.Rewired strict (s₀.registryOf r) s₀.program (s₀.held d) (s₀.held d'))
      (s.selected r q key) (s.selected r' q key) :=
  (h.carries.selected h.carries' h.injecting.held h.held
    (fun e he => (h.rewired e he).identifier) hs q key).mono
    fun _ _ ⟨hd, hd', _, hentry⟩ => ⟨hd, hd', h.rewired _ hentry⟩

end Store.Rewired

end Grown

/-! ### Rewired builds -/

/-- What is constructed when the values of the declared arguments are found. -/
def constructWith (answer : Answering) (r : Ref Injector) (b : Exclusions)
    (d : Ref DefinitionCell) (found : List (String × Value)) : Work Failure Value := do
  let s ← get
  (s.registryOf r).create s.program (.text (s.definitions.get d).className) found
    (some (injection answer r b))

/-- What is called when the values of the declared arguments are found. -/
def callWith (answer : Answering) (r : Ref Injector) (b : Exclusions) (c : Callable)
    (found : List (String × Value)) : Work Failure Unit := do
  let s ← get
  let passed ← (s.registryOf r).bind s.program c found (some (injection answer r b))
  let _ ← Work.mapFault .plain (invoke answer c passed)

section Building

variable {strict : Prop} {s₀ s t : Store} {g : Registry} {r r' : Ref Injector}
  {answer answer' : Answering} {b : Exclusions} {O : List DefinitionKey} {d d' : Ref DefinitionCell}
  {c : ClassRef} {callback : Callable}

theorem constructFrom_eq (cells : List (Ref Argument)) : constructFrom answer r b d [] cells
    = argumentValues answer r b [] cells >>= constructWith answer r b d := rfl

theorem callFrom_eq_callWith (cells : List (Ref Argument)) : callFrom answer r b callback cells
    = argumentValues answer r b [] cells >>= callWith answer r b callback := rfl

theorem disturbed_constructWith {C : Comparison}
    (ha : Conforming C (fun _ => False) O b answer answer r r) (found : List (String × Value)) :
    Conforms C (fun _ => False) O O (constructWith answer r b d found)
      (constructWith answer r b d found) :=
  conforms_get_registry ha (fun _ _ _ => rfl) fun s registry =>
    conforms_create (conforms_injection ha) registry s.program _ found

theorem disturbed_callWith (callback : Callable) {C : Comparison}
    (ha : Conforming C (fun _ => False) O b answer answer r r) (found : List (String × Value)) :
    Conforms C (fun _ => False) O O (callWith answer r b callback found)
      (callWith answer r b callback found) :=
  conforms_get_registry ha (fun _ _ _ => rfl) fun s registry =>
    (conforms_bind (conforms_injection ha) registry s.program callback found).bind fun passed =>
      conforms_calling answer answer callback passed

theorem Store.Whole.className (h : s₀.Whole d) (hs : s₀.Grows s) :
    (s.definitions.get d).className = (s₀.held d).className :=
  congrArg DefinitionOf.className (hs.definitions.get h.definition)

/-- The arguments of the constructor are there, and their cells hold what the definition holds. -/
theorem Store.Whole.constructorCells (h : s₀.Whole d) (hs : s₀.Grows s) :
    s.constructorCells d = s₀.constructorCells d ∧
      (∀ a ∈ s₀.constructorCells d, s₀.arguments.Holds a) ∧
      (s₀.constructorCells d).map s₀.arguments.get = (s₀.held d).constructorArguments := by
  have hheld : (s₀.held d).constructor = (s₀.definitions.get d).constructor.map s₀.heldCall := rfl
  unfold Store.constructorCells DefinitionOf.constructorArguments
  rw [hs.definitions.get h.definition, hheld]
  cases hc : (s₀.definitions.get d).constructor with
  | none => exact ⟨rfl, fun _ ha => absurd ha List.not_mem_nil, rfl⟩
  | some q =>
    have hq : s₀.WholeCall q := h.call q (by simp [DefinitionOf.parts, hc])
    exact ⟨congrArg CallOf.arguments (hs.calls.get hq.call), hq.argument, rfl⟩

/-- Constructing binds the arguments to the constructor of a class that is registered. -/
theorem binds_constructWith {C : Comparison} {I : Store → Prop}
    (hC : C.disturbs = JournalEntry.disturbs) (ha : Conforming C I O b answer answer' r r')
    (hg : ∀ s, s₀.Grows s → s.registryOf r = g) (hd : s₀.Whole d)
    (hclass : g.class? (.text (s₀.held d).className) = .ok c) :
    Binds s₀ g r answer b (.construct c) (constructWith answer r b d)
      fun passed => Work.mapFault .plain (running (.construct c) (construct c passed)) where
  run found s hs := by
    unfold constructWith
    rw [run_bind_ok (run_get s), hg s hs, hd.className hs, hs.program]
    unfold Registry.create
    rw [hclass]
    exact run_bind_ok (run_lift _ s)
  disturbed found := by
    have hself : Conforming C (fun _ => False) O b answer answer r r := ha.disturbance
    have hdisturbed := (disturbed_constructWith (d := d) hself found).disturbed
    unfold Comparison.Undisturbed at hdisturbed
    rw [hC] at hdisturbed
    exact hdisturbed

/-- What is constructed is of the class of the definition. -/
theorem classOf_constructDefined (hr : s₀.Injecting r)
    (hself : Conforming (.same True) s₀.Grows O b answer answer r r) (hd : s₀.Whole d)
    (hs : s₀.Grows s) (hO : underConstruction s.journal = O) {object : Value}
    (hrun : (constructDefined answer r b d []).run s = (.ok object, t))
    (hu : Undisturbed t.journal) : ∃ c,
      (s₀.registryOf r).class? (.text (s₀.held d).className) = .ok c ∧
        ∀ u, t.Grows u → u.classOf object = c := by
  rw [constructDefined_eq, run_bind_ok (run_get s), constructFrom_eq] at hrun
  obtain ⟨found, u, hfound, hcreate⟩ := Work.bind_eq_ok hrun
  have hvalues : Agrees s₀.Grows O (argumentValues answer r b [] (s.constructorCells d))
      (argumentValues answer r b [] (s.constructorCells d)) :=
    conforms_argumentValues hself [] (List.forall₂_same.mpr fun _ _ => argumentTwins_refl _)
  have hgrows : s₀.Grows u := by
    refine hvalues.halfway (f := constructWith answer r b d) (fun _ => rfl)
      (disturbed_constructWith hself.disturbance found) hs hO hfound ?_
    rw [hrun]
    exact hu
  unfold constructWith at hcreate
  rw [run_bind_ok (run_get u), hr.registryOf hgrows, hd.className hgrows] at hcreate
  obtain ⟨c, u', hc, hbind⟩ := Work.bind_eq_ok hcreate
  obtain ⟨passed, v, -, hconstruct⟩ := Work.bind_eq_ok hbind
  obtain ⟨hclass, -⟩ := Prod.mk.inj hc
  refine ⟨c, Except.mapError_eq_ok.mp hclass, ?_⟩
  rw [run_mapFault] at hconstruct
  cases hbuilt : (construct c passed).run
      { v with journal := .ran (.construct c) :: v.journal } with
  | mk x w =>
    rw [run_running hbuilt] at hconstruct
    obtain ⟨hx, rfl⟩ := Prod.mk.inj hconstruct
    obtain rfl := Except.mapError_eq_ok.mp hx
    exact fun u hu => ensures_construct c passed _ _ _ hbuilt u { hu with }

/-- Calling binds the arguments to what is called. -/
theorem binds_callWith {C : Comparison} {I : Store → Prop}
    (hC : C.disturbs = JournalEntry.disturbs) (ha : Conforming C I O b answer answer' r r')
    (hg : ∀ s, s₀.Grows s → s.registryOf r = g) :
    Binds s₀ g r answer b callback (callWith answer r b callback)
      fun passed => Work.mapFault .plain (invoke answer callback passed) >>= fun _ => pure () where
  run found s hs := by
    unfold callWith
    rw [run_bind_ok (run_get s), hg s hs, hs.program]
  disturbed found := by
    have hself : Conforming C (fun _ => False) O b answer answer r r := ha.disturbance
    have hdisturbed := (disturbed_callWith callback hself found).disturbed
    unfold Comparison.Undisturbed at hdisturbed
    rw [hC] at hdisturbed
    exact hdisturbed

/-- Definitions that are there keep their names. -/
theorem definitionNames_of_held (hd : s₀.Whole d) (hd' : s₀.Whole d')
    (hclass : (s₀.held d').className = (s₀.held d).className)
    (hidentifier : (s₀.held d').identifier = (s₀.held d).identifier) :
    DefinitionNames s₀.Grows d d' where
  className s hs := by
    rw [hd.className hs, hd'.className hs]
    exact hclass
  identifier s hs := by
    rw [hs.definitions.get hd.definition, hs.definitions.get hd'.definition]
    exact hidentifier

theorem definitionNames_rewired (hd : s₀.Whole d) (hd' : s₀.Whole d')
    (h : Definition.Rewired strict g s₀.program (s₀.held d) (s₀.held d')) :
    DefinitionNames s₀.Grows d d' :=
  definitionNames_of_held hd hd' h.className h.identifier

variable (hr : s₀.Injecting r) (hg : ∀ s, s₀.Grows s → s.registryOf r' = s₀.registryOf r)
  (hself : Conforming (.same True) s₀.Grows O b answer answer r r)
  (ha : Conforming (.unnumbered strict) s₀.Grows O b answer answer' r r')
  (hb : Conforming (.unnumbered strict) (fun _ => False) O b answer' answer' r' r')

include hr hg hself ha hb

/-- Objects of rewired definitions are constructed alike. -/
theorem conforms_constructDefined_rewired (hd : s₀.Whole d) (hd' : s₀.Whole d')
    (h : Definition.Rewired strict (s₀.registryOf r) s₀.program (s₀.held d) (s₀.held d')) :
    Conforms (.unnumbered strict) s₀.Grows O O (constructDefined answer r b d [])
      (constructDefined answer' r' b d' []) := by
  have hnames := definitionNames_rewired hd hd' h
  rw [constructDefined_eq, constructDefined_eq]
  refine conforms_get_bind_of (fun _ _ => rfl)
    (fun s => conforms_constructFrom ha.disturbance (definitionTwins_refl d).names []
      (List.forall₂_same.mpr fun _ _ => argumentTwins_refl _))
    fun s hs => ?_
  obtain ⟨hcells, hheld, hargs⟩ := hd.constructorCells hs
  obtain ⟨hcells', hheld', hargs'⟩ := hd'.constructorCells hs
  rw [hcells, hcells']
  have hrearranged := h.constructor
  rw [← hargs, ← hargs'] at hrearranged
  rcases hrearranged with hsame | ⟨params, ⟨c, hclass, hparams⟩, hspelled⟩
  · exact conforms_constructFrom ha hnames [] (forall₂_argumentTwins hheld hheld' hsame.symm)
  · rw [constructFrom_eq, constructFrom_eq]
    have hclass' : (s₀.registryOf r).class? (.text (s₀.held d').className) = .ok c := by
      rw [h.className]
      exact hclass
    exact conforms_spelled ha (binds_constructWith rfl ha (fun _ => hr.registryOf) hd hclass)
      (binds_constructWith rfl hb hg hd' hclass')
      (conforms_constructing c) hr hself (conforms_constructing c) hparams hheld hheld' hspelled

/-- What is called on an object is called alike with rearranged arguments, if it takes the
parameters that they are for. -/
theorem conforms_callFrom_rewired {takes : List Param → Prop} {q q' : Ref CallCell}
    (hq : s₀.WholeCall q) (hq' : s₀.WholeCall q')
    (h : Rearranged strict (s₀.registryOf r) s₀.program takes (s₀.heldCall q).arguments
      (s₀.heldCall q').arguments)
    (htakes : ∀ params, takes params → callback.params? s₀.program = some params)
    (hs : s₀.Grows s) :
    Conforms (.unnumbered strict) s₀.Grows O O
      (callFrom answer r b callback (s.calls.get q).arguments)
      (callFrom answer' r' b callback (s.calls.get q').arguments) := by
  rw [hs.calls.get hq.call, hs.calls.get hq'.call]
  rcases h with hsame | ⟨params, hparams, hspelled⟩
  · exact conforms_callFrom ha callback (forall₂_argumentTwins hq.argument hq'.argument hsame.symm)
  · rw [callFrom_eq_callWith, callFrom_eq_callWith]
    exact conforms_spelled ha (binds_callWith rfl ha fun _ => hr.registryOf)
      (binds_callWith rfl hb hg)
      (conforms_calling answer answer' callback) hr hself (conforms_calling answer answer callback)
      (htakes params hparams) hq.argument hq'.argument hspelled

/-- The calls of rewired definitions do the same on an object of their class. -/
theorem conforms_runDefinedCall_rewired (hd : s₀.Whole d) (hd' : s₀.Whole d')
    (h : Definition.Rewired strict (s₀.registryOf r) s₀.program (s₀.held d) (s₀.held d'))
    {object : Value} (hclass : (s₀.registryOf r).class? (.text (s₀.held d).className) = .ok c)
    (hobject : ∀ s, s₀.Grows s → s.classOf object = c) {q q' : Ref CallCell}
    (hq : s₀.WholeCall q) (hq' : s₀.WholeCall q')
    (hmethod : (s₀.heldCall q').method = (s₀.heldCall q).method)
    (harguments : Rearranged strict (s₀.registryOf r) s₀.program (fun params => ∃ c,
      (s₀.registryOf r).class? (.text (s₀.held d).className) = .ok c ∧
        s₀.program.Takes c (s₀.heldCall q).method params) (s₀.heldCall q).arguments
      (s₀.heldCall q').arguments) :
    Conforms (.unnumbered strict) s₀.Grows O O (runDefinedCall answer r b d object q)
      (runDefinedCall answer' r' b d' object q') := by
  refine conforms_runDefinedCall_of ha (definitionNames_rewired hd hd' h) object (fun s hs => ?_)
    fun s t callback hs ht hfound u hu => ?_
  · rw [hs.calls.get hq.call, hs.calls.get hq'.call]
    exact hmethod
  · refine conforms_callFrom_rewired hr hg hself ha hb hq hq' harguments
      (fun params htakes => ?_) hu
    obtain ⟨c', hclass', htakes⟩ := htakes
    rw [hclass] at hclass'
    cases hclass'
    rw [hs.calls.get hq.call] at hfound
    exact htakes t object callback ht.program (hobject t ht) hfound

end Building

/-! ### Rewired answers -/

section Answers

variable {strict : Prop} {s₀ s : Store} {r r' : Ref Injector} {answer answer' : Answering}
  {b : Exclusions} {O : List DefinitionKey} {d d' : Ref DefinitionCell} {k : DefinitionKey}
  {interface : String} {container : Container (Definition × Definition)}

/-- The calls of a definition are there, and their cells hold what the definition holds. -/
theorem Store.Whole.callList (h : s₀.Whole d) :
    (s₀.held d).callList = (s₀.definitions.get d).callList.map s₀.heldCall ∧
      ∀ q ∈ (s₀.definitions.get d).callList, s₀.WholeCall q := by
  refine ⟨?_, fun q hq => h.call q (List.mem_append_right _ hq)⟩
  unfold held DefinitionOf.map DefinitionOf.callList OrderedMap.values OrderedMap.map
  rw [List.map_map, List.map_map]
  rfl

/-- The calls of two definitions are run alike on an object if each two that correspond are. -/
theorem conforms_definedCalls_of {C : Comparison}
    (ha : Conforming C s₀.Grows (k :: O) (b.insert k) answer answer' r r')
    (hk : k = ⟨interface, (s₀.definitions.get d).identifier⟩) (hd : s₀.Whole d)
    (hd' : s₀.Whole d') (hnames : DefinitionNames s₀.Grows d d') (object : Value)
    {R : Call → Call → Prop} (hmethod : ∀ x y, R x y → y.method = x.method)
    (hcalls : List.Forall₂ R (s₀.held d).callList (s₀.held d').callList)
    (hrun : ∀ q q', s₀.WholeCall q → s₀.WholeCall q' → R (s₀.heldCall q) (s₀.heldCall q') →
      Conforms C s₀.Grows (k :: O) (k :: O) (runDefinedCall answer r (b.insert k) d object q)
        (runDefinedCall answer' r' (b.insert k) d' object q')) :
    Conforms C s₀.Grows (k :: O) O (definedCalls answer r (b.insert k) interface d object)
      (definedCalls answer' r' (b.insert k) interface d' object) := by
  refine conforms_get_bind_of (fun _ _ => rfl)
    (fun s => conforms_runDefinedCalls (I := fun _ => False) (fun _ h => h.elim) hk
      (definitionTwins_refl d).names object 1 (List.forall₂_same.mpr fun q _ =>
        ⟨fun _ h => h.elim, conforms_runDefinedCall ha.disturbance (definitionTwins_refl d) object
          (callTwins_refl q)⟩))
    fun s hs => conforms_runDefinedCalls (fun t ht => ht.definitions.get hd.definition) hk hnames
      object 1 ?_
  obtain ⟨hlist, hwhole⟩ := hd.callList
  obtain ⟨hlist', hwhole'⟩ := hd'.callList
  rw [hlist, hlist', List.forall₂_map_left_iff, List.forall₂_map_right_iff] at hcalls
  show List.Forall₂ _ (s.definitions.get d).callList (s.definitions.get d').callList
  rw [hs.definitions.get hd.definition, hs.definitions.get hd'.definition]
  have hboth := (List.forall₂_and_left _ _).mpr
    ⟨hwhole', ((List.forall₂_and_left _ _).mpr ⟨hwhole, hcalls⟩).flip⟩
  refine hboth.flip.imp fun q q' hq => ?_
  obtain ⟨hq', hq, hrelated⟩ := hq
  refine ⟨fun t ht => ?_, hrun q q' hq hq' hrelated⟩
  rw [ht.calls.get hq.call, ht.calls.get hq'.call]
  exact hmethod _ _ hrelated

/-- The calls of rewired definitions are run alike on an object of their class. -/
theorem conforms_definedCalls_rewired (hrewired : s₀.Rewired strict r r' container)
    (hself : Conforming (.same True) s₀.Grows (k :: O) (b.insert k) answer answer r r)
    (ha : Conforming (.unnumbered strict) s₀.Grows (k :: O) (b.insert k) answer answer' r r')
    (hb : Conforming (.unnumbered strict) (fun _ => False) (k :: O) (b.insert k) answer' answer'
      r' r')
    (hk : k = ⟨interface, (s₀.definitions.get d).identifier⟩) (hd : s₀.Whole d)
    (hd' : s₀.Whole d')
    (h : Definition.Rewired strict (s₀.registryOf r) s₀.program (s₀.held d) (s₀.held d'))
    {object : Value} {c : ClassRef}
    (hclass : (s₀.registryOf r).class? (.text (s₀.held d).className) = .ok c)
    (hobject : ∀ s, s₀.Grows s → s.classOf object = c) :
    Conforms (.unnumbered strict) s₀.Grows (k :: O) O
      (definedCalls answer r (b.insert k) interface d object)
      (definedCalls answer' r' (b.insert k) interface d' object) :=
  conforms_definedCalls_of ha hk hd hd' (definitionNames_rewired hd hd' h) object
    (fun _ _ hrelated => hrelated.1) h.calls fun _ _ hq hq' hrelated =>
      conforms_runDefinedCall_rewired hrewired.injecting
        (fun _ ht => (hrewired.grown ht).registryOf.trans (hrewired.injecting.registryOf ht)) hself
        ha hb hd hd' h hclass hobject hq hq' hrelated.1 hrelated.2

/-- Rewired definitions are assembled alike. -/
theorem conforms_assemble_rewired (hrewired : s₀.Rewired strict r r' container)
    (hself : ∀ s, s₀.Grows s →
      Conforming (.same True) s.Grows (k :: O) (b.insert k) answer answer r r)
    (ha : ∀ s, s₀.Grows s →
      Conforming (.unnumbered strict) s.Grows (k :: O) (b.insert k) answer answer' r r')
    (hb : Conforming (.unnumbered strict) (fun _ => False) (k :: O) (b.insert k) answer' answer'
      r' r')
    (hk : k = ⟨interface, (s₀.definitions.get d).identifier⟩) (hd : s₀.Whole d)
    (hd' : s₀.Whole d')
    (h : Definition.Rewired strict (s₀.registryOf r) s₀.program (s₀.held d) (s₀.held d')) :
    Conforms (.unnumbered strict) s₀.Grows (k :: O) O
      (assemble answer r interface d (b.insert k) none)
      (assemble answer' r' interface d' (b.insert k) none) := by
  have hconstruct := conforms_constructDefined_rewired hrewired.injecting
    (fun t ht => (hrewired.grown ht).registryOf.trans (hrewired.injecting.registryOf ht))
    (hself s₀ (.refl s₀)) (ha s₀ (.refl s₀)) hb hd hd' h
  refine conforms_assemble_of (fun s hs => hs.definitions.get hd.definition) hk
    (ha s₀ (.refl s₀)) (definitionNames_rewired hd hd' h) none hconstruct
    fun s object t hs hO hrun hu ht =>
      ⟨t.Grows, inferInstance, .refl t, fun u hu => ht.trans hu, ?_⟩
  obtain ⟨c, hclass, hobject⟩ := classOf_constructDefined hrewired.injecting
    (hself s₀ (.refl s₀)) hd hs hO hrun hu
  -- From here on the object keeps its class, so the store with the object is the one to start from.
  obtain ⟨hdt, hheld⟩ := hd.grows ht
  obtain ⟨hdt', hheld'⟩ := hd'.grows ht
  have hregistry := hrewired.injecting.registryOf ht
  refine conforms_definedCalls_rewired (hrewired.grown ht) (hself t ht) (ha t ht) hb ?_ hdt hdt' ?_
    ?_ hobject
  · rw [ht.definitions.get hd.definition]
    exact hk
  · rw [hregistry, ht.program, hheld, hheld']
    exact h
  · rw [hregistry, hheld]
    exact hclass

/-- Rewired injectors answer alike at every depth. -/
theorem conforms_answer_rewired (n : Nat) : ∀ {s₀ : Store} {O : List DefinitionKey},
    s₀.Rewired strict r r' container → ∀ q : Request,
      Conforms (.unnumbered strict) s₀.Grows O O (Store.answer n r q none)
        (Store.answer n r' q none) := by
  induction n with
  | zero => exact fun _ _ => conforms_foreign _
  | succ n ih =>
    intro s₀ O h q
    refine conforms_step (fun r q => disturbed_answer n r q none) (fun s hs _ => { hs with })
      (fun _ s key hs _ => ?_) (fun s key hs _ _ => h.selected hs q key)
      fun s key d d' hs _ _ hrewired => ?_
    · rw [(h.grown hs).alike.instances]
    · obtain ⟨hd, hd', hrewired⟩ := hrewired
      exact conforms_build_of (fun r q => disturbed_answer n r q none)
        (fun t ht => ht.definitions.get hd.definition) rfl (definitionNames_rewired hd hd' hrewired)
        (fun t ht _ => { ht with }) (fun t ht => { ht with }) ⟨rfl, rfl⟩ none
        (conforms_assemble_rewired h
          (fun t ht => conforming_answer (fun _ => rfl)
            ((h.grown ht).carries.stocked (h.grown ht).injecting.held) n)
          (fun t ht => ⟨fun u hu => ((h.grown ht).grown hu).alike.akin, fun q' _ =>
            ih (h.grown ht) q'⟩)
          ⟨fun _ hu => hu.elim, fun q' _ => disturbed_answer n r' q' none⟩ rfl hd hd' hrewired)

end Answers

/-! ### Requests from outside -/

section Requests

variable {strict : Prop} {s : Store} {r r' : Ref Injector}
  {c : Container (Definition × Definition)}

/-- A request has the same outcome over two injectors that answer alike, as far as failures count. -/
theorem request_of_conforms {I : Store → Prop} [Steady I] {q : Request} {given : Given}
    (hstart : I { s with journal := [] })
    (hanswer : Conforms (.unnumbered strict) I [] [] (answer s.depth r q given)
      (answer s.depth r' q given))
    {expected : Option ClassRef} {x : Except Fault Value} {t : Store}
    (hrun : (request r q given expected).run s = (x, t)) (hu : Undisturbed t.journal)
    (hcounts : strict ∨ x.isOk = true) :
    ∃ j, (request r' q given expected).run s = (x, t.withJournal j) ∧
      t.journal.map JournalEntry.unnumbered = j.map JournalEntry.unnumbered := by
  rw [run_request] at hrun
  have hjournal := (run_checked q.interface expected (s.resolve r q given).1
    (s.resolve r q given).2 []).1
  rw [hrun] at hjournal
  have hresolved : strict ∨ (s.resolve r q given).1.isOk = true := by
    refine hcounts.imp_right fun hx => ?_
    cases hanswer : (s.resolve r q given).1 with
    | ok v => rfl
    | error e =>
      rw [hanswer] at hrun
      cases hrun
      cases hx
  have hcalm : Undisturbed (s.resolve r q given).2.journal := by rwa [hjournal] at hu
  obtain ⟨⟨j, hsame, hj⟩, -⟩ := hanswer.conforms { s with journal := [] } [] hstart .nil rfl hcalm
    hresolved
  have hresolve : s.resolve r' q given
      = ((s.resolve r q given).1, (s.resolve r q given).2.withJournal j) := hsame
  refine ⟨j, ?_, ?_⟩
  · rw [run_request, hresolve, (run_checked _ _ _ _ j).2, hrun]
  · rw [hjournal]
    exact Comparison.alike_unnumbered_iff.mp hj

/-- A request over one of two rewired injectors has the same outcome over the other one, as far as
failures count. -/
theorem request_alike (h : s.Rewired strict r r' c) (q : Request) (expected : Option ClassRef)
    {x : Except Fault Value} {t : Store} (hrun : (request r q none expected).run s = (x, t))
    (hu : Undisturbed t.journal) (hcounts : strict ∨ x.isOk = true) :
    ∃ j, (request r' q none expected).run s = (x, t.withJournal j) ∧
      t.journal.map JournalEntry.unnumbered = j.map JournalEntry.unnumbered :=
  request_of_conforms { Grows.refl s with } (conforms_answer_rewired s.depth h q) hrun hu hcounts

/-- Where dependencies are spelled out in the definitions of one of two injectors and left to the
parameters in those of the other one, a request succeeds over the one if it succeeds over the other,
with the same object, and leaves the same store behind up to the numbers of cells in the journal. If
all the parameters that this is about want a class, it also fails in the same way. All this as long
as no member of a component is run. -/
theorem request_rewired (h : s.Rewired strict r r' c) (q : Request)
    (expected : Option ClassRef) :
    (∀ v t, (request r q none expected).run s = (.ok v, t) → Undisturbed t.journal →
      ∃ j, (request r' q none expected).run s = (.ok v, t.withJournal j) ∧
        t.journal.map JournalEntry.unnumbered = j.map JournalEntry.unnumbered) ∧
    (∀ v t, (request r' q none expected).run s = (.ok v, t) → Undisturbed t.journal →
      ∃ j, (request r q none expected).run s = (.ok v, t.withJournal j) ∧
        t.journal.map JournalEntry.unnumbered = j.map JournalEntry.unnumbered) ∧
    (strict → ∀ x t, (request r q none expected).run s = (x, t) → Undisturbed t.journal →
      ∃ j, (request r' q none expected).run s = (x, t.withJournal j) ∧
        t.journal.map JournalEntry.unnumbered = j.map JournalEntry.unnumbered) :=
  ⟨fun _ _ hrun hu => request_alike h q expected hrun hu (.inr rfl),
    fun _ _ hrun hu => request_alike h.symm q expected hrun hu (.inr rfl),
    fun hstrict _ _ hrun hu => request_alike h q expected hrun hu (.inl hstrict)⟩

end Requests

/-! ### What spelling out comes to -/

/-- A constructor that records what it takes. -/
def recording (params : List Param) : Option Routine :=
  some ⟨params, none, .literal (.value .null)⟩

/-- A program with two classes that take some value, and with classes that want objects of these:
one for each of two parameters, any number of them, and one for the constructor and for a method. -/
def spellingProgram : Program :=
  ⟨[⟨"app", "Clearing", none, recording [.optional "cleared"], [], []⟩,
    ⟨"app", "Copying", none, recording [.optional "copied"], [], []⟩,
    ⟨"app", "Pair", none, recording [⟨"x", .normal, none, .named (.declared 0)⟩,
      ⟨"y", .normal, none, .named (.declared 1)⟩], [], []⟩,
    ⟨"app", "Gathering", none,
      recording [⟨"items", .rest, none, .named (.declared 0)⟩], [], []⟩,
    ⟨"app", "Reader", none, recording [⟨"item", .normal, none, .named (.declared 0)⟩,
      .optional "arguments"],
      [⟨"turn", .bound, ⟨[⟨"page", .normal, none, .named (.declared 0)⟩], none, .self⟩⟩], []⟩], []⟩

/-- A mapping that was set by hand is emptied for what clears and copied for what copies, and the
reader takes the arguments of its own definition. One of the definitions may spell out a dependency:
the pair its second one, the other two what they want. -/
def spellingStore (spelled : Option String) : Store :=
  let callOn := fun name interface method =>
    ⟨name, "call", [(.text "interface", .text interface), (.text "method", .text method)]⟩
  let spelling := fun interface call other => if spelled = some interface then some call else other
  { Store.empty spellingProgram with
    collections := [.map [(.text "k", .int 1)]]
    arguments := ⟨[callOn "cleared" "I" "clear", callOn "copied" "I" "copy",
      callOn "arguments" "D" "get_constructor_arguments", .dependency "y" "Copying",
      .dependency "items" "Clearing", .dependency "item" "Clearing"]⟩
    calls := ⟨[⟨"__construct", none, [⟨0⟩]⟩, ⟨"__construct", none, [⟨1⟩]⟩,
      ⟨"__construct", none, [⟨2⟩]⟩, ⟨"__construct", none, [⟨3⟩]⟩, ⟨"__construct", none, [⟨4⟩]⟩,
      ⟨"__construct", none, [⟨2⟩, ⟨5⟩]⟩]⟩
    definitions := ⟨[⟨"Clearing", none, [], some ⟨0⟩, .empty⟩,
      ⟨"Copying", none, [], some ⟨1⟩, .empty⟩,
      ⟨"Pair", none, [], spelling "Pair" ⟨3⟩ none, .empty⟩,
      ⟨"Gathering", none, [], spelling "Gathering" ⟨4⟩ none, .empty⟩,
      ⟨"Reader", none, [], spelling "Reader" ⟨5⟩ (some ⟨2⟩), .empty⟩]⟩
    containers := ⟨[((((Container.empty.addOne "Clearing" none ⟨0⟩).addOne "Copying" none
      ⟨1⟩).addOne "Pair" none ⟨2⟩).addOne "Gathering" none ⟨3⟩).addOne "Reader" none ⟨4⟩]⟩
    registries := ⟨[((((Registry.empty.register spellingProgram (.declared 0)
      (some "Clearing")).register spellingProgram (.declared 1) (some "Copying")).register
      spellingProgram (.declared 2) (some "Pair")).register spellingProgram (.declared 3)
      (some "Gathering")).register spellingProgram (.declared 4) (some "Reader")]⟩
    injectors := ⟨[⟨⟨0⟩, ⟨0⟩, none, Parser.standard, OrderedMap.ofList
      [(⟨"I", none⟩, .map (some 0) [(.text "k", .int 1)]),
        (⟨"D", none⟩, (Component.mk .definition 4).value)]⟩]⟩ }

/-- The second definition is the first one, with a dependency on what one more parameter of its
constructor wants. -/
def Definition.SpellsOut (g : Registry) (p : Program) (x y : Definition) : Prop :=
  ∃ c params, g.class? (.text x.className) = .ok c ∧
    Callable.params? p (.construct c) = some params ∧ ∃ q ∈ params, ∃ k,
      q.name ∉ x.constructorArguments.map Argument.name ∧ q.default = none ∧
      p.wanted? (p.resolves params) q.annotation = some k ∧
      y = { x with
        constructor := some ⟨constructorMethod, none,
          x.constructorArguments ++ [.dependency q.name (g.interfaceName p k)]⟩ }

/-- What the first object took that took something under a name. -/
def Store.took (s : Store) (name : String) : Option String :=
  (s.objects.findSome? fun o => o.init.lookup name).map fun v => (s.current v).literal

/-- A dependency that is spelled out changes what comes of a request if it passes over a parameter,
if it is for a parameter that collects, and if a member of a component shows it. -/
theorem spellingStore_differs :
    let plain := spellingStore none
    let outcome := fun spelled interface =>
      (request ⟨0⟩ (.plain (.text interface) .null) none none).run (spellingStore spelled)
    let spellsOut := fun interface d => Definition.SpellsOut (plain.registryOf ⟨0⟩) plain.program
      (plain.held d) ((spellingStore (some interface)).held d)
    (spellsOut "Pair" ⟨2⟩ ∧
      (outcome none "Pair").1.isOk = true ∧ Undisturbed (outcome none "Pair").2.journal ∧
      (outcome none "Pair").2.took "copied" = some "\x7b\x7d" ∧
      (outcome (some "Pair") "Pair").1.isOk = true ∧
      Undisturbed (outcome (some "Pair") "Pair").2.journal ∧
      (outcome (some "Pair") "Pair").2.took "copied" = some "\x7b'k': 1\x7d") ∧
    (spellsOut "Gathering" ⟨3⟩ ∧
      (outcome none "Gathering").1.isOk = true ∧
      Undisturbed (outcome none "Gathering").2.journal ∧
      (outcome (some "Gathering") "Gathering").1.isOk = false) ∧
    (spellsOut "Reader" ⟨4⟩ ∧
      (outcome none "Reader").1.isOk = true ∧ (outcome (some "Reader") "Reader").1.isOk = true ∧
      (outcome none "Reader").2.took "arguments"
        ≠ (outcome (some "Reader") "Reader").2.took "arguments") := by
  refine ⟨⟨⟨.declared 2, _, rfl, rfl, ⟨"y", .normal, none, .named (.declared 1)⟩, by simp,
      .declared 1, by decide, rfl, by decide, rfl⟩, by decide +kernel⟩,
    ⟨⟨.declared 3, _, rfl, rfl, ⟨"items", .rest, none, .named (.declared 0)⟩, by simp,
      .declared 0, by decide, rfl, by decide, rfl⟩, by decide +kernel⟩,
    ⟨.declared 4, _, rfl, rfl, ⟨"item", .normal, none, .named (.declared 0)⟩, by simp,
      .declared 0, by decide, rfl, by decide, rfl⟩, by decide +kernel⟩

/-- Two injectors over the classes of the program. The first one leaves it to the parameters what
the reader and its method want and what the pair wants, and the second one spells it out. What the
second parameter of the pair wants has no definition. -/
def rewiredStore : Store :=
  let s := spellingStore none
  let pages := fun reader pair : Ref DefinitionCell =>
    ((Container.empty.addOne "Clearing" none ⟨0⟩).addOne "Reader" none reader).addOne "Pair" none
      pair
  { s with
    arguments := ⟨s.arguments.items ++ [.dependency "page" "Clearing", .dependency "x" "Clearing"]⟩
    calls := ⟨s.calls.items ++ [⟨"turn", none, []⟩, ⟨"__construct", none, [⟨5⟩]⟩,
      ⟨"turn", none, [⟨6⟩]⟩, ⟨"__construct", none, [⟨7⟩, ⟨3⟩]⟩]⟩
    definitions := ⟨s.definitions.items ++
      [⟨"Reader", none, [], none, OrderedMap.ofList [("c0", ⟨6⟩)]⟩,
        ⟨"Reader", none, [], some ⟨7⟩, OrderedMap.ofList [("c0", ⟨8⟩)]⟩,
        ⟨"Pair", none, [], some ⟨9⟩, .empty⟩]⟩
    containers := ⟨[pages ⟨5⟩ ⟨2⟩, pages ⟨6⟩ ⟨7⟩]⟩
    injectors := s.injectors.add { s.injectors.get ⟨0⟩ with container := ⟨1⟩ } }

/-- What the two containers of the store hold, side by side. -/
def rewiredContainer : Container (Definition × Definition) :=
  let both := fun d d' : Ref DefinitionCell => (rewiredStore.held d, rewiredStore.held d')
  ((Container.empty.addOne "Clearing" none (both ⟨0⟩ ⟨0⟩)).addOne "Reader" none
    (both ⟨5⟩ ⟨6⟩)).addOne "Pair" none (both ⟨2⟩ ⟨7⟩)

theorem rewiredStore_rewired : rewiredStore.Rewired True ⟨0⟩ ⟨1⟩ rewiredContainer := by
  have hwhole : ∀ d, rewiredStore.definitions.Holds d → rewiredStore.Whole d := fun d hd => by
    have hbound : ∀ i < 8, ∀ q ∈ (rewiredStore.definitions.get ⟨i⟩).parts,
        q.index < 10 ∧ ∀ a ∈ (rewiredStore.calls.get q).arguments, a.index < 8 := by
      decide +kernel
    exact ⟨hd, fun q hq => ⟨(hbound d.index hd q hq).1, (hbound d.index hd q hq).2⟩⟩
  have hentries : ∀ k < 2, ∀ e ∈ (rewiredStore.containers.get ⟨k⟩).entries, e.2.index < 8 := by
    decide +kernel
  refine ⟨⟨Nat.zero_lt_two, Nat.zero_lt_one, by decide +kernel, none, by rfl⟩, Nat.one_lt_two,
    ⟨rfl, rfl, rfl, rfl⟩,
    ⟨Nat.zero_lt_two, fun e he => hwhole e.2 (hentries 0 Nat.zero_lt_two e he), by rfl⟩,
    ⟨Nat.one_lt_two, fun e he => hwhole e.2 (hentries 1 Nat.one_lt_two e he), by rfl⟩,
    fun e he => ?_⟩
  -- The pair, then the reader with its call, then the definition that both containers hold.
  obtain rfl | he := Container.mem_entries_addOne he
  · exact ⟨rfl, rfl, .inr ⟨_, ⟨.declared 2, rfl, rfl⟩,
      .inl ⟨by decide, _, List.prefix_refl _, by rfl, fun _ => by decide +kernel⟩⟩, .nil⟩
  obtain rfl | he := Container.mem_entries_addOne he
  · have hturn : spellingProgram.declared? (.declared 4) "turn" = some ("Reader", .method ⟨"turn",
        .bound, ⟨[⟨"page", .normal, none, .named (.declared 0)⟩], none, .self⟩⟩) := by rfl
    refine ⟨rfl, rfl, .inr ⟨_, ⟨.declared 4, rfl, rfl⟩,
      .inl ⟨by decide, _, List.prefix_refl _, by rfl, fun _ => by decide +kernel⟩⟩,
      .cons ⟨rfl, .inr ⟨_, ⟨.declared 4, rfl, Program.takes_of_declared hturn⟩,
        .inl ⟨by decide, _, List.prefix_refl _, by rfl, fun _ => by decide +kernel⟩⟩⟩ .nil⟩
  obtain rfl | he := Container.mem_entries_addOne he
  · exact .refl _ _ _ _
  · cases he

/-- The reader is made and turns its page over both injectors, and the pair fails over both of them
for want of its second object. -/
theorem request_rewired_reader :
    let outcome := fun (r : Ref Injector) interface =>
      (request r (.plain (.text interface) .null) none none).run rewiredStore
    rewiredStore.Rewired True ⟨0⟩ ⟨1⟩ rewiredContainer ∧
    (∃ v, (outcome ⟨0⟩ "Reader").1 = .ok v ∧ Undisturbed (outcome ⟨0⟩ "Reader").2.journal ∧
      ∃ j, outcome ⟨1⟩ "Reader" = (.ok v, (outcome ⟨0⟩ "Reader").2.withJournal j)) ∧
    ∃ e, (outcome ⟨0⟩ "Pair").1 = .error e ∧ Undisturbed (outcome ⟨0⟩ "Pair").2.journal ∧
      ∃ j, outcome ⟨1⟩ "Pair" = (.error e, (outcome ⟨0⟩ "Pair").2.withJournal j) := by
  intro outcome
  have hreader := request_rewired rewiredStore_rewired (.plain (.text "Reader") .null) none
  have hpair := request_rewired rewiredStore_rewired (.plain (.text "Pair") .null) none
  have hmade : (outcome ⟨0⟩ "Reader").1.isOk = true := by decide +kernel
  have hfails : (outcome ⟨0⟩ "Pair").1.isOk = false := by decide +kernel
  have hcalm : Undisturbed (outcome ⟨0⟩ "Reader").2.journal := by decide +kernel
  have hcalm' : Undisturbed (outcome ⟨0⟩ "Pair").2.journal := by decide +kernel
  refine ⟨rewiredStore_rewired, ?_, ?_⟩
  · cases hrun : outcome ⟨0⟩ "Reader" with
    | mk x t =>
    rw [hrun] at hmade hcalm
    cases x with
    | error e => cases hmade
    | ok v =>
      obtain ⟨j, hj, -⟩ := hreader.1 v t hrun hcalm
      exact ⟨v, rfl, hcalm, j, hj⟩
  · cases hrun : outcome ⟨0⟩ "Pair" with
    | mk x t =>
    rw [hrun] at hfails hcalm'
    cases x with
    | ok v => cases hfails
    | error e =>
      obtain ⟨j, hj, -⟩ := hpair.2.2 trivial (.error e) t hrun hcalm'
      exact ⟨e, rfl, hcalm', j, hj⟩

end Wiring
