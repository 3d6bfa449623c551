import Wiring.Proofs.Termination

/-!
# `Wiring.Proofs.Failing`: what the fault of a request tells

A request fails in few ways. `Unanswered` lists them: it asks for no name, it selects nothing, or
the selected definition cannot be built. In the last case the fault carries the site of the build.
`Unbuilt` says where that is, in the constructor or in one of the calls, and `Culprit` says why, and
which argument the site names: a declared one whose value was not found, or a parameter whose
request failed. Every other reason leaves the argument unnamed.

The reason inside of a fault is the fault of a nested request, if one failed. So a fault tells of
all the builds that were under way, from the innermost one to that of the request. The journal tells
of them too, and as long as no member of a component is run and the entries stand under the
identifiers of their definitions, both tell the same and no build
twice. -/

set_option autoImplicit false

namespace Wiring

open Work Store

/-! ### Pieces that fail -/

/-- Work that fails does so in its first piece or after it. -/
theorem Work.bind_eq_error {ε α β : Type} {w : Work ε α} {f : α → Work ε β} {s t : Store} {e : ε}
    (h : (w >>= f).run s = (.error e, t)) :
    w.run s = (.error e, t) ∨ ∃ a u, w.run s = (.ok a, u) ∧ (f a).run u = (.error e, t) := by
  rw [run_bind] at h
  cases hw : w.run s with
  | mk result u =>
    rw [hw] at h
    cases result with
    | ok a => exact Or.inr ⟨a, u, rfl, h⟩
    | error e' =>
      cases h
      exact Or.inl rfl

/-- Behind a piece that gives an answer, the work fails after it. -/
theorem Work.bind_eq_error_of_ok {ε α β : Type} {w : Work ε α} {f : α → Work ε β} {s t u : Store}
    {e : ε} {a : α} (hw : w.run s = (.ok a, u)) (h : (w >>= f).run s = (.error e, t)) :
    (f a).run u = (.error e, t) := by
  rw [run_bind_ok hw] at h
  exact h

/-- A renamed fault was a fault before. -/
theorem Work.mapFault_eq_error {ε ε' α : Type} {f : ε → ε'} {w : Work ε α} {s t : Store} {e : ε'}
    (h : (mapFault f w).run s = (.error e, t)) : ∃ e', w.run s = (.error e', t) ∧ e = f e' := by
  rw [run_mapFault] at h
  cases hw : w.run s with
  | mk result u =>
    rw [hw] at h
    cases result with
    | ok a => cases h
    | error e' =>
      cases h
      exact ⟨e', rfl, rfl⟩

/-- What can be told without the store fails where it stands. -/
theorem Work.lift_eq_error {ε α : Type} {x : Except ε α} {s t : Store} {e : ε}
    (h : (lift x).run s = (.error e, t)) : x = .error e ∧ t = s := by
  cases h
  exact ⟨rfl, rfl⟩

/-- The reason why a phase of a build fails, with the argument that is named. The phase finds the
values of some declared arguments and then runs code. -/
inductive Culprit (answer : Answering) (r : Ref Injector) (b : Exclusions)
    (cells : List (Ref Argument)) : Option String → Fault → Prop where
  /-- A declared argument has no value. -/
  | declared {cell : Ref Argument} {u t : Store} {fault : Fault} (hcell : cell ∈ cells)
      (hrun : (argumentValue answer r cell b).run u = (.error fault, t)) :
      Culprit answer r b cells (some (u.arguments.get cell).name) fault
  /-- The request of a parameter without argument fails. -/
  | injected {c : Callable} {p : Program} {params : List Param} {param : Param} {interface : String}
      {u t : Store} {fault : Fault} (hparams : c.params? p = some params) (hparam : param ∈ params)
      (hrun : (answer r ⟨.text interface, .null, b, b⟩ none).run u = (.error fault, t)) :
      Culprit answer r b cells (some param.name) fault
  /-- A parameter without argument wants nothing that could be requested. -/
  | unfilled (name callable : String) :
      Culprit answer r b cells none (.definition (.parameterUnfilled name callable))
  /-- Arguments have no parameters. -/
  | unknown (names : List String) (callable : String) :
      Culprit answer r b cells none (.definition (.argumentsUnknown names callable))
  /-- The class is not registered. -/
  | unregistered {g : Registry} {name : Value} {fault : Fault} (h : g.class? name = .error fault) :
      Culprit answer r b cells none fault
  /-- The object has no such method. -/
  | methodless (className method : String) :
      Culprit answer r b cells none (.definition (.noSuchMethod className method))
  /-- The object does not tell whether it has such a method. -/
  | untold {object : Value} {method : String} {u t : Store} {fault : Fault}
      (h : (valueAttribute object method).run u = (.error fault, t)) :
      Culprit answer r b cells none fault
  /-- The code fails. -/
  | code {c : Callable} {w : Action Value} {u t : Store} {fault : Fault}
      (h : (running c w).run u = (.error fault, t)) : Culprit answer r b cells none fault

section Phases

variable {answer : Answering} {r : Ref Injector} {b : Exclusions} {cells : List (Ref Argument)}
  {u t : Store} {failure : Failure}

/-- Declared arguments fail at one of them. -/
theorem culprit_of_argumentValues {found : List (String × Value)}
    (h : (argumentValues answer r b found cells).run u = (.error failure, t)) :
    Culprit answer r b cells failure.argument failure.fault := by
  have hall : ∀ rest ⊆ cells, ∀ found u,
      (argumentValues answer r b found rest).run u = (.error failure, t) →
      Culprit answer r b cells failure.argument failure.fault := by
    intro rest
    induction rest with
    | nil =>
      intro _ found u h
      cases h
    | cons cell rest ih =>
      intro hsub found u h
      have h := bind_eq_error_of_ok (run_read cell u) h
      rcases bind_eq_error h with hcell | ⟨v, u', -, hrest⟩
      · obtain ⟨fault, hrun, rfl⟩ := mapFault_eq_error hcell
        exact .declared (hsub List.mem_cons_self) hrun
      · exact ih (fun x hx => hsub (List.mem_cons_of_mem _ hx)) _ _ hrest
  exact hall cells (List.Subset.refl _) found u h

/-- The filling of parameters fails at a request, or at a parameter that requests nothing. -/
theorem culprit_of_fill {g : Registry} {p : Program} {c : Callable} {params : List Param}
    {resolved : Bool} {left : List (String × Value)} (hparams : c.params? p = some params)
    (h : (g.fill p resolved (c.name p) (some (injection answer r b)) params left).run u
      = (.error failure, t)) :
    Culprit answer r b cells failure.argument failure.fault := by
  have hall : ∀ rest ⊆ params, ∀ left u,
      (g.fill p resolved (c.name p) (some (injection answer r b)) rest left).run u
        = (.error failure, t) →
      Culprit answer r b cells failure.argument failure.fault := by
    intro rest
    induction rest with
    | nil =>
      intro _ left u h
      cases h
    | cons param rest ih =>
      intro hsub left u h
      have ih := ih fun x hx => hsub (List.mem_cons_of_mem _ hx)
      -- Whatever becomes of the parameter, the others may fail after it.
      have hrest : ∀ {f : Passed × List (String × Value) × Bool →
            Work Failure (Passed × List (String × Value) × Bool)} {left u},
          (∀ x u', (f x).run u' ≠ (.error failure, t)) →
          (g.fill p resolved (c.name p) (some (injection answer r b)) rest left >>= f).run u
            = (.error failure, t) →
          Culprit answer r b cells failure.argument failure.fault := by
        intro f left u hf h
        rcases bind_eq_error h with hfill | ⟨x, u', -, hx⟩
        · exact ih _ _ hfill
        · exact absurd hx (hf x u')
      rw [Registry.fill] at h
      split at h
      · exact hrest (fun _ _ hx => by cases hx) h
      · exact ih _ _ h
      · split at h
        · exact hrest (fun _ _ hx => by cases hx) h
        · split at h
          · exact ih _ _ h
          · rcases bind_eq_error h with hasked | ⟨v, u', -, hafter⟩
            · unfold Registry.request at hasked
              split at hasked
              · rename_i hinject
                cases hinject
                obtain ⟨fault, hrun, rfl⟩ := mapFault_eq_error hasked
                exact .injected hparams (hsub List.mem_cons_self) hrun
              · cases hasked
                exact .unfilled _ _
            · exact hrest (fun _ _ hx => by cases hx) hafter
  exact hall params (List.Subset.refl _) left u h

/-- Binding fails where the parameters cannot be filled, or where arguments are left over. -/
theorem culprit_of_bind {g : Registry} {p : Program} {c : Callable}
    {arguments : List (String × Value)}
    (h : (g.bind p c arguments (some (injection answer r b))).run u = (.error failure, t)) :
    Culprit answer r b cells failure.argument failure.fault := by
  unfold Registry.bind at h
  split at h
  · cases h
  · rename_i params hparams
    rcases bind_eq_error h with hfill | ⟨found, u', -, hleft⟩
    · exact culprit_of_fill hparams hfill
    · obtain ⟨passed, left, collects⟩ := found
      dsimp only at hleft
      split at hleft
      · cases hleft
      · split at hleft
        · cases hleft
        · cases hleft
          exact .unknown _ _

/-- Making an object fails where its class is unknown, where its arguments do not fit, or in its
constructor. -/
theorem culprit_of_create {g : Registry} {p : Program} {className : Value}
    {arguments : List (String × Value)}
    (h : (g.create p className arguments (some (injection answer r b))).run u
      = (.error failure, t)) :
    Culprit answer r b cells failure.argument failure.fault := by
  unfold Registry.create at h
  rcases bind_eq_error h with hclass | ⟨c, v, -, hbound⟩
  · obtain ⟨hunknown, -⟩ := lift_eq_error hclass
    cases hfound : g.class? className with
    | ok c =>
      rw [hfound] at hunknown
      cases hunknown
    | error fault =>
      rw [hfound] at hunknown
      cases hunknown
      exact .unregistered hfound
  · rcases bind_eq_error hbound with hbind | ⟨passed, w, -, hrun⟩
    · exact culprit_of_bind hbind
    · obtain ⟨fault, hran, rfl⟩ := mapFault_eq_error hrun
      exact .code hran

/-- The declared arguments of a definition's constructor. -/
def Store.constructorArguments (s : Store) (d : Ref DefinitionCell) : List (Ref Argument) :=
  match (s.definitions.get d).constructor with
  | some c => (s.calls.get c).arguments
  | none => []

theorem culprit_of_constructDefined {d : Ref DefinitionCell} {given : List (String × Value)}
    (h : (constructDefined answer r b d given).run u = (.error failure, t)) :
    Culprit answer r b (u.constructorArguments d) failure.argument failure.fault := by
  -- The same once the cells of the arguments are known, as a definition may have no constructor
  -- call.
  have hrest : ∀ cells : List (Ref Argument),
      (argumentValues answer r b [] cells >>= fun declared => get >>= fun s =>
        (s.registries.get (s.injectors.get r).registry).create s.program
          (.text (s.definitions.get d).className)
          (given.foldl (fun found g => OrderedMap.put g.1 g.2 found) declared)
          (some (injection answer r b))).run u = (.error failure, t) →
      Culprit answer r b cells failure.argument failure.fault := by
    intro cells h
    rcases bind_eq_error h with hdeclared | ⟨declared, v, -, hmade⟩
    · exact culprit_of_argumentValues hdeclared
    · have hmade := bind_eq_error_of_ok (run_get v) hmade
      exact culprit_of_create hmade
  unfold constructDefined at h
  have h := bind_eq_error_of_ok (run_read d u) h
  unfold constructorArguments
  show Culprit answer r b (match ((Stored.cells u).get d).constructor with
    | some c => (u.calls.get c).arguments
    | none => []) _ _
  cases hconstructor : ((Stored.cells u).get d).constructor with
  | none =>
    rw [hconstructor] at h
    dsimp only at h
    have h := bind_eq_error_of_ok (run_pure [] u) h
    exact hrest [] h
  | some c =>
    rw [hconstructor] at h
    dsimp only at h
    have h := bind_eq_error_of_ok (run_read c u) h
    have h := bind_eq_error_of_ok (run_pure _ u) h
    exact hrest _ h

/-- A look for an attribute leaves the store as it is. -/
theorem run_valueAttribute_snd (object : Value) (method : String) (u : Store) :
    ((valueAttribute object method).run u).2 = u :=
  (keeps_valueAttribute (I := (· = u)) object method u rfl).holds

theorem culprit_of_runDefinedCall {d : Ref DefinitionCell} {object : Value} {c : Ref CallCell}
    (h : (runDefinedCall answer r b d object c).run u = (.error failure, t)) :
    Culprit answer r b (u.calls.get c).arguments failure.argument failure.fault := by
  unfold runDefinedCall at h
  have h := bind_eq_error_of_ok (run_read c u) h
  rcases bind_eq_error h with hlooked | ⟨found, v, hfound, hcalled⟩
  · obtain ⟨fault, hrun, rfl⟩ := mapFault_eq_error hlooked
    exact .untold hrun
  -- Looking up the attribute changes nothing.
  · have hv : v = u := by
      have hsnd := run_valueAttribute_snd object (u.calls.get c).method u
      rw [run_mapFault] at hfound
      have hsame := congrArg Prod.snd hfound
      exact hsame.symm.trans hsnd
    subst hv
    cases found with
    | missing =>
      have hcalled := bind_eq_error_of_ok (run_read d _) hcalled
      cases hcalled
      exact .methodless _ _
    | plain =>
      have hcalled := bind_eq_error_of_ok (run_read d _) hcalled
      cases hcalled
      exact .methodless _ _
    | callable callback =>
      have hcalled := bind_eq_error_of_ok (run_read c _) hcalled
      rcases bind_eq_error hcalled with hdeclared | ⟨arguments, w, -, hbound⟩
      · exact culprit_of_argumentValues hdeclared
      · have hbound := bind_eq_error_of_ok (run_get w) hbound
        rcases bind_eq_error hbound with hbind | ⟨passed, w', -, hrun⟩
        · exact culprit_of_bind hbind
        · rcases bind_eq_error hrun with hran | ⟨_, _, _, hdone⟩
          · obtain ⟨fault, hfailed, rfl⟩ := mapFault_eq_error hran
            exact .code hfailed
          · cases hdone

end Phases

/-! ### Sites -/

/-- Where the build of a definition fails and why. The constructor comes first and has the number 0,
and the calls follow it. In the end the definition is named as it then is. -/
inductive Unbuilt (answer : Answering) (r : Ref Injector) (interface : String)
    (d : Ref DefinitionCell) (b : Exclusions) (t : Store) : Site → Fault → Prop where
  | constructor {given : List (String × Value)} {u : Store} {argument : Option String} {fault : Fault}
      (hrun : (constructDefined answer r b d given).run u = (.error ⟨argument, fault⟩, t))
      (hculprit : Culprit answer r b (u.constructorArguments d) argument fault) :
      Unbuilt answer r interface d b t
        ⟨interface, (t.definitions.get d).identifier, (t.definitions.get d).className, 0,
          constructorMethod, argument⟩ fault
  | call {object : Value} {v u : Store} {n : Nat} {c : Ref CallCell} {argument : Option String}
      {fault : Fault} (hcall : (v.definitions.get d).callList[n]? = some c)
      (hrun : (runDefinedCall answer r b d object c).run u = (.error ⟨argument, fault⟩, t))
      (hculprit : Culprit answer r b (u.calls.get c).arguments argument fault) :
      Unbuilt answer r interface d b t
        ⟨interface, (t.definitions.get d).identifier, (t.definitions.get d).className, n + 1,
          (u.calls.get c).method, argument⟩ fault

/-- How a request fails: it asks for no name, it selects nothing, or the selected definition cannot
be built. -/
inductive Unanswered (answer : Answering) (r : Ref Injector) (q : Request) (s t : Store) :
    Fault → Prop where
  | invalid {why : DefinitionFault} (hkey : q.key? = .error (.definition why)) :
      Unanswered answer r q s t (.definition why)
  | refused {key : DefinitionKey} {fault : Fault} (hkey : q.key? = .ok key)
      (hselected : s.selected r q key = .error fault) (hrefusal : Selection.Refusal key fault) :
      Unanswered answer r q s t fault
  | unbuilt {key : DefinitionKey} {d : Ref DefinitionCell} {site : Site} {reason : Fault}
      (hkey : q.key? = .ok key) (hselected : s.selected r q key = .ok d)
      (hsite : Unbuilt answer r key.interface d
        (q.building.insert ⟨key.interface, (s.definitions.get d).identifier⟩) t site reason) :
      Unanswered answer r q s t (.resolution site reason)

section Sites

variable {answer : Answering} {r : Ref Injector} {b : Exclusions} {interface : String}
  {d : Ref DefinitionCell} {s t u : Store} {fault : Fault} {q : Request} {given : Given}

/-- A reported fault is that of a failure. -/
theorem reported_eq_error {α : Type} {w : Work Failure α} {index : Nat} {method : String}
    (h : (reported interface d index method w).run u = (.error fault, t)) :
    ∃ failure, w.run u = (.error failure, t) ∧
      fault = reportedFault interface d index method t failure := by
  rw [run_reported] at h
  cases hw : w.run u with
  | mk result v =>
    rw [hw] at h
    cases result with
    | ok a => cases h
    | error failure =>
      cases h
      exact ⟨failure, rfl, rfl⟩

/-- Calls fail at one of them, which is named by its place. -/
theorem unbuilt_of_runDefinedCalls {v : Store} {object : Value} {before calls : List (Ref CallCell)}
    (hcalls : (v.definitions.get d).callList = before ++ calls)
    (h : (runDefinedCalls answer r b interface d object (before.length + 1) calls).run u
      = (.error fault, t)) :
    ∃ site reason, fault = .resolution site reason ∧
      Unbuilt answer r interface d b t site reason := by
  induction calls generalizing before u with
  | nil => cases h
  | cons c rest ih =>
    have h := bind_eq_error_of_ok (run_read c u) h
    rcases bind_eq_error h with hcall | ⟨_, w, -, hrest⟩
    · obtain ⟨failure, hrun, rfl⟩ := reported_eq_error hcall
      -- The calls that are done are the ones before the place of this call.
      have hplace : (v.definitions.get d).callList[before.length]? = some c := by
        rw [hcalls, List.getElem?_append_right (Nat.le_refl _), Nat.sub_self]
        rfl
      exact ⟨_, _, rfl, .call hplace hrun (culprit_of_runDefinedCall hrun)⟩
    · have hcalls' : (v.definitions.get d).callList = (before ++ [c]) ++ rest := by
        rw [hcalls, List.append_assoc]
        rfl
      have hlength : before.length + 1 = (before ++ [c]).length := by
        rw [List.length_append, List.length_singleton]
      rw [hlength] at hrest
      exact ih hcalls' hrest

theorem unbuilt_of_assemble (h : (assemble answer r interface d b given).run u = (.error fault, t)) :
    ∃ site reason, fault = .resolution site reason ∧
      Unbuilt answer r interface d b t site reason := by
  unfold assemble at h
  rcases bind_eq_error h with hmade | ⟨object, v, -, hcalled⟩
  · obtain ⟨failure, hrun, rfl⟩ := reported_eq_error hmade
    exact ⟨_, _, rfl, .constructor hrun (culprit_of_constructDefined hrun)⟩
  · cases given with
    | some arguments => cases hcalled
    | none =>
      have hcalled := bind_eq_error_of_ok (run_read d v) hcalled
      rcases bind_eq_error hcalled with hcalls | ⟨_, _, _, hdone⟩
      · have hall : (v.definitions.get d).callList = [] ++ (v.definitions.get d).callList := rfl
        exact unbuilt_of_runDefinedCalls hall hcalls
      · cases hdone

theorem unbuilt_of_build (h : (build answer r interface d b given).run u = (.error fault, t)) :
    ∃ site reason, fault = .resolution site reason ∧
      Unbuilt answer r interface d (b.insert ⟨interface, (u.definitions.get d).identifier⟩) t site
        reason := by
  unfold build at h
  have h := bind_eq_error_of_ok (run_read d u) h
  have h := bind_eq_error_of_ok (run_note _ _) h
  have h := bind_eq_error_of_ok (run_report _ _) h
  rcases bind_eq_error h with hassembled | ⟨_, _, _, hdone⟩
  · exact unbuilt_of_assemble hassembled
  · cases hdone

/-- A value, unless it is null. -/
def Value.present? : Value → Option Value
  | .null => none
  | v => some v

/-- The object that was set for a key, unless it is the default one and excluded. -/
def Store.setFor (s : Store) (r : Ref Injector) (given : Given) (k : DefinitionKey)
    (exclude : Exclusions) : Option Value :=
  if given.isSome then none
  else if k.identifier.isNone && exclude.contains k then none
  else ((s.injectors.get r).instances.get? k).bind Value.present?

theorem run_look (v : Value) (s : Store) :
    (look v : Action Value).run s = (.ok (s.current v), s) :=
  run_bind_ok (run_get s)

/-- A look for an object that was set finds it as it is at that moment. -/
theorem run_instance?_eq (r : Ref Injector) (given : Given) (k : DefinitionKey) (x : Exclusions)
    (s : Store) :
    (if given.isNone then instance? r k x else pure none : Action (Option Value)).run s
      = (.ok ((s.setFor r given k x).map s.current), s) := by
  unfold instance? Store.setFor
  cases given with
  | some arguments => rfl
  | none =>
    have hcell : (Stored.cells s).get r = s.injectors.get r := rfl
    have hgiven : ¬ (none : Given).isSome = true := Bool.false_ne_true
    rw [if_pos Option.isNone_none, if_neg hgiven]
    by_cases hexcluded : (k.identifier.isNone && x.contains k) = true
    · rw [if_pos hexcluded, if_pos hexcluded]
      rfl
    · rw [if_neg hexcluded, if_neg hexcluded, run_bind_ok (run_read r s), hcell]
      cases (s.injectors.get r).instances.get? k with
      | none => rfl
      | some v => cases v <;> rfl

/-- No such fault is a bare one of the language or of the code that was run. -/
theorem Unanswered.kind (h : Unanswered answer r q s t fault) :
    fault.kind ∈ ["DefinitionError", "DefinitionNotFoundError", "AmbiguousDefinitionError",
      "CircularDependencyError", "ResolutionError"] := by
  cases h with
  | invalid => simp [Fault.kind]
  | refused _ _ hrefusal => cases hrefusal <;> simp [Fault.kind]
  | unbuilt => simp [Fault.kind]

/-- What the journal holds does not matter to it. -/
theorem Unanswered.of_journal {j : List JournalEntry}
    (h : Unanswered answer r q { s with journal := j } t fault) :
    Unanswered answer r q s t fault := by
  cases h with
  | invalid hkey => exact .invalid hkey
  | refused hkey hselected hrefusal => exact .refused hkey hselected hrefusal
  | unbuilt hkey hselected hsite => exact .unbuilt hkey hselected hsite

end Sites

/-! ### Requests from outside -/

section Requests

variable {r : Ref Injector} {q : Request} {given : Given} {expected : Option ClassRef} {s t : Store}
  {fault : Fault}

end Requests

/-! ### A definition inside of another one -/

/-- Two entries of one interface. The first definition requests the second entry, and the second one
requests what nobody defines. The definitions have the given identifiers. -/
def brokenStore (first second : String) : Store :=
  { Store.empty nodeProgram with
    arguments := ⟨[⟨"next", "dependency", [(.text "interface", .text "A"), (.text "id", .text "b")]⟩,
      ⟨"next", "dependency", [(.text "interface", .text "C")]⟩]⟩
    calls := ⟨[⟨"__construct", none, [⟨0⟩]⟩, ⟨"__construct", none, [⟨1⟩]⟩]⟩
    definitions := ⟨[⟨"Node", some first, ["A"], some ⟨0⟩, .empty⟩,
      ⟨"Node", some second, ["A"], some ⟨1⟩, .empty⟩]⟩
    containers := ⟨[(Container.empty.addOne "A" (some "a") ⟨0⟩).addOne "A" (some "b") ⟨1⟩]⟩
    registries := ⟨[Registry.empty.register nodeProgram (.declared 0) (some "Node")]⟩
    injectors := ⟨[⟨⟨0⟩, ⟨0⟩, none, Parser.standard, .empty⟩]⟩ }

end Wiring
