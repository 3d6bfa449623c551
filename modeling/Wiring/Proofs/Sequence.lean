import Wiring.Proofs.Binding
import Wiring.Proofs.Paths

/-!
# `Wiring.Proofs.Sequence`: the order in which an object is built

A build finds values of declared arguments, requests what parameters without argument want, and runs
code. Each of these is a `Deed`, and `Done` is a deed with the stores around it. A phase of a build
has a plan: the declared arguments in their order, the requests in the order of the parameters, and
the code. `Course` says how far a plan got: the deeds are done one after the other, each in the
store that the one before it left, and only the last one may have failed. As the stores meet,
nothing else happens in between.

A build goes through the phase of the constructor and then through one phase for each call
(`Sequence`). It gives its object if all phases were gone through to the end. Otherwise the last
phase is the one that fails, and all before it are complete. `answer_sequence` says so of every
request that builds.
-/

set_option autoImplicit false

namespace Wiring

open Work Store

/-! ### Deeds -/

/-- Something that is done while an object is built. -/
inductive Deed where
  /-- The value of a declared argument is found. -/
  | argument (cell : Ref Argument)
  /-- What a parameter wants is requested. -/
  | injection (parameter interface : String)
  /-- Something is run. -/
  | code (c : Callable) (passed : Passed)

/-- How something is done. -/
def Deed.work (answer : Answering) (r : Ref Injector) (b : Exclusions) : Deed → Work Failure Value
  | .argument cell => do
    let name := (← read cell).name
    Work.mapFault (Failure.mk (some name)) (argumentValue answer r cell b)
  | .injection parameter interface => Store.injection answer r b parameter interface
  | .code c passed => Work.mapFault .plain (invoke answer c passed)

/-- Something that was done, with the stores around it. -/
structure Done where
  deed : Deed
  before : Store
  outcome : Except Failure Value
  after : Store

/-- Each of some deeds begins in the store that the one before it left. -/
def Linked : Store → List Done → Store → Prop
  | s, [], t => s = t
  | s, m :: rest, t => m.before = s ∧ Linked m.after rest t

theorem Linked.append {s u t : Store} {ds es : List Done} (h : Linked s ds u)
    (h' : Linked u es t) : Linked s (ds ++ es) t := by
  induction ds generalizing s with
  | nil =>
    cases h
    exact h'
  | cons m rest ih => exact ⟨h.1, ih h.2⟩

/-- How far a plan got. -/
structure Course (answer : Answering) (r : Ref Injector) (b : Exclusions) (plan : List Deed)
    (s : Store) (ds : List Done) (t : Store) (complete : Bool) : Prop where
  /-- One deed follows the other, from the first store to the last one. -/
  linked : Linked s ds t
  done : ∀ m ∈ ds, (m.deed.work answer r b).run m.before = (m.outcome, m.after)
  /-- What is done is what comes next. -/
  order : ds.map Done.deed <+: plan
  /-- What is followed by something did not fail. -/
  earlier : ∀ m ∈ ds.dropLast, m.outcome.isOk = true
  whole : complete = true → ds.map Done.deed = plan ∧ ∀ m ∈ ds, m.outcome.isOk = true

section Courses

variable {answer : Answering} {r : Ref Injector} {b : Exclusions} {plan plan' : List Deed}
  {s u t : Store} {ds es : List Done} {complete : Bool}

/-- Nothing is done for a plan without deeds. -/
theorem Course.nil (s : Store) (complete : Bool) : Course answer r b [] s [] s complete where
  linked := rfl
  done _ hm := absurd hm List.not_mem_nil
  order := List.nil_prefix
  earlier _ hm := absurd hm List.not_mem_nil
  whole _ := ⟨rfl, fun _ hm => absurd hm List.not_mem_nil⟩

/-- A plan goes on behind one that was done to the end. -/
theorem Course.append (h : Course answer r b plan s ds u true)
    (h' : Course answer r b plan' u es t complete) :
    Course answer r b (plan ++ plan') s (ds ++ es) t complete where
  linked := h.linked.append h'.linked
  done m hm := (List.mem_append.mp hm).elim (h.done m) (h'.done m)
  order := by
    rw [List.map_append, (h.whole rfl).1]
    exact (List.prefix_append_right_inj plan).mpr h'.order
  earlier m hm := by
    cases es with
    | nil =>
      rw [List.append_nil] at hm
      exact h.earlier m hm
    | cons e rest =>
      rw [List.dropLast_append_of_ne_nil (List.cons_ne_nil e rest)] at hm
      exact (List.mem_append.mp hm).elim ((h.whole rfl).2 m) (h'.earlier m)
  whole hc := by
    obtain ⟨hfirst, hall⟩ := h.whole rfl
    obtain ⟨hsecond, hall'⟩ := h'.whole hc
    exact ⟨by rw [List.map_append, hfirst, hsecond],
      fun m hm => (List.mem_append.mp hm).elim (hall m) (hall' m)⟩

/-- What a plan would have gone on with does not matter where it stops. -/
theorem Course.stopped (h : Course answer r b plan s ds t complete) (more : List Deed) :
    Course answer r b (plan ++ more) s ds t false :=
  { h with order := h.order.trans (List.prefix_append plan more), whole := nofun }

/-- A single deed. -/
theorem Course.single {e : Deed} {x : Except Failure Value}
    (h : (e.work answer r b).run s = (x, t)) :
    Course answer r b [e] s [⟨e, s, x, t⟩] t x.isOk where
  linked := ⟨rfl, rfl⟩
  done m hm := by
    cases List.mem_singleton.mp hm
    exact h
  order := List.prefix_refl _
  earlier _ hm := absurd hm List.not_mem_nil
  whole hok := by
    refine ⟨rfl, fun m hm => ?_⟩
    cases List.mem_singleton.mp hm
    exact hok

/-- A deed in front of the others. -/
theorem Course.cons {e : Deed} {v : Value} (h : (e.work answer r b).run s = (.ok v, u))
    (h' : Course answer r b plan u es t complete) :
    Course answer r b (e :: plan) s (⟨e, s, .ok v, u⟩ :: es) t complete :=
  (Course.single h).append h'

/-- Work that gives something whenever its first piece does, and changes nothing behind it. -/
theorem run_of_bind {ε α β : Type} {w : Work ε α} {f : α → Work ε β} {x : Except ε β}
    (hf : ∀ a u, ∃ y, (f a).run u = (.ok y, u)) (h : (w >>= f).run s = (x, t)) :
    ∃ y, w.run s = (y, t) ∧ y.isOk = x.isOk := by
  rw [run_bind] at h
  cases hw : w.run s with
  | mk result u =>
    rw [hw] at h
    cases result with
    | ok a =>
      obtain ⟨y, hy⟩ := hf a u
      cases hy.symm.trans h
      exact ⟨_, rfl, rfl⟩
    | error e =>
      cases h
      exact ⟨_, rfl, rfl⟩

/-! ### Declared arguments -/

/-- The values that were found by name, where the last one of a name counts. -/
def foundIn (found : List (String × Value)) (ds : List Done) : List (String × Value) :=
  ds.foldl (fun found m =>
    match m.deed, m.outcome with
    | .argument cell, .ok v => OrderedMap.put (m.before.arguments.get cell).name v found
    | _, _ => found) found

/-- Declared arguments get their values in order. -/
theorem course_argumentValues (cells : List (Ref Argument)) :
    ∀ {found : List (String × Value)} {s : Store} {x : Except Failure (List (String × Value))}
      {t : Store}, (argumentValues answer r b found cells).run s = (x, t) →
      ∃ ds, Course answer r b (cells.map .argument) s ds t x.isOk ∧
        ∀ values, x = .ok values → values = foundIn found ds := by
  induction cells with
  | nil =>
    intro found s x t h
    cases h
    refine ⟨[], .nil s true, fun values hvalues => ?_⟩
    cases hvalues
    rfl
  | cons cell rest ih =>
    intro found s x t h
    unfold argumentValues at h
    rw [run_bind_ok (run_read cell s), run_bind] at h
    have hwork : ((Deed.argument cell).work answer r b).run s
        = (Work.mapFault (Failure.mk (some ((Stored.cells s).get cell).name))
          (argumentValue answer r cell b)).run s := run_bind_ok (run_read cell s)
    cases hrun : ((Deed.argument cell).work answer r b).run s with
    | mk result u =>
      rw [← hwork, hrun] at h
      cases result with
      | ok v =>
        obtain ⟨ds, hcourse, hvalues⟩ := ih h
        exact ⟨_, hcourse.cons hrun, hvalues⟩
      | error f =>
        cases h
        exact ⟨_, (Course.single hrun).stopped (rest.map .argument), fun _ h => by cases h⟩

/-! ### Requests of parameters -/

/-- The parameters that are asked for, in order: those that have neither an argument nor a
default. -/
def Registry.asks : List Param → List (String × Value) → List Param
  | [], _ => []
  | q :: rest, arguments =>
    if q.single then
      match arguments.lookup q.name with
      | some _ => asks rest (without q.name arguments)
      | none => if q.default.isSome then asks rest arguments else q :: asks rest arguments
    else asks rest arguments

/-- The requests for some parameters. One that wants no class is not requested. -/
def Registry.requests (g : Registry) (p : Program) (resolved : Bool) (asked : List Param) :
    List Deed :=
  asked.filterMap fun q =>
    (p.wanted? resolved q.annotation).map fun c => .injection q.name (g.interfaceName p c)

/-- Parameters are filled in order. -/
theorem course_fill {g : Registry} {p : Program} {resolved : Bool} {callable : String}
    (params : List Param) :
    ∀ {left : List (String × Value)} {u : Store}
      {x : Except Failure (Passed × List (String × Value) × Bool)} {t : Store},
      (g.fill p resolved callable (some (injection answer r b)) params left).run u = (x, t) →
      ∃ ds,
        Course answer r b (g.requests p resolved (Registry.asks params left)) u ds t x.isOk := by
  induction params with
  | nil =>
    intro left u x t h
    cases h
    exact ⟨[], .nil u true⟩
  | cons q rest ih =>
    intro left u x t h
    have hcollects : q.single = false →
        Registry.asks (q :: rest) left = Registry.asks rest left := fun hq => by
      rw [Registry.asks, if_neg (by simp [hq])]
    rw [Registry.fill] at h
    split at h
    · rename_i hkind
      obtain ⟨y, hrest, hok⟩ := run_of_bind (fun _ _ => ⟨_, rfl⟩) h
      rw [hcollects (by simp [Param.single, hkind]), ← hok]
      exact ih hrest
    · rename_i hkind
      rw [hcollects (by simp [Param.single, hkind])]
      exact ih h
    · rename_i hoptions hrestkind
      have hsingle : q.single = true := by
        have h₁ : ¬ q.kind = .options := hoptions
        have h₂ : ¬ q.kind = .rest := hrestkind
        simp [Param.single, h₁, h₂]
      rw [Registry.asks, if_pos hsingle]
      cases hv : left.lookup q.name with
      | some v =>
        rw [hv] at h
        obtain ⟨y, hrest, hok⟩ := run_of_bind (fun _ _ => ⟨_, rfl⟩) h
        rw [← hok]
        exact ih hrest
      | none =>
        rw [hv] at h
        dsimp only at h
        split at h
        · rename_i hdefault
          rw [if_pos hdefault]
          exact ih h
        · rename_i hdefault
          rw [if_neg hdefault]
          unfold Registry.requests
          rw [List.filterMap_cons]
          cases hwanted : p.wanted? resolved q.annotation with
          | none =>
            -- Such a parameter ends the filling before any more is requested.
            unfold Registry.request at h
            rw [hwanted] at h
            cases h
            exact ⟨[], (Course.nil u true).stopped _⟩
          | some c =>
            unfold Registry.request at h
            rw [hwanted] at h
            dsimp only at h
            rw [run_bind] at h
            cases hrun : ((Deed.injection q.name (g.interfaceName p c)).work answer r b).run u with
            | mk result w =>
              have hsame : (injection answer r b q.name (g.interfaceName p c)).run u
                  = (result, w) := hrun
              rw [hsame] at h
              cases result with
              | error f =>
                cases h
                exact ⟨_, (Course.single hrun).stopped _⟩
              | ok v =>
                obtain ⟨y, hrest, hok⟩ := run_of_bind (fun _ _ => ⟨_, rfl⟩) h
                rw [← hok]
                obtain ⟨ds, hcourse⟩ := ih hrest
                exact ⟨_, hcourse.cons hrun⟩

/-! ### What is called -/

/-- The requests for something that is called with some arguments. -/
def Store.requestsFor (s : Store) (r : Ref Injector) (c : Callable)
    (arguments : List (String × Value)) : List Deed :=
  match c.params? s.program with
  | none => []
  | some params =>
    (s.registries.get (s.injectors.get r).registry).requests s.program (s.program.resolves params)
      (Registry.asks params arguments)

/-- Binding makes the requests. -/
theorem course_bind {c : Callable} {arguments : List (String × Value)}
    {x : Except Failure Passed}
    (h : ((u.registries.get (u.injectors.get r).registry).bind u.program c arguments
      (some (injection answer r b))).run u = (x, t)) :
    ∃ ds, Course answer r b (u.requestsFor r c arguments) u ds t x.isOk := by
  unfold Store.requestsFor
  unfold Registry.bind at h
  cases hparams : c.params? u.program with
  | none =>
    rw [hparams] at h
    cases h
    exact ⟨[], .nil u true⟩
  | some params =>
    rw [hparams] at h
    dsimp only at h ⊢
    rw [run_bind] at h
    cases hfill : ((u.registries.get (u.injectors.get r).registry).fill u.program
        (u.program.resolves params) (c.name u.program) (some (injection answer r b)) params
        arguments).run u with
    | mk result w =>
      obtain ⟨ds, hcourse⟩ := course_fill params hfill
      rw [hfill] at h
      cases result with
      | error f =>
        cases h
        exact ⟨ds, hcourse⟩
      | ok y =>
        -- Arguments that are left over are told after all requests.
        obtain ⟨passed, left, collects⟩ := y
        refine ⟨ds, ?_⟩
        dsimp only at h
        split at h
        · cases h
          exact hcourse
        · split at h
          · cases h
            exact hcourse
          · cases h
            exact { hcourse with whole := nofun }

/-- Binds arguments and runs what is called. -/
def Store.callBound (answer : Answering) (r : Ref Injector) (b : Exclusions) (c : Callable)
    (arguments : List (String × Value)) : Work Failure Value := do
  let s ← get
  let passed ← (s.registries.get (s.injectors.get r).registry).bind s.program c arguments
    (some (injection answer r b))
  Work.mapFault .plain (invoke answer c passed)

/-- A course that answers what its last deed gives, and nothing if it stops before. -/
structure Concluded (plan : List Deed) (ds : List Done) (x : Except Failure Value) : Prop where
  given : ∀ v, x = .ok v → ds.getLast?.map Done.outcome = some (.ok v)
  failed : ∀ f, x = .error f → ¬ (ds.map Done.deed = plan ∧ ∀ m ∈ ds, m.outcome.isOk = true)

/-- A phase that stops before its plan is done has no answer. -/
theorem Course.concluded_of_short {f : Failure} {more : List Deed} (hmore : more ≠ [])
    (h : Course answer r b plan s ds t complete) : Concluded (plan ++ more) ds (.error f) where
  given _ hv := by cases hv
  failed _ _ hall := by
    have hlength := h.order.length_le
    rw [hall.1, List.length_append] at hlength
    have hpositive := List.length_pos_iff.mpr hmore
    omega

/-- What comes before a conclusion does not matter to it. -/
theorem Concluded.append {x : Except Failure Value} (hfirst : ds.map Done.deed = plan)
    (hne : ∀ v, x = .ok v → es ≠ []) (h : Concluded plan' es x) :
    Concluded (plan ++ plan') (ds ++ es) x where
  given v hv := by
    rw [List.getLast?_append_of_ne_nil ds (hne v hv)]
    exact h.given v hv
  failed f hf hall := by
    refine h.failed f hf ⟨?_, fun m hm => hall.2 m (List.mem_append_right _ hm)⟩
    rw [List.map_append, hfirst] at hall
    exact List.append_cancel_left hall.1

/-- The requests for what is called come first, then it is run. -/
theorem course_callBound {c : Callable} {arguments : List (String × Value)}
    {x : Except Failure Value} (h : (callBound answer r b c arguments).run u = (x, t)) :
    ∃ passed ds,
      Course answer r b (u.requestsFor r c arguments ++ [.code c passed]) u ds t x.isOk ∧
        Concluded (u.requestsFor r c arguments ++ [.code c passed]) ds x := by
  unfold callBound at h
  rw [run_bind_ok (run_get u), run_bind] at h
  cases hbind : ((u.registries.get (u.injectors.get r).registry).bind u.program c arguments
      (some (injection answer r b))).run u with
  | mk result w =>
    obtain ⟨ds, hcourse⟩ := course_bind hbind
    rw [hbind] at h
    cases result with
    | error f =>
      cases h
      exact ⟨default, ds, hcourse.stopped _, hcourse.concluded_of_short (List.cons_ne_nil _ _)⟩
    | ok passed =>
      have hcode : ((Deed.code c passed).work answer r b).run w = (x, t) := h
      have hlast := Course.single hcode
      refine ⟨passed, ds ++ [⟨.code c passed, w, x, t⟩], hcourse.append hlast,
        Concluded.append (hcourse.whole rfl).1 (fun _ _ => List.cons_ne_nil _ _) ⟨?_, ?_⟩⟩
      · intro v hv
        rw [hv]
        rfl
      · intro f hf hall
        have hok : x.isOk = true := hall.2 _ (List.mem_singleton.mpr rfl)
        rw [hf] at hok
        cases hok

end Courses

/-! ### Phases -/

/-- A phase of a build: the declared arguments of a call, what is called, and what was done. -/
structure Phase where
  cells : List (Ref Argument)
  callable : Option Callable
  before : Store
  deeds : List Done
  outcome : Except Failure Value
  after : Store

namespace Phase

/-- The store in which the declared arguments have their values, as far as they got them. -/
def bound (m : Phase) : Store :=
  ((m.deeds.take m.cells.length).getLast?.map Done.after).getD m.before

/-- The arguments: those that were found, and the given ones in their place. -/
def arguments (given : List (String × Value)) (m : Phase) : List (String × Value) :=
  given.foldl (fun found g => OrderedMap.put g.1 g.2 found) (foundIn [] m.deeds)

/-- What is to be done: the declared arguments in order, the requests of the parameters in order,
and what is called at the end. -/
def plan (r : Ref Injector) (given : List (String × Value)) (passed : Passed) (m : Phase) :
    List Deed :=
  m.cells.map .argument ++
    match m.callable with
    | none => []
    | some c => m.bound.requestsFor r c (m.arguments given) ++ [.code c passed]

/-- The phase follows its plan. It has the answer of what is called, once all of the plan is done.
-/
structure Ordered (answer : Answering) (r : Ref Injector) (b : Exclusions)
    (given : List (String × Value)) (m : Phase) : Prop where
  course : ∃ passed,
    Course answer r b (m.plan r given passed) m.before m.deeds m.after m.outcome.isOk ∧
      (m.callable.isSome = true → Concluded (m.plan r given passed) m.deeds m.outcome)
  called : m.outcome.isOk = true → m.callable.isSome = true

end Phase

section Phases

variable {answer : Answering} {r : Ref Injector} {b : Exclusions} {s t u : Store}
  {ds es : List Done} {given : List (String × Value)}

/-- The last store of what was done. -/
theorem Linked.last (h : Linked s ds t) : (ds.getLast?.map Done.after).getD s = t := by
  induction ds generalizing s with
  | nil => exact h
  | cons m rest ih =>
    have hrest := ih h.2
    cases rest with
    | nil => exact hrest
    | cons e rest => exact hrest

/-- Behind the declared arguments no more values are found by name. -/
theorem foundIn_append (found : List (String × Value)) (hes : ∀ m ∈ es, ∀ a, m.deed ≠ .argument a) :
    foundIn found (ds ++ es) = foundIn found ds := by
  unfold foundIn
  rw [List.foldl_append]
  generalize ds.foldl _ found = found'
  induction es generalizing found' with
  | nil => rfl
  | cons m rest ih =>
    rw [List.foldl_cons]
    have hm := hes m List.mem_cons_self
    have hsame : (match m.deed, m.outcome with
        | .argument cell, .ok v => OrderedMap.put (m.before.arguments.get cell).name v found'
        | _, _ => found') = found' := by
      cases hdeed : m.deed with
      | argument cell => exact absurd hdeed (hm cell)
      | injection parameter interface => rfl
      | code c passed => rfl
    rw [hsame]
    exact ih (fun e he => hes e (List.mem_cons_of_mem m he)) found'

/-- Requests are no declared arguments, and neither is what is called. -/
theorem not_argument_of_mem {c : Callable} {arguments : List (String × Value)} {passed : Passed}
    {e : Deed} (h : e ∈ u.requestsFor r c arguments ++ [.code c passed]) (a : Ref Argument) :
    e ≠ .argument a := by
  rintro rfl
  rcases List.mem_append.mp h with h | h
  · unfold Store.requestsFor at h
    split at h
    · cases h
    · obtain ⟨q, -, hq⟩ := List.mem_filterMap.mp h
      obtain ⟨k, -, hk⟩ := Option.map_eq_some_iff.mp hq
      cases hk
  · cases List.mem_singleton.mp h

/-- A phase finds its declared arguments and goes on with what is then called. Without that it
fails. -/
theorem exists_phase (given : List (String × Value)) (callable : Store → Option Callable)
    {cells : List (Ref Argument)} {rest : List (String × Value) → Work Failure Value}
    {x : Except Failure Value}
    (hnone : ∀ values u, callable u = none → ∃ f, (rest values).run u = (.error f, u))
    (hsome : ∀ values u c, callable u = some c → (rest values).run u
      = (callBound answer r b c
          (given.foldl (fun found g => OrderedMap.put g.1 g.2 found) values)).run u)
    (h : (argumentValues answer r b [] cells >>= rest).run s = (x, t)) :
    ∃ m : Phase, m.Ordered answer r b given ∧ m.cells = cells ∧ m.callable = callable m.bound ∧
      m.before = s ∧ m.outcome = x ∧ m.after = t := by
  rw [run_bind] at h
  cases hvalues : (argumentValues answer r b [] cells).run s with
  | mk result u =>
    obtain ⟨ds, hcourse, hfound⟩ := course_argumentValues cells hvalues
    rw [hvalues] at h
    have hlength : ds.length ≤ cells.length := by simpa using hcourse.order.length_le
    cases result with
    | error f =>
      cases h
      -- The phase stops at a declared argument.
      have hbound : (Phase.mk cells (callable t) s ds (.error f) t).bound = t := by
        show ((ds.take cells.length).getLast?.map Done.after).getD s = t
        rw [List.take_of_length_le hlength, hcourse.linked.last]
      refine ⟨⟨cells, callable t, s, ds, .error f, t⟩,
        ⟨⟨default, hcourse.stopped _, fun hc => ?_⟩, nofun⟩, rfl, by rw [hbound], rfl, rfl, rfl⟩
      obtain ⟨c, hc⟩ := Option.isSome_iff_exists.mp hc
      have hc : callable t = some c := hc
      refine hcourse.concluded_of_short ?_
      dsimp only
      rw [hc]
      exact List.append_ne_nil_of_right_ne_nil _ (List.cons_ne_nil _ _)
    | ok values =>
      have hwhole := hcourse.whole rfl
      have hfull : ds.length = cells.length := by simpa using congrArg List.length hwhole.1
      have hvalues : values = foundIn [] ds := hfound values rfl
      have hbound : ∀ es, (Phase.mk cells (callable u) s (ds ++ es) x t).bound = u := by
        intro es
        show (((ds ++ es).take cells.length).getLast?.map Done.after).getD s = u
        rw [List.take_append_of_le_length hfull.ge, List.take_of_length_le hfull.le,
          hcourse.linked.last]
      cases hc : callable u with
      | none =>
        obtain ⟨f, hf⟩ := hnone values u hc
        cases h.symm.trans hf
        have hstore := hbound []
        rw [List.append_nil] at hstore
        refine ⟨⟨cells, callable t, s, ds, .error f, t⟩,
          ⟨⟨default, hcourse.stopped _, fun hsome => ?_⟩, nofun⟩, rfl, by rw [hstore], rfl, rfl,
          rfl⟩
        have hsome : (callable t).isSome = true := hsome
        rw [hc] at hsome
        cases hsome
      | some c =>
        have hrun := (hsome values u c hc).symm.trans h
        obtain ⟨passed, es, hcourse', hconcluded⟩ := course_callBound hrun
        have hes : ∀ m ∈ es, ∀ a, m.deed ≠ .argument a := fun m hm =>
          not_argument_of_mem (hcourse'.order.subset (List.mem_map_of_mem hm))
        set m : Phase := ⟨cells, callable u, s, ds ++ es, x, t⟩ with hm
        have harguments : m.arguments given
            = given.foldl (fun found g => OrderedMap.put g.1 g.2 found) values := by
          show given.foldl _ (foundIn [] (ds ++ es)) = _
          rw [foundIn_append [] hes, ← hvalues]
        have hplan : m.plan r given passed = cells.map .argument ++
            (u.requestsFor r c (m.arguments given) ++ [.code c passed]) := by
          unfold Phase.plan
          rw [hbound es, show m.callable = some c from hc]
        rw [← harguments] at hcourse' hconcluded
        refine ⟨m, ⟨⟨passed, ?_, fun _ => ?_⟩, fun _ => ?_⟩, rfl, by rw [hbound es], rfl, rfl, rfl⟩
        · rw [hplan]
          exact hcourse.append hcourse'
        · rw [hplan]
          refine Concluded.append hwhole.1 (fun v hv hnil => ?_) hconcluded
          have hlast := hconcluded.given v hv
          rw [hnil] at hlast
          cases hlast
        · show (callable u).isSome = true
          rw [hc]
          rfl

/-! ### The constructor -/

/-- Constructing by way of a call is constructing. -/
theorem invoke_construct (c : ClassRef) (passed : Passed) :
    invoke answer (.construct c) passed = running (.construct c) (construct c passed) := by
  have hperform : perform answer (.construct c) passed = construct c passed := by
    funext s
    exact run_bind_ok (run_get s)
  unfold invoke
  rw [hperform]

/-- The constructor of a definition, if its class is registered. -/
def Store.constructor? (s : Store) (r : Ref Injector) (d : Ref DefinitionCell) : Option Callable :=
  (((s.registries.get (s.injectors.get r).registry).class?
    (.text (s.definitions.get d).className)).toOption).map .construct

/-- Of a class that is not registered no object is made. -/
theorem run_create_of_unknown {g : Registry} {p : Program} {name : Value}
    {arguments : List (String × Value)} {inject : Option Injection}
    (h : (g.class? name).toOption = none) :
    ∃ f, (g.create p name arguments inject).run u = (.error f, u) := by
  cases hclass : g.class? name with
  | ok c =>
    rw [hclass] at h
    cases h
  | error f =>
    refine ⟨.plain f, ?_⟩
    unfold Registry.create
    rw [hclass]
    exact run_bind_error (run_lift _ u)

/-- Of a class that is registered an object is made by way of a call. -/
theorem run_create_of_known {name : Value} {arguments : List (String × Value)} {c : ClassRef}
    (h : ((u.registries.get (u.injectors.get r).registry).class? name).toOption = some c) :
    ((u.registries.get (u.injectors.get r).registry).create u.program name arguments
      (some (injection answer r b))).run u
      = (callBound answer r b (.construct c) arguments).run u := by
  cases hclass : (u.registries.get (u.injectors.get r).registry).class? name with
  | error f =>
    rw [hclass] at h
    cases h
  | ok k =>
    rw [hclass] at h
    cases h
    unfold callBound Registry.create
    rw [hclass, run_bind_ok (run_get u)]
    simp only [invoke_construct]
    exact run_bind_ok (run_lift _ u)

/-- The phase is that of the constructor of a definition. -/
structure Phase.Constructs (r : Ref Injector) (d : Ref DefinitionCell) (m : Phase) : Prop where
  cells : m.cells = m.before.constructorCells d
  callable : m.callable = m.bound.constructor? r d

/-- An object is constructed in a phase. -/
theorem exists_phase_of_constructDefined {d : Ref DefinitionCell} {x : Except Failure Value}
    (h : (constructDefined answer r b d given).run s = (x, t)) :
    ∃ m : Phase, m.Ordered answer r b given ∧ m.Constructs r d ∧ m.before = s ∧ m.outcome = x ∧
      m.after = t := by
  rw [constructDefined_eq, run_bind_ok (run_get s)] at h
  have hphase : ∃ m : Phase, m.Ordered answer r b given ∧ m.cells = s.constructorCells d ∧
      m.callable = m.bound.constructor? r d ∧ m.before = s ∧ m.outcome = x ∧ m.after = t := by
    refine exists_phase given (fun u => u.constructor? r d) ?_ ?_ h
    · intro values u hc
      rw [run_bind_ok (run_get u)]
      exact run_create_of_unknown (Option.map_eq_none_iff.mp hc)
    · intro values u c hc
      obtain ⟨k, hk, rfl⟩ := Option.map_eq_some_iff.mp hc
      rw [run_bind_ok (run_get u)]
      exact run_create_of_known hk
  obtain ⟨m, hm, hcells, hcallable, hbefore, houtcome, hafter⟩ := hphase
  exact ⟨m, hm, ⟨hbefore ▸ hcells, hcallable⟩, hbefore, houtcome, hafter⟩

/-! ### Calls -/

/-- What a method of an object is, if it can be called. -/
def Store.method? (s : Store) (object : Value) (method : String) : Option Callable :=
  match ((valueAttribute object method).run s).1 with
  | .ok (.callable c) => some c
  | _ => none

/-- The phase is that of a call on an object. Without the method nothing is done. -/
structure Phase.Calls (object : Value) (c : Ref CallCell) (m : Phase) : Prop where
  cells : m.cells = (m.before.calls.get c).arguments
  callable : m.callable = m.before.method? object (m.before.calls.get c).method
  missing : m.callable = none → m.deeds = []

/-- Arguments are found, and then what is called is run. -/
theorem callFrom_eq (c : Callable) (cells : List (Ref Argument)) :
    callFrom answer r b c cells
      = (argumentValues answer r b [] cells >>= callBound answer r b c) >>= fun _ => pure () := by
  unfold callFrom callBound
  simp only [bind_assoc]

/-- A call is run in a phase. -/
theorem exists_phase_of_runDefinedCall {d : Ref DefinitionCell} {object : Value} {c : Ref CallCell}
    {x : Except Failure Unit} (h : (runDefinedCall answer r b d object c).run s = (x, t)) :
    ∃ m : Phase, m.Ordered answer r b [] ∧ m.Calls object c ∧ m.before = s ∧
      m.outcome.map (fun _ => ()) = x ∧ m.after = t := by
  rw [runDefinedCall_eq, run_bind_ok (run_read c s)] at h
  have h : (Work.mapFault .plain (valueAttribute object (s.calls.get c).method) >>=
    callAttribute answer r b d c (s.calls.get c).method).run s = (x, t) := h
  have hlooked : ∀ result, ((valueAttribute object (s.calls.get c).method).run s).1 = result →
      (Work.mapFault Failure.plain (valueAttribute object (s.calls.get c).method)).run s
        = (result.mapError Failure.plain, s) := by
    intro result hresult
    rw [run_mapFault, hresult, run_valueAttribute_snd]
  have hmethod : ∀ result, ((valueAttribute object (s.calls.get c).method).run s).1 = result →
      s.method? object (s.calls.get c).method
        = match result with
          | .ok (.callable callback) => some callback
          | _ => none := by
    rintro result rfl
    rfl
  cases hresult : ((valueAttribute object (s.calls.get c).method).run s).1 with
  | error f =>
    rw [run_bind_error (hlooked _ hresult)] at h
    cases h
    exact ⟨⟨(s.calls.get c).arguments, none, s, [], .error _, s⟩,
      ⟨⟨default, (Course.nil s true).stopped _, nofun⟩, nofun⟩,
      ⟨rfl, (hmethod _ hresult).symm, fun _ => rfl⟩, rfl, rfl, rfl⟩
  | ok found =>
    rw [run_bind_ok (hlooked _ hresult)] at h
    -- Without a method the phase fails before anything is done.
    have hmissing : (read d >>= fun x =>
          throw (.plain (.definition (.noSuchMethod x.className (s.calls.get c).method))) :
          Work Failure Unit).run s = (x, t) → s.method? object (s.calls.get c).method = none →
        ∃ m : Phase, m.Ordered answer r b [] ∧ m.Calls object c ∧ m.before = s ∧
          m.outcome.map (fun _ => ()) = x ∧ m.after = t := by
      intro hrun hnone
      rw [run_bind_ok (run_read d s)] at hrun
      cases hrun
      exact ⟨⟨(s.calls.get c).arguments, none, s, [], .error _, s⟩,
        ⟨⟨default, (Course.nil s true).stopped _, nofun⟩, nofun⟩,
        ⟨rfl, hnone.symm, fun _ => rfl⟩, rfl, rfl, rfl⟩
    cases found with
    | missing => exact hmissing h (hmethod _ hresult)
    | plain => exact hmissing h (hmethod _ hresult)
    | callable callback =>
      have h : (callFrom answer r b callback (s.calls.get c).arguments).run s = (x, t) := by
        unfold callAttribute at h
        rwa [run_bind_ok (run_read c s)] at h
      rw [callFrom_eq, run_bind] at h
      cases hrun : (argumentValues answer r b [] (s.calls.get c).arguments >>=
          callBound answer r b callback).run s with
      | mk result u =>
        obtain ⟨m, hordered, hcells, hcallable, rfl, rfl, rfl⟩ :=
          exists_phase [] (fun _ => some callback) nofun
            (fun _ _ _ hc => by cases hc; rfl) hrun
        refine ⟨m, hordered, ⟨hcells, by rw [hcallable, hmethod _ hresult], fun hnone => ?_⟩, rfl,
          ?_⟩
        · rw [hcallable] at hnone
          cases hnone
        · rw [hrun] at h
          cases hm : m.outcome with
          | ok v =>
            rw [hm] at h
            cases h
            exact ⟨rfl, rfl⟩
          | error f =>
            rw [hm] at h
            cases h
            exact ⟨rfl, rfl⟩

end Phases

/-! ### Builds -/

/-- Phases, each of which begins in the store that the one before it left. -/
def Chained : Store → List Phase → Store → Prop
  | s, [], t => s = t
  | s, m :: rest, t => m.before = s ∧ Chained m.after rest t

/-- Calls that are run in turn on an object. Only the last of them may fail, and then the others are
not begun. -/
structure Calling (answer : Answering) (r : Ref Injector) (b : Exclusions) (interface : String)
    (d : Ref DefinitionCell) (object : Value) (index : Nat) (calls : List (Ref CallCell))
    (s : Store) (phases : List Phase) (x : Except Fault Unit) (t : Store) : Prop where
  chained : Chained s phases t
  ordered : ∀ m ∈ phases, m.Ordered answer r b []
  /-- The phases are those of the first calls. -/
  begun : ∃ begun rest, calls = begun ++ rest ∧ List.Forall₂ (Phase.Calls object) begun phases
  /-- A phase that is followed by another one is complete. -/
  earlier : ∀ m ∈ phases.dropLast, m.outcome.isOk = true
  succeeds : x = .ok () ↔ phases.length = calls.length ∧ ∀ m ∈ phases, m.outcome.isOk = true
  fails : ∀ f, x = .error f → ∃ m failure method, phases.getLast? = some m ∧
    m.outcome = .error failure ∧
    f = reportedFault interface d (index + phases.length - 1) method t failure

section Builds

variable {answer : Answering} {r : Ref Injector} {b : Exclusions} {interface : String}
  {d : Ref DefinitionCell} {object : Value} {s t u : Store}

/-- A complete phase goes before phases of which only the last may fail. -/
theorem earlier_cons {m : Phase} {phases : List Phase} (hm : m.outcome.isOk = true)
    (h : ∀ e ∈ phases.dropLast, e.outcome.isOk = true) :
    ∀ e ∈ (m :: phases).dropLast, e.outcome.isOk = true := by
  cases phases with
  | nil => exact fun e he => absurd he List.not_mem_nil
  | cons e' rest =>
    rw [List.dropLast_cons_of_ne_nil (List.cons_ne_nil e' rest)]
    exact List.forall_mem_cons.mpr ⟨hm, h⟩

/-- Calls that are run in turn are gone through up to the first that fails. -/
theorem exists_calling (calls : List (Ref CallCell)) :
    ∀ {index : Nat} {s : Store} {x : Except Fault Unit} {t : Store},
      (runDefinedCalls answer r b interface d object index calls).run s = (x, t) →
      ∃ phases, Calling answer r b interface d object index calls s phases x t := by
  induction calls with
  | nil =>
    intro index s x t h
    cases h
    exact ⟨[], {
      chained := rfl
      ordered := fun _ hm => absurd hm List.not_mem_nil
      begun := ⟨[], [], rfl, .nil⟩
      earlier := fun _ hm => absurd hm List.not_mem_nil
      succeeds := ⟨fun _ => ⟨rfl, fun _ hm => absurd hm List.not_mem_nil⟩, fun _ => rfl⟩
      fails := fun _ hf => by cases hf }⟩
  | cons c rest ih =>
    intro index s x t h
    unfold runDefinedCalls at h
    rw [run_bind_ok (run_read c s), run_bind, run_reported] at h
    cases hrun : (runDefinedCall answer r b d object c).run s with
    | mk result u =>
      obtain ⟨m, hordered, hcalls, rfl, hresult, rfl⟩ := exists_phase_of_runDefinedCall hrun
      rw [hrun] at h
      cases result with
      | error failure =>
        cases h
        have hfailure : m.outcome = .error failure := by
          cases hm : m.outcome with
          | ok v =>
            rw [hm] at hresult
            cases hresult
          | error f =>
            rw [hm] at hresult
            cases hresult
            rfl
        refine ⟨[m], {
          chained := ⟨rfl, rfl⟩
          ordered := fun e he => List.mem_singleton.mp he ▸ hordered
          begun := ⟨[c], rest, rfl, .cons hcalls .nil⟩
          earlier := fun _ he => absurd he List.not_mem_nil
          succeeds := ⟨(fun h => by cases h), fun hall => ?_⟩
          fails := fun f hf => ?_ }⟩
        · have hok := hall.2 m (List.mem_singleton.mpr rfl)
          rw [hfailure] at hok
          cases hok
        · cases hf
          exact ⟨m, failure, _, rfl, hfailure, rfl⟩
      | ok _ =>
        have hok : m.outcome.isOk = true := by
          cases hm : m.outcome with
          | ok v => rfl
          | error f =>
            rw [hm] at hresult
            cases hresult
        obtain ⟨phases, hrest⟩ := ih h
        obtain ⟨begun, left, hbegun, hphases⟩ := hrest.begun
        refine ⟨m :: phases, {
          chained := ⟨rfl, hrest.chained⟩
          ordered := List.forall_mem_cons.mpr ⟨hordered, hrest.ordered⟩
          begun := ⟨c :: begun, left, by rw [hbegun, List.cons_append], .cons hcalls hphases⟩
          earlier := earlier_cons hok hrest.earlier
          succeeds := hrest.succeeds.trans ?_
          fails := fun f hf => ?_ }⟩
        · rw [List.length_cons, List.length_cons, Nat.add_right_cancel_iff, List.forall_mem_cons]
          exact and_congr_right fun _ => ⟨fun hall => ⟨hok, hall⟩, fun hall => hall.2⟩
        · obtain ⟨e, failure, method, hlast, hfailure, rfl⟩ := hrest.fails f hf
          have hne : phases ≠ [] := by
            rintro rfl
            cases hlast
          refine ⟨e, failure, method, ?_, hfailure, ?_⟩
          · rw [List.getLast?_cons_of_ne_nil hne, hlast]
          · have hlength := List.length_pos_iff.mpr hne
            rw [List.length_cons]
            congr 1
            omega

/-- A build goes through the phase of the constructor and then through one phase for each call, all
on the object that was constructed, up to the first phase that fails. -/
structure Sequence (answer : Answering) (r : Ref Injector) (b : Exclusions) (interface : String)
    (d : Ref DefinitionCell) (s : Store) (first : Phase) (calls : List Phase)
    (x : Except Fault Value) (t : Store) : Prop where
  constructs : first.Constructs r d
  /-- Every phase begins in the store that the one before it left. -/
  chained : Chained s (first :: calls) t
  ordered : ∀ m ∈ first :: calls, m.Ordered answer r b []
  /-- The phases behind the first one are those of the first calls, in their order. -/
  begun : ∀ object, first.outcome = .ok object →
    ∃ begun rest, (first.after.definitions.get d).callList = begun ++ rest ∧
      List.Forall₂ (Phase.Calls object) begun calls
  /-- A phase that is followed by another one is complete. -/
  earlier : ∀ m ∈ (first :: calls).dropLast, m.outcome.isOk = true
  /-- The object is given if all phases are complete. -/
  succeeds : ∀ object, x = .ok object ↔ first.outcome = .ok object ∧
    calls.length = (first.after.definitions.get d).callList.length ∧
    ∀ m ∈ calls, m.outcome.isOk = true
  /-- Otherwise the last phase fails, and the fault has its number. -/
  fails : ∀ f, x = .error f → ∃ m failure method, (first :: calls).getLast? = some m ∧
    m.outcome = .error failure ∧ f = reportedFault interface d calls.length method t failure

/-- What is assembled is built in sequence. -/
theorem exists_sequence {x : Except Fault Value}
    (h : (assemble answer r interface d b none).run s = (x, t)) :
    ∃ first calls, Sequence answer r b interface d s first calls x t := by
  unfold assemble at h
  rw [run_bind, run_reported] at h
  cases hrun : (constructDefined answer r b d (Option.getD none [])).run s with
  | mk result u =>
    obtain ⟨m, hordered, hconstructs, rfl, rfl, rfl⟩ := exists_phase_of_constructDefined hrun
    rw [hrun] at h
    cases hm : m.outcome with
    | error failure =>
      rw [hm] at h
      cases h
      refine ⟨m, [], {
        constructs := hconstructs
        chained := ⟨rfl, rfl⟩
        ordered := fun e he => List.mem_singleton.mp he ▸ hordered
        begun := fun object hobject => ?_
        earlier := fun _ he => absurd he List.not_mem_nil
        succeeds := fun object => ⟨nofun, fun hall => ?_⟩
        fails := fun f hf => ?_ }⟩
      · rw [hm] at hobject
        cases hobject
      · rw [hm] at hall
        cases hall.1
      · cases hf
        exact ⟨m, failure, _, rfl, hm, rfl⟩
    | ok object =>
      rw [hm] at h
      have hok : m.outcome.isOk = true := by
        rw [hm]
        rfl
      have h : (runDefinedCalls answer r b interface d object 1
          (m.after.definitions.get d).callList >>= fun _ => pure object).run m.after = (x, t) := h
      rw [run_bind] at h
      cases hcalls : (runDefinedCalls answer r b interface d object 1
          (m.after.definitions.get d).callList).run m.after with
      | mk result u =>
        obtain ⟨calls, hcalling⟩ := exists_calling _ hcalls
        rw [hcalls] at h
        obtain ⟨rfl, hx⟩ : u = t ∧ x = result.map fun _ => object := by
          cases result with
          | ok _ =>
            cases h
            exact ⟨rfl, rfl⟩
          | error f =>
            cases h
            exact ⟨rfl, rfl⟩
        have hobject : ∀ object', m.outcome = .ok object' → object' = object := by
          intro object' hobject'
          rw [hm] at hobject'
          exact (Except.ok.inj hobject').symm
        refine ⟨m, calls, {
          constructs := hconstructs
          chained := ⟨rfl, hcalling.chained⟩
          ordered := List.forall_mem_cons.mpr ⟨hordered, hcalling.ordered⟩
          begun := fun object' hobject' => hobject object' hobject' ▸ hcalling.begun
          earlier := earlier_cons hok hcalling.earlier
          succeeds := fun object' => ?_
          fails := fun f hf => ?_ }⟩
        · rw [hx, Except.map_eq_ok, hm, ← hcalling.succeeds]
          constructor
          · rintro ⟨_, hresult, rfl⟩
            exact ⟨rfl, hresult⟩
          · rintro ⟨hobject', hresult⟩
            exact ⟨(), hresult, Except.ok.inj hobject'⟩
        · cases result with
          | ok _ =>
            rw [hx] at hf
            cases hf
          | error f' =>
            rw [hx] at hf
            cases hf
            obtain ⟨e, failure, method, hlast, hfailure, rfl⟩ := hcalling.fails f rfl
            have hne : calls ≠ [] := by
              rintro rfl
              cases hlast
            refine ⟨e, failure, method, ?_, hfailure, ?_⟩
            · rw [List.getLast?_cons_of_ne_nil hne, hlast]
            · congr 1
              omega

/-- What is done in phases that follow one another is one line of deeds. -/
theorem Chained.linked {phases : List Phase} {given : List (String × Value)}
    (h : Chained s phases t) (hall : ∀ m ∈ phases, m.Ordered answer r b given) :
    Linked s (phases.flatMap Phase.deeds) t := by
  induction phases generalizing s with
  | nil => exact h
  | cons m rest ih =>
    obtain ⟨hm, hrest⟩ := List.forall_mem_cons.mp hall
    obtain ⟨passed, hcourse, -⟩ := hm.course
    rw [List.flatMap_cons]
    exact (h.1 ▸ hcourse.linked).append (ih h.2 hrest)

/-- The store in which the build of a definition is opened. -/
def Store.opened (s : Store) (interface : String) (d : Ref DefinitionCell) : Store :=
  let x := s.definitions.get d
  let key : DefinitionKey := ⟨interface, x.identifier⟩
  { s with
    journal := .opened key d.index x.className :: s.journal
    log := s.log ++ [.creating key x.className] }

/-- The store in which the build of a definition is closed. -/
def Store.closed (s : Store) (k : DefinitionKey) (d : Ref DefinitionCell) : Store :=
  { s with journal := .closed k d.index :: s.journal }

/-- A build is noted, and it assembles its object in between. -/
theorem run_build (answer : Answering) (r : Ref Injector) (interface : String)
    (d : Ref DefinitionCell) (b : Exclusions) (given : Given) (s : Store) :
    (build answer r interface d b given).run s
      = match (assemble answer r interface d
          (b.insert ⟨interface, (s.definitions.get d).identifier⟩) given).run
            (s.opened interface d) with
        | (.ok v, u) => (.ok v, u.closed ⟨interface, (s.definitions.get d).identifier⟩ d)
        | (.error e, u) => (.error e, u) := by
  unfold build
  rw [run_bind_ok (run_read d s), run_bind_ok (run_note _ s), run_bind_ok (run_report _ _),
    run_bind]
  have hopened : ({ s with
      journal := .opened ⟨interface, ((Stored.cells s).get d).identifier⟩ d.index
        ((Stored.cells s).get d).className :: s.journal
      log := s.log ++ [.creating ⟨interface, ((Stored.cells s).get d).identifier⟩
        ((Stored.cells s).get d).className] } : Store) = s.opened interface d := rfl
  rw [hopened]
  have hidentifier : ((Stored.cells s).get d).identifier = (s.definitions.get d).identifier := rfl
  rw [hidentifier]
  cases (assemble answer r interface d (b.insert ⟨interface, (s.definitions.get d).identifier⟩)
      given).run (s.opened interface d) with
  | mk result u => cases result <;> rfl

/-- A request that builds a definition does so in sequence: it finds the values of the constructor's
declared arguments in order, requests what the parameters without argument want in their order, and
runs the constructor once. Then it does the same for each call, on the object that was constructed.
The deeds follow one another, and nothing else happens in between. With the first deed that fails,
all ends, and no object is given. All this holds of any depth, so of nested requests too. -/
theorem answer_sequence {n : Nat} {q : Request} {key : DefinitionKey} (hkey : q.key? = .ok key)
    (hunserved : s.Unserved r key q.exclude none) (hselected : s.selected r q key = .ok d)
    {x : Except Fault Value} (h : (Store.answer (n + 1) r q none).run s = (x, t)) :
    let k : DefinitionKey := ⟨key.interface, (s.definitions.get d).identifier⟩
    let start := (s.asked q).opened key.interface d
    ∃ first calls u,
      Sequence (Store.answer n) r (q.building.insert k) key.interface d start first calls x u ∧
      Linked start ((first :: calls).flatMap Phase.deeds) u ∧
      t = if x.isOk then u.closed k d else u := by
  have h : (step (Store.answer n) r q none).run s = (x, t) := h
  rw [run_step hkey hunserved, hselected] at h
  dsimp only at h
  rw [run_build] at h
  have hidentifier : ((s.asked q).definitions.get d).identifier
      = (s.definitions.get d).identifier := rfl
  rw [hidentifier] at h
  cases hrun : (assemble (Store.answer n) r key.interface d
      (q.building.insert ⟨key.interface, (s.definitions.get d).identifier⟩) none).run
        ((s.asked q).opened key.interface d) with
  | mk result u =>
    obtain ⟨first, calls, hsequence⟩ := exists_sequence hrun
    rw [hrun] at h
    have hx : x = result := by
      cases result <;> cases h <;> rfl
    subst hx
    refine ⟨first, calls, u, hsequence, hsequence.chained.linked hsequence.ordered, ?_⟩
    cases x with
    | ok v =>
      cases h
      rfl
    | error e =>
      cases h
      rfl

end Builds

/-- A program with a class of doors. A door has a lock, and slamming it fails. -/
def doorProgram : Program :=
  ⟨[⟨"app", "Lock", none, none, [], []⟩,
    ⟨"app", "Door", none,
      some ⟨[.optional "name", ⟨"lock", .normal, none, .named (.declared 0)⟩], none,
        .literal (.value .null)⟩,
      [⟨"open", .bound, ⟨[], none, .self⟩⟩,
        ⟨"slam", .bound, ⟨[], some ("ValueError", "no"), .self⟩⟩], []⟩], []⟩

/-- A door that is opened, slammed, and opened once more, with a definition of its lock. -/
def doorStore : Store :=
  { Store.empty doorProgram with
    arguments := ⟨[⟨"name", "scalar", [(.text "value", .text "front")]⟩]⟩
    calls := ⟨[⟨"__construct", none, [⟨0⟩]⟩, ⟨"open", some "c0", []⟩, ⟨"slam", some "c1", []⟩,
      ⟨"open", some "c2", []⟩]⟩
    definitions := ⟨[⟨"Door", none, ["Door"], some ⟨0⟩,
        OrderedMap.ofList [("c0", ⟨1⟩), ("c1", ⟨2⟩), ("c2", ⟨3⟩)]⟩,
      ⟨"Lock", none, ["Lock"], none, .empty⟩]⟩
    containers := ⟨[(Container.empty.addOne "Door" none ⟨0⟩).addOne "Lock" none ⟨1⟩]⟩
    registries := ⟨[(Registry.empty.register doorProgram (.declared 0) (some "Lock")).register
      doorProgram (.declared 1) (some "Door")]⟩
    injectors := ⟨[⟨⟨0⟩, ⟨0⟩, none, Parser.standard, .empty⟩]⟩ }

/-- The number of the call at which a build failed. -/
def failedCall : Except Fault Value → Option Nat
  | .error (.resolution site _) => some site.callIndex
  | _ => none

/-- The door is made with its name and its lock and opened, then slamming it fails, and it is not
opened once more. -/
theorem answer_sequence_door :
    let q := Request.plain (.text "Door") .null
    doorStore.Unserved ⟨0⟩ ⟨"Door", none⟩ q.exclude none ∧
      doorStore.selected ⟨0⟩ q ⟨"Door", none⟩ = .ok ⟨0⟩ ∧
      ∃ first opening slamming f u,
        Sequence (Store.answer 2) ⟨0⟩ (q.building.insert ⟨"Door", none⟩) "Door" ⟨0⟩
          ((doorStore.asked q).opened "Door" ⟨0⟩) first [opening, slamming] (.error f) u ∧
        first.outcome.isOk = true ∧ opening.outcome.isOk = true ∧
        slamming.outcome.isOk = false := by
  intro q
  have hunserved : doorStore.Unserved ⟨0⟩ ⟨"Door", none⟩ q.exclude none :=
    .inr (.inr fun v h => by cases h)
  have hkey : q.key? = .ok ⟨"Door", none⟩ := rfl
  have hselected : doorStore.selected ⟨0⟩ q ⟨"Door", none⟩ = .ok ⟨0⟩ := by decide +kernel
  have hindex : failedCall ((Store.answer 3 ⟨0⟩ q none).run doorStore).1 = some 2 := by
    decide +kernel
  cases hrun : (Store.answer 3 ⟨0⟩ q none).run doorStore with
  | mk x t =>
  rw [hrun] at hindex
  obtain ⟨first, calls, u, hsequence, -, -⟩ :=
    answer_sequence hkey hunserved hselected hrun
  cases x with
  | ok v => cases hindex
  | error f =>
    obtain ⟨m, failure, method, hlast, hfailure, rfl⟩ := hsequence.fails f rfl
    have hlength : calls.length = 2 := Option.some.inj hindex
    obtain ⟨opening, slamming, rfl⟩ := List.length_eq_two.mp hlength
    cases hlast
    refine ⟨hunserved, hselected, first, opening, slamming, _, u, hsequence,
      hsequence.earlier first (.head _), hsequence.earlier opening (.tail _ (.head _)), ?_⟩
    have hslammed : slamming.outcome = .error failure := hfailure
    rw [hslammed]
    rfl

end Wiring
