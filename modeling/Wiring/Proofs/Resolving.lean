import Wiring.Proofs.Building

/-!
# `Wiring.Proofs.Resolving`: the engine goes through orderly moments

Each part of the engine keeps the invariant `Work.Conforms` when the way in which nested requests
are answered does. A nested request comes from a dependency, from the target of a call or from a
parameter without argument. It passes on what is being built, and without identifier it excludes
that.
-/

set_option autoImplicit false

namespace Wiring

variable {C : Comparison} {I : Store → Prop} [Steady I] {O : List DefinitionKey} {b : Exclusions}

/-- A request that is made while some definitions are being built. -/
def Request.Nested (b : Exclusions) (q : Request) : Prop :=
  q.building = b ∧ (q.identifier.truthy = true ∨ q.exclude = b)

/-- Two injectors that differ at most in their containers. -/
structure Injector.Alike (i j : Injector) : Prop where
  registry : j.registry = i.registry
  config : j.config = i.config
  parsers : j.parsers = i.parsers
  instances : j.instances = i.instances

theorem Injector.Alike.refl (i : Injector) : i.Alike i := ⟨rfl, rfl, rfl, rfl⟩

/-- Two injectors that differ at most in their containers and in the objects that were set. -/
structure Injector.Akin (i j : Injector) : Prop where
  registry : j.registry = i.registry
  config : j.config = i.config
  parsers : j.parsers = i.parsers

theorem Injector.Alike.akin {i j : Injector} (h : i.Alike j) : i.Akin j :=
  ⟨h.registry, h.config, h.parsers⟩

/-- Two cells that stand for the same argument in every store of an invariant. -/
def ArgumentTwins (I : Store → Prop) (a a' : Ref Argument) : Prop :=
  ∀ s, I s → s.argument a' = s.argument a

/-- Two cells that stand for the same call in every store of an invariant. -/
structure CallTwins (I : Store → Prop) (c c' : Ref CallCell) : Prop where
  method : ∀ s, I s → (s.calls.get c').method = (s.calls.get c).method
  arguments : ∀ s, I s →
    List.Forall₂ (ArgumentTwins I) (s.calls.get c).arguments (s.calls.get c').arguments

/-- Two cells of definitions with one class and one identifier in every store of an invariant. -/
structure DefinitionNames (I : Store → Prop) (d d' : Ref DefinitionCell) : Prop where
  className : ∀ s, I s → (s.definitions.get d').className = (s.definitions.get d).className
  identifier : ∀ s, I s → (s.definitions.get d').identifier = (s.definitions.get d).identifier

/-- Two cells from which the same is built in every store of an invariant. -/
structure DefinitionTwins (I : Store → Prop) (d d' : Ref DefinitionCell) : Prop where
  className : ∀ s, I s → (s.definitions.get d').className = (s.definitions.get d).className
  identifier : ∀ s, I s → (s.definitions.get d').identifier = (s.definitions.get d).identifier
  constructor : ∀ s, I s →
    Option.Rel (CallTwins I) (s.definitions.get d).constructor (s.definitions.get d').constructor
  calls : ∀ s, I s →
    List.Forall₂ (CallTwins I) (s.definitions.get d).callList (s.definitions.get d').callList

omit [Steady I] in
theorem DefinitionTwins.names {d d' : Ref DefinitionCell} (h : DefinitionTwins I d d') :
    DefinitionNames I d d' := ⟨h.className, h.identifier⟩

omit [Steady I] in
theorem argumentTwins_refl (a : Ref Argument) : ArgumentTwins I a a := fun _ _ => rfl

omit [Steady I] in
theorem callTwins_refl (c : Ref CallCell) : CallTwins I c c :=
  ⟨fun _ _ => rfl, fun _ _ => List.forall₂_same.mpr fun _ _ => argumentTwins_refl _⟩

omit [Steady I] in
theorem definitionTwins_refl (d : Ref DefinitionCell) : DefinitionTwins I d d where
  className _ _ := rfl
  identifier _ _ := rfl
  constructor s _ := by
    cases (s.definitions.get d).constructor with
    | none => exact .none
    | some c => exact .some (callTwins_refl c)
  calls _ _ := List.forall₂_same.mpr fun _ _ => callTwins_refl _

open Work Store

/-! ### Code that is run -/

/-- Running what can be called conforms unless it is a member of a component. -/
theorem conforms_running {α : Type} {c : Callable} {w w' : Action α}
    (h : c.isOwn = false → w' = w ∧ ∀ s₀ : Store, Keeps s₀.Grows w) :
    Conforms C I O O (running c w) (running c w') := by
  refine ⟨fun s hs hu => ?_, fun s j hs halike hO hu _ => ?_⟩
  · cases hrun : w.run { s with journal := .ran c :: s.journal } with
    | mk x t =>
      rw [run_running hrun] at hu
      have hj := ((h hu.not_own).2 _ _ (.refl { s with journal := .ran c :: s.journal })).journal
      rw [hrun] at hj
      have hu' := hu.of_cons
      rw [hj] at hu'
      exact hs hu'.of_cons
  · cases hrun : w.run { s with journal := .ran c :: s.journal } with
    | mk x t =>
      rw [run_running hrun] at hu
      obtain ⟨rfl, hkeeps⟩ := h hu.not_own
      obtain ⟨hg, hj, hdirect, hoblivious⟩ :=
        hkeeps _ { s with journal := .ran c :: s.journal } (.refl _)
      -- The code that runs does not read the journal, so it does the same from another one.
      have hother := hoblivious (.ran c :: j)
      rw [hrun] at hg hj hdirect hother
      have hended : I t := Steady.grown _ t (Steady.ran s c hs) hg hj
      have hopen : underConstruction (.left c (!x.isOk) :: t.journal) = O := by
        rw [underConstruction, hj]
        exact hO
      rw [run_running hrun]
      refine ⟨⟨.left c (!x.isOk) :: .ran c :: j, run_running (s := s.withJournal j) hother, ?_⟩,
        Steady.left t c _ hended, fun _ _ => hopen, fun e he => ?_⟩
      · refine .cons (C.left c _) ?_
        rw [hj]
        exact .cons (C.ran c) halike
      · rw [hdirect e he]
        exact hopen

theorem conforms_invoke (answer answer' : Answering) (c : Callable) (passed : Passed) :
    Conforms C I O O (invoke answer c passed) (invoke answer' c passed) := by
  refine conforms_running fun hown => ⟨?_, fun _ => keeps_perform hown answer passed⟩
  cases c with
  | member self kind m => cases hown
  | fromFiles c => cases hown
  | _ => rfl

theorem conforms_constructing (c : ClassRef) (passed : Passed) :
    Conforms C I O O (Work.mapFault Failure.plain (running (.construct c) (construct c passed)))
      (Work.mapFault Failure.plain (running (.construct c) (construct c passed))) :=
  (conforms_running fun _ => ⟨rfl, fun _ => keeps_construct c passed⟩).mapFault fun _ => rfl

/-- What is called for a definition leaves nothing but what it did. -/
theorem conforms_calling (answer answer' : Answering) (c : Callable) (passed : Passed) :
    Conforms C I O O (Work.mapFault Failure.plain (invoke answer c passed) >>= fun _ => pure ())
      (Work.mapFault Failure.plain (invoke answer' c passed) >>= fun _ => pure ()) :=
  ((conforms_invoke answer answer' c passed).mapFault (f := Failure.plain) fun _ => rfl).bind
    fun _ => conforms_pure _

/-! ### Binding arguments -/

section Binding

variable {inject inject' : Injection}
  (hi : ∀ name interface,
    Conforms C I O O (inject name interface) (inject' name interface))

include hi

theorem conforms_request (g : Registry) (p : Program) (resolved : Bool) (callable : String)
    (param : Param) :
    Conforms C I O O (g.request p resolved callable (some inject) param)
      (g.request p resolved callable (some inject') param) := by
  unfold Registry.request
  cases p.wanted? resolved param.annotation with
  | none => exact conforms_throw rfl
  | some c => exact hi _ _

theorem conforms_fill (g : Registry) (p : Program) (resolved : Bool) (callable : String)
    (params : List Param) (left : List (String × Value)) :
    Conforms C I O O (g.fill p resolved callable (some inject) params left)
      (g.fill p resolved callable (some inject') params left) := by
  induction params generalizing left with
  | nil => exact conforms_pure _
  | cons param rest ih =>
    rw [Registry.fill, Registry.fill]
    split
    · exact (ih left).bind fun _ => conforms_pure _
    · exact ih left
    · split
      · exact (ih _).bind fun _ => conforms_pure _
      · split
        · exact ih left
        · exact (conforms_request hi g p resolved callable param).bind fun _ =>
            (ih left).bind fun _ => conforms_pure _

theorem conforms_bind (g : Registry) (p : Program) (c : Callable)
    (arguments : List (String × Value)) :
    Conforms C I O O (g.bind p c arguments (some inject))
      (g.bind p c arguments (some inject')) := by
  unfold Registry.bind
  cases c.params? p with
  | none => exact conforms_pure _
  | some params =>
    refine (conforms_fill hi g p _ _ params arguments).bind fun found => ?_
    obtain ⟨passed, left, collects⟩ := found
    dsimp only
    split
    · exact conforms_pure _
    · split
      · exact conforms_pure _
      · exact conforms_throw rfl

theorem conforms_create (g : Registry) (p : Program) (className : Value)
    (arguments : List (String × Value)) :
    Conforms C I O O (g.create p className arguments (some inject))
      (g.create p className arguments (some inject')) :=
  (conforms_lift ((direct_class? g className).mapError (f := Failure.plain) fun _ h => h)).bind fun c =>
    (conforms_bind hi g p (.construct c) arguments).bind fun passed =>
      conforms_constructing c passed

end Binding

/-! ### The value of an argument -/

section Value

variable {answer : Answering} {r : Ref Injector} {own : Option (Ref Config)} {a : Argument}

theorem run_configFor (s : Store) (r : Ref Injector) (own : Option (Ref Config)) :
    (configFor r own).run s = (.ok (own.or (s.injectors.get r).config), s) := by
  cases own <;> rfl

/-- What an argument requests of an interface. -/
def argumentRequest (answer : Answering) (r : Ref Injector) (own : Option (Ref Config))
    (a : Argument) (b : Exclusions) (interface : Value) : Action Value := do
  dependency answer r interface (← argumentIdentifier r own a) b

theorem dependencyValue_eq : dependencyValue answer r own a b
    = if (a.property "interface").truthy then
        argumentRequest answer r own a b (a.property "interface")
      else throw (.definition (.interfaceMissing a.name)) := by
  unfold dependencyValue
  dsimp only
  cases (a.property "interface").truthy <;> rfl

/-- The value of an argument by a parser, once the argument is read. -/
def valueBy (answer : Answering) (r : Ref Injector) (a : Argument) (b : Exclusions) :
    Parser (Ref Config) → Action Value
  | .null => pure .null
  | .scalar => pure (a.property "value")
  | .array => settle (.map none a.properties)
  | .dependency own => dependencyValue answer r own a b
  | .call own => callValue answer r own a b
  | .config own => configArgument r own a
  | .probe => probeValue a b

/-- The value of an argument is found by the parser that the injector has for its kind. -/
theorem run_argumentValue_by {s : Store} {cell : Ref Argument} {parser : Parser (Ref Config)}
    (h : (s.injectors.get r).parsers.get? (s.arguments.get cell).kind = some parser) :
    (argumentValue answer r cell b).run s
      = (valueBy answer r (s.argument cell) b parser).run s := by
  have hparser : ((Stored.cells s).get r).parsers.get? ((Stored.cells s).get cell).kind
      = some parser := h
  unfold argumentValue
  rw [run_bind_ok (run_read cell s)]
  dsimp only
  rw [run_bind_ok (run_read r s), hparser]
  dsimp only
  unfold parsedValue
  rw [run_bind_ok (run_get s)]
  cases parser <;> rfl

end Value

/-! ### The values of arguments -/

section Arguments

/-- Two injectors that are akin, with ways to answer nested requests that conform. -/
structure Conforming (C : Comparison) (I : Store → Prop) (O : List DefinitionKey) (b : Exclusions)
    (answer answer' : Answering) (r r' : Ref Injector) : Prop where
  akin : ∀ s, I s → (s.injectors.get r).Akin (s.injectors.get r')
  nested : ∀ q : Request, q.Nested b → Conforms C I O O (answer r q none) (answer' r' q none)

omit [Steady I] in
/-- What stays disturbed does so next to itself. -/
theorem Conforming.disturbance {answer answer' : Answering} {r r' : Ref Injector}
    {O' : List DefinitionKey} (ha : Conforming C I O b answer answer' r r') :
    Conforming C (fun _ => False) O' b answer answer r r :=
  ⟨fun _ hs => hs.elim, fun q hq => (ha.nested q hq).disturbance⟩

variable {answer answer' : Answering} {r r' : Ref Injector}
  (ha : Conforming C I O b answer answer' r r')

include ha

/-- What is done with the registry of an injector is done with that of one akin to it. -/
theorem conforms_read_registry {ε α : Type} [Telling ε] {f f' : Registry → Work ε α}
    (hf : ∀ x, Conforms C I O O (f x) (f' x)) :
    Conforms C I O O (read r >>= fun i => read i.registry >>= f)
      (read r' >>= fun i => read i.registry >>= f') := by
  refine ((conforms_read r).bind fun i => (conforms_read i.registry).bind hf).of_run
    fun s j hs => ?_
  rw [run_bind_ok (run_read r' _), run_bind_ok (run_read r _)]
  show (read (s.injectors.get r').registry >>= f').run (s.withJournal j)
    = (read (s.injectors.get r).registry >>= f').run (s.withJournal j)
  rw [(ha.akin s hs).registry]

omit [Steady I] in
/-- What is done with the store and the registry of an injector is done with that of one akin to
it. -/
theorem conforms_get_registry {ε α : Type} [Telling ε] {f f' : Store → Registry → Work ε α}
    (hj : ∀ s j x, f' (s.withJournal j) x = f' s x)
    (hf : ∀ s x, Conforms C I O O (f s x) (f' s x)) :
    Conforms C I O O (get >>= fun s => f s (s.registries.get (s.injectors.get r).registry))
      (get >>= fun s => f' s (s.registries.get (s.injectors.get r').registry)) := by
  have hsame := conforms_get_bind (fun s j => hj s j (s.registries.get (s.injectors.get r).registry))
    fun s => hf s (s.registries.get (s.injectors.get r).registry)
  refine hsame.of_run fun s j hs => ?_
  rw [run_bind_ok (run_get _), run_bind_ok (run_get _)]
  show (f' (s.withJournal j) (s.registries.get (s.injectors.get r').registry)).run _
    = (f' (s.withJournal j) (s.registries.get (s.injectors.get r).registry)).run _
  rw [(ha.akin s hs).registry]

theorem conforms_configFor (own : Option (Ref Config)) :
    Conforms C I O O (configFor r own) (configFor r' own) := by
  have hkeeps : ∀ J : Store → Prop, Keeps J (configFor r own) := fun J => by
    cases own with
    | some c => exact keeps_pure _
    | none => exact (keeps_read _).bind fun _ => keeps_pure _
  refine (Conforms.of_keeps fun s₀ => hkeeps s₀.Grows).of_run fun s j hs => ?_
  cases own with
  | some c => rfl
  | none =>
    show (Except.ok (s.injectors.get r').config, s.withJournal j)
      = (Except.ok (s.injectors.get r).config, s.withJournal j)
    rw [(ha.akin s hs).config]

omit [Steady I] in
theorem conforms_dependency (interface identifier : Value) :
    Conforms C I O O (dependency answer r interface identifier b)
      (dependency answer' r' interface identifier b) := by
  unfold dependency
  split
  · rename_i htruthy
    exact ha.nested _ ⟨rfl, Or.inl htruthy⟩
  · exact ha.nested _ ⟨rfl, Or.inr rfl⟩

omit ha [Steady I] in
theorem keeps_requestedIdentifier {s₀ : Store} (v : Value) (config : Option (Ref Config)) :
    Keeps s₀.Grows (requestedIdentifier v config) := by
  unfold requestedIdentifier
  split
  · exact keeps_pure _
  · split
    · split
      · split
        · exact keeps_throw _ rfl
        · refine (keeps_configValue _ _ _).bind fun found => ?_
          split
          · exact keeps_pure _
          · exact keeps_get_bind (fun s j => by rw [content_withJournal]) fun _ => keeps_pure _
      · exact keeps_pure _
    · refine keeps_get_bind (fun s j => by rw [content_withJournal]) fun s => ?_
      split
      · exact keeps_foreign _
      · split
        · exact keeps_pure _
        · split
          · exact keeps_foreign _
          · exact keeps_foreign _

theorem conforms_argumentIdentifier (own : Option (Ref Config)) (a : Argument) :
    Conforms C I O O (argumentIdentifier r own a) (argumentIdentifier r' own a) :=
  (conforms_configFor ha own).bind fun _ => .of_keeps fun _ => keeps_requestedIdentifier _ _

theorem conforms_dependencyValue (own : Option (Ref Config)) (a : Argument) :
    Conforms C I O O (dependencyValue answer r own a b)
      (dependencyValue answer' r' own a b) := by
  unfold dependencyValue
  exact (conforms_throw rfl).guarding ((conforms_argumentIdentifier ha own a).bind
    fun id => conforms_dependency ha (a.property "interface") id)

omit ha in
theorem conforms_runAttribute (answer answer' : Answering) (a : Argument) (owner method : String)
    (found : Attribute) :
    Conforms C I O O (runAttribute answer a owner method found)
      (runAttribute answer' a owner method found) := by
  cases found with
  | missing => exact conforms_throw rfl
  | plain => exact conforms_foreign _
  | callable c => exact conforms_invoke answer answer' c .nothing

omit ha in
theorem conforms_methodName (a : Argument) :
    Conforms C I O O (methodName a) (methodName a) := by
  refine .of_keeps fun s₀ => ?_
  unfold methodName
  dsimp only
  split
  · exact (keeps_throw _ rfl).bind fun _ => keeps_pure _
  · exact keeps_pure _

theorem conforms_objectCall (own : Option (Ref Config)) (a : Argument) :
    Conforms C I O O (objectCall answer r own a b)
      (objectCall answer' r' own a b) := by
  refine (conforms_methodName a).bind fun method =>
    (conforms_argumentIdentifier ha own a).bind fun id =>
      (conforms_dependency ha _ id).bind fun target => ?_
  split
  · exact conforms_get_bind (fun _ _ => rfl) fun s =>
      (Conforms.of_keeps fun _ => keeps_valueAttribute _ _).bind
        fun found => conforms_runAttribute answer answer' a _ _ found
  · exact conforms_foreign _

theorem conforms_classCall (a : Argument) :
    Conforms C I O O (classCall answer r a) (classCall answer' r' a) := by
  refine (conforms_methodName a).bind fun method => conforms_read_registry ha fun registry =>
    (conforms_lift (direct_class? _ _)).bind fun c => ?_
  split
  · exact conforms_get_bind (fun _ _ => rfl) fun s =>
      conforms_runAttribute answer answer' a _ _ _
  · exact conforms_foreign _

theorem conforms_callValue (own : Option (Ref Config)) (a : Argument) :
    Conforms C I O O (callValue answer r own a b) (callValue answer' r' own a b) := by
  unfold callValue
  dsimp only
  split
  · exact conforms_objectCall ha own a
  · split
    · exact conforms_classCall ha a
    · split
      · exact conforms_read_registry ha fun _ =>
          (conforms_lift (direct_function? _ _)).bind fun f => conforms_invoke answer answer' _ _
      · exact conforms_throw rfl

theorem conforms_configArgument (own : Option (Ref Config)) (a : Argument) :
    Conforms C I O O (configArgument r own a) (configArgument r' own a) := by
  unfold configArgument
  refine (conforms_throw rfl).guarding ((conforms_configFor ha own).bind fun config => ?_)
  cases config with
  | none => exact conforms_throw rfl
  | some c => exact .of_keeps fun _ => keeps_configValue c _ _

theorem conforms_parsedValue (parser : Parser (Ref Config)) (cell : Ref Argument) :
    Conforms C I O O (parsedValue answer r parser cell b)
      (parsedValue answer' r' parser cell b) := by
  refine conforms_get_bind (fun s j => ?_) fun s => ?_
  · rw [argument_withJournal]
  · cases parser with
    | null => exact conforms_pure _
    | scalar => exact conforms_pure _
    | array => exact .of_keeps fun _ => keeps_settle _
    | dependency own => exact conforms_dependencyValue ha own _
    | call own => exact conforms_callValue ha own _
    | config own => exact conforms_configArgument ha own _
    | probe => exact .of_keeps fun _ => keeps_settle _

/-- Two cells of arguments with one name, for which an injector finds the same value in every store
of an invariant. -/
structure ArgumentPeers (I : Store → Prop) (answer : Answering) (r : Ref Injector) (b : Exclusions)
    (cell cell' : Ref Argument) : Prop where
  name : ∀ s, I s → (s.arguments.get cell').name = (s.arguments.get cell).name
  value : ∀ s, I s → ∀ j, (argumentValue answer r cell' b).run (s.withJournal j)
    = (argumentValue answer r cell b).run (s.withJournal j)

omit ha [Steady I] in
theorem ArgumentPeers.symm {cell cell' : Ref Argument} (h : ArgumentPeers I answer r b cell cell') :
    ArgumentPeers I answer r b cell' cell :=
  ⟨fun s hs => (h.name s hs).symm, fun s hs j => (h.value s hs j).symm⟩

omit ha [Steady I] in
/-- An argument is read before anything is requested, so that its twin has the same value. -/
theorem run_argumentValue_twin {cell cell' : Ref Argument} (hcell : ArgumentTwins I cell cell')
    {s : Store} (hs : I s) (j : List JournalEntry) (answer : Answering) (r : Ref Injector) :
    (argumentValue answer r cell' b).run (s.withJournal j)
      = (argumentValue answer r cell b).run (s.withJournal j) := by
  have hsame : (s.withJournal j).argument cell' = (s.withJournal j).argument cell := by
    rw [argument_withJournal, argument_withJournal, hcell s hs]
  have hkind : ((Stored.cells (s.withJournal j)).get cell').kind
      = ((Stored.cells (s.withJournal j)).get cell).kind := by
    have hkind := congrArg Argument.kind (hcell s hs)
    exact hkind
  unfold argumentValue
  rw [run_bind_ok (run_read cell' _), run_bind_ok (run_read cell _)]
  dsimp only
  rw [hkind, run_bind_ok (run_read r _), run_bind_ok (run_read r _)]
  -- From here both read the same kind and the same parser.
  cases ((Stored.cells (s.withJournal j)).get r).parsers.get?
      ((Stored.cells (s.withJournal j)).get cell).kind with
  | none => rfl
  | some parser =>
    dsimp only
    unfold parsedValue
    rw [run_bind_ok (run_get _), run_bind_ok (run_get _)]
    dsimp only
    rw [hsame]

omit ha [Steady I] in
theorem ArgumentTwins.peers {cell cell' : Ref Argument} (hcell : ArgumentTwins I cell cell')
    (answer : Answering) (r : Ref Injector) (b : Exclusions) :
    ArgumentPeers I answer r b cell cell' := by
  refine ⟨fun s hs => ?_, fun s hs j => run_argumentValue_twin hcell hs j answer r⟩
  have hname := congrArg Argument.name (hcell s hs)
  exact hname

omit ha [Steady I] in
theorem forall₂_peers {cells cells' : List (Ref Argument)}
    (h : List.Forall₂ (ArgumentTwins I) cells cells') (answer : Answering) (r : Ref Injector)
    (b : Exclusions) : List.Forall₂ (ArgumentPeers I answer r b) cells cells' :=
  h.imp fun _ _ htwins => htwins.peers answer r b

/-- The value of an argument, by the parser that an injector has for its kind. -/
def parsedBy (answer : Answering) (r : Ref Injector) (cell : Ref Argument) (b : Exclusions)
    (kind : String) (i : Injector) : Action Value :=
  match i.parsers.get? kind with
  | some parser => parsedValue answer r parser cell b
  | none => throw (.definition (.parserMissing kind))

theorem conforms_argumentValue_of {cell cell' : Ref Argument}
    (hcell : ArgumentPeers I answer' r' b cell cell') :
    Conforms C I O O (argumentValue answer r cell b)
      (argumentValue answer' r' cell' b) := by
  have hsame : Conforms C I O O (argumentValue answer r cell b)
      (argumentValue answer' r' cell b) := by
    refine (conforms_read cell).bind fun a => ?_
    have hparsed : Conforms C I O O (read r >>= parsedBy answer r cell b a.kind)
        (read r >>= parsedBy answer' r' cell b a.kind) := by
      refine (conforms_read r).bind fun i => ?_
      unfold parsedBy
      split
      · exact conforms_parsedValue ha _ cell
      · exact conforms_throw rfl
    refine hparsed.of_run fun s j hs => ?_
    have hparsers : ((Stored.cells (s.withJournal j)).get r').parsers
        = ((Stored.cells (s.withJournal j)).get r).parsers := (ha.akin s hs).parsers
    show (parsedBy answer' r' cell b a.kind ((Stored.cells (s.withJournal j)).get r')).run _
      = (parsedBy answer' r' cell b a.kind ((Stored.cells (s.withJournal j)).get r)).run _
    unfold parsedBy
    rw [hparsers]
  exact hsame.of_run fun s j hs => hcell.value s hs j

theorem conforms_argumentValue {cell cell' : Ref Argument} (hcell : ArgumentTwins I cell cell') :
    Conforms C I O O (argumentValue answer r cell b) (argumentValue answer' r' cell' b) :=
  conforms_argumentValue_of ha (hcell.peers answer' r' b)

theorem conforms_argumentValues_of (found : List (String × Value))
    {cells cells' : List (Ref Argument)}
    (hcells : List.Forall₂ (ArgumentPeers I answer' r' b) cells cells') :
    Conforms C I O O (argumentValues answer r b found cells)
      (argumentValues answer' r' b found cells') := by
  induction hcells generalizing found with
  | nil => exact conforms_pure _
  | @cons cell cell' rest rest' hcell _ ih =>
    -- First with the argument of the one side read on both, then with its peer in its place.
    have hsame : Conforms C I O O (argumentValues answer r b found (cell :: rest))
        (read cell >>= fun a =>
          Work.mapFault (Failure.mk (some a.name)) (argumentValue answer' r' cell' b) >>= fun v =>
            argumentValues answer' r' b (OrderedMap.put a.name v found) rest') :=
      (conforms_read cell).bind fun a =>
        ((conforms_argumentValue_of ha hcell).mapFault (f := Failure.mk (some a.name))
          fun _ => rfl).bind fun v => ih _
    refine hsame.of_run fun s j hs => ?_
    have hname : ((Stored.cells (s.withJournal j)).get cell').name
        = ((Stored.cells (s.withJournal j)).get cell).name := hcell.name s hs
    rw [argumentValues, run_bind_ok (run_read cell' _), run_bind_ok (run_read cell _)]
    dsimp only
    rw [hname]

theorem conforms_argumentValues (found : List (String × Value)) {cells cells' : List (Ref Argument)}
    (hcells : List.Forall₂ (ArgumentTwins I) cells cells') :
    Conforms C I O O (argumentValues answer r b found cells)
      (argumentValues answer' r' b found cells') :=
  conforms_argumentValues_of ha found (forall₂_peers hcells answer' r' b)

/-! ### Building -/

omit [Steady I] in
theorem conforms_injection (name interface : String) :
    Conforms C I O O (injection answer r b name interface)
      (injection answer' r' b name interface) :=
  (ha.nested _ ⟨rfl, Or.inr rfl⟩).mapFault fun _ => rfl

/-- The cells of the arguments of the constructor of a definition. -/
def Store.constructorCells (s : Store) (d : Ref DefinitionCell) : List (Ref Argument) :=
  match (s.definitions.get d).constructor with
  | some c => (s.calls.get c).arguments
  | none => []

/-- What is constructed when the cells of the arguments are known. -/
def constructFrom (answer : Answering) (r : Ref Injector) (b : Exclusions)
    (d : Ref DefinitionCell) (given : List (String × Value)) (cells : List (Ref Argument)) :
    Work Failure Value := do
  let declared ← argumentValues answer r b [] cells
  let arguments := given.foldl (fun found g => OrderedMap.put g.1 g.2 found) declared
  let s ← get
  let registry := s.registries.get (s.injectors.get r).registry
  registry.create s.program (.text (s.definitions.get d).className) arguments
    (some (injection answer r b))

omit ha [Steady I] in
theorem constructDefined_eq (answer : Answering) (r : Ref Injector) (d : Ref DefinitionCell)
    (given : List (String × Value)) :
    constructDefined answer r b d given
      = get >>= fun s => constructFrom answer r b d given (s.constructorCells d) := by
  have hcells : constructDefined answer r b d given
      = (do
        let cells ← match (← read d).constructor with
          | some c => do pure (← read c).arguments
          | none => pure []
        constructFrom answer r b d given cells) := rfl
  rw [hcells]
  funext s
  refine (run_bind_ok (run_read d s)).trans (Eq.trans ?_ (run_bind_ok (run_get s)).symm)
  unfold Store.constructorCells
  cases (s.definitions.get d).constructor with
  | none => exact run_bind_ok (run_pure [] s)
  | some c => exact (run_bind_ok (run_read c s)).trans (run_bind_ok (run_pure _ s))

theorem conforms_constructFrom_of {d d' : Ref DefinitionCell} (hd : DefinitionNames I d d')
    (given : List (String × Value)) {cells cells' : List (Ref Argument)}
    (hcells : List.Forall₂ (ArgumentPeers I answer' r' b) cells cells') :
    Conforms C I O O (constructFrom answer r b d given cells)
      (constructFrom answer' r' b d' given cells') := by
  refine (conforms_argumentValues_of ha [] hcells).bind fun declared => ?_
  generalize given.foldl (fun found g => OrderedMap.put g.1 g.2 found) declared = arguments
  have hsame := conforms_get_registry ha (fun _ _ _ => rfl) fun s registry =>
    conforms_create (conforms_injection ha) registry s.program
      (.text (s.definitions.get d).className) arguments
  refine hsame.of_run fun s j hs => ?_
  have hname : ((s.withJournal j).definitions.get d').className
      = ((s.withJournal j).definitions.get d).className := hd.className s hs
  rw [run_bind_ok (run_get _), run_bind_ok (run_get _)]
  dsimp only
  rw [hname]

theorem conforms_constructFrom {d d' : Ref DefinitionCell} (hd : DefinitionNames I d d')
    (given : List (String × Value)) {cells cells' : List (Ref Argument)}
    (hcells : List.Forall₂ (ArgumentTwins I) cells cells') :
    Conforms C I O O (constructFrom answer r b d given cells)
      (constructFrom answer' r' b d' given cells') :=
  conforms_constructFrom_of ha hd given (forall₂_peers hcells answer' r' b)

theorem conforms_constructDefined {d d' : Ref DefinitionCell} (hd : DefinitionTwins I d d')
    (given : List (String × Value)) :
    Conforms C I O O (constructDefined answer r b d given)
      (constructDefined answer' r' b d' given) := by
  rw [constructDefined_eq, constructDefined_eq]
  refine conforms_get_bind_of (fun _ _ => rfl)
    (fun s => conforms_constructFrom ha.disturbance (definitionTwins_refl d).names given
      (List.forall₂_same.mpr fun _ _ => argumentTwins_refl _))
    fun s hs => conforms_constructFrom ha hd.names given ?_
  unfold Store.constructorCells
  have hconstructor := hd.constructor s hs
  -- Twins have a constructor call both or neither.
  cases hc : (s.definitions.get d).constructor with
  | none =>
    rw [hc] at hconstructor
    cases hc' : (s.definitions.get d').constructor with
    | none => exact .nil
    | some c' =>
      rw [hc'] at hconstructor
      cases hconstructor
  | some c =>
    rw [hc] at hconstructor
    cases hc' : (s.definitions.get d').constructor with
    | none =>
      rw [hc'] at hconstructor
      cases hconstructor
    | some c' =>
      rw [hc'] at hconstructor
      cases hconstructor with
      | some hcalls => exact hcalls.arguments s hs

/-- What is called when the cells of the arguments are known. -/
def callFrom (answer : Answering) (r : Ref Injector) (b : Exclusions) (callback : Callable)
    (cells : List (Ref Argument)) : Work Failure Unit := do
  let arguments ← argumentValues answer r b [] cells
  let s ← get
  let registry := s.registries.get (s.injectors.get r).registry
  let passed ← registry.bind s.program callback arguments (some (injection answer r b))
  let _ ← Work.mapFault .plain (invoke answer callback passed)

theorem conforms_callFrom_of (callback : Callable) {cells cells' : List (Ref Argument)}
    (hcells : List.Forall₂ (ArgumentPeers I answer' r' b) cells cells') :
    Conforms C I O O (callFrom answer r b callback cells)
      (callFrom answer' r' b callback cells') :=
  (conforms_argumentValues_of ha [] hcells).bind fun arguments =>
    conforms_get_registry ha (fun _ _ _ => rfl) fun s registry =>
      (conforms_bind (conforms_injection ha) registry s.program callback arguments).bind
        fun passed => conforms_calling answer answer' callback passed

theorem conforms_callFrom (callback : Callable) {cells cells' : List (Ref Argument)}
    (hcells : List.Forall₂ (ArgumentTwins I) cells cells') :
    Conforms C I O O (callFrom answer r b callback cells)
      (callFrom answer' r' b callback cells') :=
  conforms_callFrom_of ha callback (forall₂_peers hcells answer' r' b)

/-- What a call of a definition does with the attribute that its method is. -/
def callAttribute (answer : Answering) (r : Ref Injector) (b : Exclusions)
    (d : Ref DefinitionCell) (c : Ref CallCell) (method : String) : Attribute → Work Failure Unit
  | .callable callback => read c >>= fun x => callFrom answer r b callback x.arguments
  | _ => read d >>= fun x => throw (.plain (.definition (.noSuchMethod x.className method)))

/-- What a call does with an attribute conforms if what it calls does. -/
theorem conforms_callAttribute {d d' : Ref DefinitionCell} (hd : DefinitionNames I d d')
    {c c' : Ref CallCell} (method : String) (found : Attribute)
    (hcall : ∀ callback, found = .callable callback → ∀ s, I s →
      Conforms C I O O (callFrom answer r b callback (s.calls.get c).arguments)
        (callFrom answer' r' b callback (s.calls.get c').arguments)) :
    Conforms C I O O (callAttribute answer r b d c method found)
      (callAttribute answer' r' b d' c' method found) := by
  have hmissing : Conforms C I O O
      (read d >>= fun x => throw (.plain (.definition (.noSuchMethod x.className method))) :
        Work Failure Unit)
      (read d' >>= fun x => throw (.plain (.definition (.noSuchMethod x.className method)))) := by
    refine ((conforms_read d).bind fun x => conforms_throw rfl).of_run fun s j hs => ?_
    have hname : ((Stored.cells (s.withJournal j)).get d').className
        = ((Stored.cells (s.withJournal j)).get d).className := hd.className s hs
    rw [run_bind_ok (run_read d' _), run_bind_ok (run_read d _), hname]
  cases found with
  | callable callback =>
    exact conforms_get_bind_of (fun _ _ => rfl)
      (fun s => conforms_callFrom ha.disturbance callback
        (List.forall₂_same.mpr fun _ _ => argumentTwins_refl _))
      fun s hs => hcall callback rfl s hs
  | missing => exact hmissing
  | plain => exact hmissing

omit ha [Steady I] in
/-- A call of a definition looks for its method first. -/
theorem runDefinedCall_eq (answer : Answering) (r : Ref Injector) (d : Ref DefinitionCell)
    (object : Value) (c : Ref CallCell) :
    runDefinedCall answer r b d object c
      = read c >>= fun x => Work.mapFault .plain (valueAttribute object x.method) >>=
        callAttribute answer r b d c x.method := by
  unfold runDefinedCall
  refine bind_congr fun x => bind_congr fun found => ?_
  cases found <;> rfl

/-- Calls of one method conform if what they call on their object does. -/
theorem conforms_runDefinedCall_of {d d' : Ref DefinitionCell} (hd : DefinitionNames I d d')
    (object : Value) {c c' : Ref CallCell}
    (hmethod : ∀ s, I s → (s.calls.get c').method = (s.calls.get c).method)
    (hcall : ∀ s t callback, I s → I t →
      ((valueAttribute object (s.calls.get c).method).run t).1 = .ok (.callable callback) →
      ∀ u, I u → Conforms C I O O (callFrom answer r b callback (u.calls.get c).arguments)
        (callFrom answer' r' b callback (u.calls.get c').arguments)) :
    Conforms C I O O (runDefinedCall answer r b d object c)
      (runDefinedCall answer' r' b d' object c') := by
  rw [runDefinedCall_eq, runDefinedCall_eq]
  have hattribute : ∀ method found, Conforms C (fun _ => False) O O
      (callAttribute answer r b d c method found) (callAttribute answer r b d c method found) :=
    fun method found => conforms_callAttribute ha.disturbance (definitionTwins_refl d).names method
      found fun _ _ _ hs => hs.elim
  have hlooked : ∀ method, Conforms C I O O
      (Work.mapFault Failure.plain (valueAttribute object method))
      (Work.mapFault Failure.plain (valueAttribute object method)) :=
    fun method => (Conforms.of_keeps fun _ => keeps_valueAttribute _ _).mapFault fun _ => rfl
  -- As for the arguments, the call of the one side is read on both first.
  have hsame : Conforms C I O O
      (read c >>= fun x => Work.mapFault Failure.plain (valueAttribute object x.method) >>=
        callAttribute answer r b d c x.method)
      (read c >>= fun x => Work.mapFault Failure.plain (valueAttribute object x.method) >>=
        callAttribute answer' r' b d' c' x.method) := by
    refine (conforms_read c).bind_from
      (fun x => (hlooked x.method).disturbance.bind fun found => hattribute _ found)
      fun s x t hs _ hread _ ht => ⟨I, ht, fun _ h => h, ?_⟩
    cases hread
    refine (hlooked _).bind_from (fun found => hattribute _ found)
      fun u found t hu _ hfound _ ht => ⟨I, ht, fun _ h => h, ?_⟩
    refine conforms_callAttribute ha hd _ found fun callback hcallback v hv => ?_
    subst hcallback
    rw [run_mapFault] at hfound
    exact hcall s u callback hs hu (Except.mapError_eq_ok.mp (Prod.mk.inj hfound).1) v hv
  refine hsame.of_run fun s j hs => ?_
  have hsamemethod : ((Stored.cells (s.withJournal j)).get c').method
      = ((Stored.cells (s.withJournal j)).get c).method := hmethod s hs
  rw [run_bind_ok (run_read c' _), run_bind_ok (run_read c _), hsamemethod]

theorem conforms_runDefinedCall {d d' : Ref DefinitionCell} (hd : DefinitionTwins I d d')
    (object : Value) {c c' : Ref CallCell} (hc : CallTwins I c c') :
    Conforms C I O O (runDefinedCall answer r b d object c)
      (runDefinedCall answer' r' b d' object c') :=
  conforms_runDefinedCall_of ha hd.names object hc.method fun _ _ callback _ _ _ s hs =>
    conforms_callFrom ha callback (hc.arguments s hs)

end Arguments

/-! ### Faults of builds -/

/-- The fault of a build, in the store in which it is reported. -/
def reportedFault (interface : String) (d : Ref DefinitionCell) (index : Nat) (method : String)
    (t : Store) (failure : Failure) : Fault :=
  .resolution ⟨interface, (t.definitions.get d).identifier, (t.definitions.get d).className, index,
    method, failure.argument⟩ failure.fault

/-- Reporting a failure changes nothing but the fault. -/
theorem run_reported {α : Type} (interface : String) (d : Ref DefinitionCell) (index : Nat)
    (method : String) (w : Work Failure α) (s : Store) :
    (reported interface d index method w).run s
      = ((w.run s).1.mapError (reportedFault interface d index method (w.run s).2),
        (w.run s).2) := by
  unfold reported
  rw [run_bind_ok (run_outcome w s)]
  cases w.run s with
  | mk result t => cases result <;> rfl

section Assembling

variable {answer answer' : Answering} {r r' : Ref Injector} {k : DefinitionKey}
  {interface : String} {d d' : Ref DefinitionCell} {x : DefinitionCell}
  (hx : ∀ s, I s → s.definitions.get d = x) (hk : k = ⟨interface, x.identifier⟩)

section Named

variable (hd : DefinitionNames I d d')

include hx hk hd

omit [Steady I] in
/-- A reported fault tells of the definition too. -/
theorem Work.Conforms.reported {α : Type} {w w' : Work Failure α}
    (h : Conforms C I (k :: O) (k :: O) w w') (index : Nat) (method : String) :
    Conforms C I (k :: O) O (reported interface d index method w)
      (reported interface d' index method w') := by
  refine h.mapOutcome (fun x t => x.mapError (reportedFault interface d index method t))
    (fun x t => x.mapError (reportedFault interface d' index method t))
    (run_reported interface d index method w) (run_reported interface d' index method w')
    (fun result t j ht => ?_) (fun _ _ _ hb => ⟨_, Except.mapError_eq_ok.mp hb⟩)
    fun result t e' ht he' => ?_
  · have hsame : reportedFault interface d' index method (t.withJournal j)
        = reportedFault interface d index method t := by
      funext failure
      show Fault.resolution ⟨interface, (t.definitions.get d').identifier,
        (t.definitions.get d').className, index, method, failure.argument⟩ failure.fault = _
      rw [hd.identifier t ht, hd.className t ht]
      rfl
    rw [hsame]
  · cases result with
    | ok a => cases he'
    | error e =>
      cases he'
      -- The reported fault has one more key in its chain, and this key is no longer under
      -- construction.
      refine ⟨e, rfl, ?_⟩
      show e.fault.builds ++ [⟨interface, (t.definitions.get d).identifier⟩] ++ O
        = e.fault.builds ++ k :: O
      rw [hx t ht, ← hk, List.append_assoc]
      rfl

/-- Calls that are run in turn conform if each of them does. -/
theorem conforms_runDefinedCalls (object : Value) (index : Nat) {calls calls' : List (Ref CallCell)}
    (hcalls : List.Forall₂ (fun c c' =>
      (∀ s, I s → (s.calls.get c').method = (s.calls.get c).method) ∧
      Conforms C I (k :: O) (k :: O) (runDefinedCall answer r (b.insert k) d object c)
        (runDefinedCall answer' r' (b.insert k) d' object c')) calls calls') :
    Conforms C I (k :: O) O
      (runDefinedCalls answer r (b.insert k) interface d object index calls)
      (runDefinedCalls answer' r' (b.insert k) interface d' object index calls') := by
  induction hcalls generalizing index with
  | nil => exact conforms_pure _
  | @cons c c' rest rest' hc _ ih =>
    have hsame : Conforms C I (k :: O) O
        (runDefinedCalls answer r (b.insert k) interface d object index (c :: rest))
        (read c >>= fun y =>
          reported interface d' index y.method
            (runDefinedCall answer' r' (b.insert k) d' object c') >>= fun _ =>
          runDefinedCalls answer' r' (b.insert k) interface d' object (index + 1) rest') :=
      (conforms_read c).bind fun y =>
        (hc.2.reported hx hk hd index y.method).bind fun _ => ih (index + 1)
    refine hsame.of_run fun s j hs => ?_
    have hmethod : ((Stored.cells (s.withJournal j)).get c').method
        = ((Stored.cells (s.withJournal j)).get c).method := hc.1 s hs
    rw [runDefinedCalls, run_bind_ok (run_read c' _), run_bind_ok (run_read c _)]
    dsimp only
    rw [hmethod]

end Named

/-- The calls of a definition, run in turn on its object. -/
def definedCalls (answer : Answering) (r : Ref Injector) (b : Exclusions) (interface : String)
    (d : Ref DefinitionCell) (object : Value) : Action Unit := do
  runDefinedCalls answer r b interface d object 1 (← read d).callList

variable (ha : Conforming C I (k :: O) (b.insert k) answer answer' r r')

include hx hk ha

theorem conforms_definedCalls (hd : DefinitionTwins I d d') (object : Value) :
    Conforms C I (k :: O) O (definedCalls answer r (b.insert k) interface d object)
      (definedCalls answer' r' (b.insert k) interface d' object) := by
  refine conforms_get_bind_of (fun _ _ => rfl)
    (fun s => conforms_runDefinedCalls (I := fun _ => False) (fun _ h => h.elim) hk
      (definitionTwins_refl d).names object 1 (List.forall₂_same.mpr fun c _ =>
        ⟨fun _ h => h.elim, conforms_runDefinedCall ha.disturbance (definitionTwins_refl d) object
          (callTwins_refl c)⟩))
    fun s hs => conforms_runDefinedCalls hx hk hd.names object 1 ((hd.calls s hs).imp
      fun c c' hc => ⟨hc.method, conforms_runDefinedCall ha hd object hc⟩)

/-- What is assembled conforms if the construction and the calls on the object do. -/
theorem conforms_assemble_of (hd : DefinitionNames I d d') (given : Given)
    (hconstruct : Conforms C I (k :: O) (k :: O)
      (constructDefined answer r (b.insert k) d (given.getD []))
      (constructDefined answer' r' (b.insert k) d' (given.getD [])))
    (hcalls : ∀ s object t, I s → underConstruction s.journal = k :: O →
      (constructDefined answer r (b.insert k) d (given.getD [])).run s = (.ok object, t) →
      C.Undisturbed t.journal → I t → ∃ J : Store → Prop, ∃ _ : Steady J, J t ∧
        (∀ u, J u → I u) ∧
        Conforms C J (k :: O) O (definedCalls answer r (b.insert k) interface d object)
          (definedCalls answer' r' (b.insert k) interface d' object)) :
    Conforms C I (k :: O) O (assemble answer r interface d (b.insert k) given)
      (assemble answer' r' interface d' (b.insert k) given) := by
  unfold assemble
  cases hgiven : given.isNone with
  | false =>
    exact (hconstruct.reported hx hk hd 0 _).bind fun object =>
      (conforms_pure PUnit.unit).bind fun _ => conforms_pure object
  | true =>
    have hself : ∀ object, Conforms C (fun _ => False) (k :: O) O
        (definedCalls answer r (b.insert k) interface d object >>= fun _ => pure object)
        (definedCalls answer r (b.insert k) interface d object >>= fun _ => pure object) :=
      fun object => (conforms_definedCalls (fun _ h => h.elim) hk ha.disturbance
        (definitionTwins_refl d) object).bind fun _ => conforms_pure object
    refine (hconstruct.reported hx hk hd 0 _).bind_from hself fun s object t hs hO hrun hu ht => ?_
    rw [run_reported] at hrun
    obtain ⟨hobject, ht'⟩ := Prod.mk.inj hrun
    obtain ⟨J, hsteady, hJ, hJI, hconforms⟩ := hcalls s object t hs hO
      (Prod.ext (Except.mapError_eq_ok.mp hobject) ht') hu ht
    exact ⟨J, hJ, hJI, hconforms.bind fun _ => conforms_pure object⟩

theorem conforms_assemble (hd : DefinitionTwins I d d') (given : Given) :
    Conforms C I (k :: O) O (assemble answer r interface d (b.insert k) given)
      (assemble answer' r' interface d' (b.insert k) given) :=
  conforms_assemble_of hx hk ha hd.names given (conforms_constructDefined ha hd _)
    fun _ object _ _ _ _ _ ht =>
      ⟨I, inferInstance, ht, fun _ h => h, conforms_definedCalls hx hk ha hd object⟩

end Assembling

/-! ### Disturbance -/

section Disturbance

variable {answer : Answering}
  (hd : ∀ r q, Conforms C (fun _ => False) O O (answer r q none) (answer r q none))

theorem disturbed_note (e : JournalEntry) :
    Conforms C (fun _ => False) O O (note e : Action Unit) (note e) :=
  ⟨fun _ hs hu => hs hu.of_cons, fun _ _ hs => hs.elim⟩

include hd in
theorem disturbed_build (r : Ref Injector) (interface : String) (d : Ref DefinitionCell)
    (b : Exclusions) (given : Given) :
    Conforms C (fun _ => False) O O (build answer r interface d b given)
      (build answer r interface d b given) :=
  (conforms_read d).bind fun _ => (disturbed_note _).bind fun _ =>
    (Conforms.of_keeps fun _ => keeps_report _).bind fun _ =>
      (conforms_assemble (O := O) (fun _ h => h.elim) rfl
        ⟨fun _ h => h.elim, fun q _ => (hd r q).disturbance⟩ (definitionTwins_refl d)
        given).disturbance.bind fun _ =>
          (disturbed_note _).bind fun _ => conforms_pure _

theorem keeps_instance? (r : Ref Injector) (given : Given) (k : DefinitionKey) (x : Exclusions)
    (J : Store → Prop) :
    Keeps J (if given.isNone then instance? r k x else pure none : Action (Option Value)) := by
  unfold instance?
  split
  · split
    · exact keeps_pure _
    · refine (keeps_read r).bind fun i => ?_
      split
      · exact keeps_pure _
      · exact keeps_pure _
      · exact (keeps_look _).bind fun _ => keeps_pure _
  · exact keeps_pure _

theorem direct_select {δ : Type} (identifier : δ → Option String) (c : Container δ)
    (k : DefinitionKey) (exclude building : Exclusions) :
    Direct (Selection.select identifier c k exclude building) := by
  intro e he
  cases Selection.refusal_of_select he with
  | notFound => rfl
  | ambiguous => rfl
  | circular => rfl

theorem direct_key? (q : Request) : Direct q.key? := by
  unfold Request.key?
  split
  · exact direct_error rfl
  · exact (direct_mapError (fun _ => rfl) _).map _

/-- What is done about a request once it stands in the journal. -/
def respond (answer : Answering) (r : Ref Injector) (q : Request) (given : Given) :
    Action Value := do
  let key ← Work.lift q.key?
  match ← (if given.isNone then instance? r key q.exclude else pure none) with
  | some v => pure v
  | none =>
    let s ← get
    let identifier := fun d => (s.definitions.get d).identifier
    let d ← Work.lift (Selection.select identifier
      (s.containers.get (s.injectors.get r).container) key q.exclude q.building)
    build answer r key.interface d q.building given

theorem step_eq (answer : Answering) (r : Ref Injector) (q : Request) (given : Given) :
    step answer r q given
      = note (.requested q.interface q.identifier q.exclude q.building) >>= fun _ =>
        respond answer r q given := rfl

include hd in
theorem disturbed_respond (r : Ref Injector) (q : Request) (given : Given) :
    Conforms C (fun _ => False) O O (respond answer r q given) (respond answer r q given) := by
  refine (conforms_lift (direct_key? q)).bind fun key =>
    (Conforms.of_keeps fun s => keeps_instance? r given key q.exclude s.Grows).bind fun found => ?_
  cases found with
  | some v => exact conforms_pure _
  | none =>
    exact conforms_get_bind (fun _ _ => rfl) fun s =>
      (conforms_lift (direct_select _ _ _ _ _)).bind fun d => disturbed_build hd r _ d _ given

include hd in
theorem disturbed_step (r : Ref Injector) (q : Request) (given : Given) :
    Conforms C (fun _ => False) O O (step answer r q given) (step answer r q given) :=
  (disturbed_note _).bind fun _ => disturbed_respond hd r q given

end Disturbance

/-! ### Answers -/

section Answers

variable {answer answer' : Answering}

/-- What is built conforms if what is assembled does. The invariant has to hold on when the building
begins and when it ends. -/
theorem conforms_build_of
    (hself : ∀ r q, Conforms C (fun _ => False) O O (answer r q none) (answer r q none))
    {r r' : Ref Injector} {interface : String} {d d' : Ref DefinitionCell} {x : DefinitionCell}
    {k : DefinitionKey} (hx : ∀ s, I s → s.definitions.get d = x)
    (hk : k = ⟨interface, x.identifier⟩) (hd : DefinitionNames I d d')
    (hopened : ∀ s, I s → underConstruction s.journal = O →
      I { s with journal := .opened k d.index x.className :: s.journal })
    (hclosed : ∀ s, I s → I { s with journal := .closed k d.index :: s.journal })
    (halike : C.alike (.opened k d.index x.className) (.opened k d'.index x.className) ∧
      C.alike (.closed k d.index) (.closed k d'.index)) (given : Given)
    (hassemble : Conforms C I (k :: O) O (assemble answer r interface d (b.insert k) given)
      (assemble answer' r' interface d' (b.insert k) given)) :
    Conforms C I O O (build answer r interface d b given)
      (build answer' r' interface d' b given) := by
  refine ⟨(disturbed_build hself r interface d b given).disturbed,
    fun s j hs hjournals hO hu hcounts => ?_⟩
  -- The store in which the parts of a definition are asked for.
  let begun : Store → Ref DefinitionCell → Store := fun s d => { s with
    journal := .opened k d.index x.className :: s.journal
    log := s.log ++ [.creating k x.className] }
  have hrun : ∀ (answer : Answering) (r : Ref Injector) (d : Ref DefinitionCell) (s : Store),
      ((Stored.cells s).get d).identifier = x.identifier →
      ((Stored.cells s).get d).className = x.className →
      (build answer r interface d b given).run s
        = ((assemble answer r interface d (b.insert k) given) >>= fun object => do
            note (.closed k d.index)
            pure object).run (begun s d) := by
    intro answer r d s hidentifier hname
    unfold build
    rw [run_bind_ok (run_read d s)]
    dsimp only
    rw [hidentifier, hname, ← hk, run_bind_ok (run_note _ _), run_bind_ok (run_report _ _)]
  have hcell : s.definitions.get d = x := hx s hs
  have hleft := hrun answer r d s (congrArg DefinitionOf.identifier hcell)
    (congrArg DefinitionOf.className hcell)
  have hright := hrun answer' r' d' (s.withJournal j)
    ((hd.identifier s hs).trans (congrArg DefinitionOf.identifier hcell))
    ((hd.className s hs).trans (congrArg DefinitionOf.className hcell))
  have hbegun : I (begun s d) :=
    Steady.grown _ (begun s d) (hopened s hs hO) { Grows.refl s with } rfl
  have hopen : underConstruction (begun s d).journal = k :: O := by
    show underConstruction (_ :: s.journal) = _
    rw [underConstruction, hO]
  have hinner := hassemble.conforms (begun s d)
    (.opened k d'.index x.className :: j) hbegun (.cons halike.1 hjournals) hopen
  rw [hleft] at hu hcounts ⊢
  rw [hright]
  cases hassembled : (assemble answer r interface d (b.insert k) given).run (begun s d) with
  | mk result t =>
    rw [hassembled] at hinner
    cases result with
    | error e =>
      rw [run_bind_error hassembled] at hu hcounts ⊢
      obtain ⟨⟨j', hsame, hj'⟩, hI, -, hbuilds⟩ := hinner hu hcounts
      refine ⟨⟨j', run_bind_error hsame, hj'⟩, hI, (fun _ h => by cases h), fun e' h => ?_⟩
      cases h
      exact hbuilds e rfl
    | ok object =>
      rw [run_bind_ok hassembled, run_bind_ok (run_note _ t)] at hu hcounts ⊢
      obtain ⟨⟨j', hsame, hj'⟩, hI, hback, -⟩ := hinner hu.of_cons (Or.inr rfl)
      refine ⟨⟨.closed k d'.index :: j', ?_, .cons halike.2 hj'⟩, hclosed t hI, fun _ _ => ?_,
        fun _ h => by cases h⟩
      · exact run_bind_ok hsame
      · show underConstruction (_ :: t.journal) = O
        rw [underConstruction, hback object rfl, List.erase_cons_head]

/-- Twins are built alike where their parts are asked for alike. -/
theorem conforms_build
    (hself : ∀ r q, Conforms C (fun _ => False) O O (answer r q none) (answer r q none))
    {r r' : Ref Injector} {interface : String} {d d' : Ref DefinitionCell} {x : DefinitionCell}
    {k : DefinitionKey} (hx : ∀ s, I s → s.definitions.get d = x)
    (hk : k = ⟨interface, x.identifier⟩) (hd : DefinitionTwins I d d')
    (hopened : ∀ s, I s → underConstruction s.journal = O →
      I { s with journal := .opened k d.index x.className :: s.journal })
    (hclosed : ∀ s, I s → I { s with journal := .closed k d.index :: s.journal })
    (halike : C.alike (.opened k d.index x.className) (.opened k d'.index x.className) ∧
      C.alike (.closed k d.index) (.closed k d'.index))
    (ha : Conforming C I (k :: O) (b.insert k) answer answer' r r') (given : Given) :
    Conforms C I O O (build answer r interface d b given)
      (build answer' r' interface d' b given) :=
  conforms_build_of hself hx hk hd.names hopened hclosed halike given
    (conforms_assemble hx hk ha hd given)

/-- What a store answers to a request with a key: the definition that is selected. -/
def Store.selected (s : Store) (r : Ref Injector) (q : Request) (key : DefinitionKey) :
    Except Fault (Ref DefinitionCell) :=
  Selection.select (fun d => (s.definitions.get d).identifier)
    (s.containers.get (s.injectors.get r).container) key q.exclude q.building

/-- An object that was set answers two injectors that hold the same one. -/
theorem conforms_instance? {r r' : Ref Injector} {k : DefinitionKey}
    (hinstances : ∀ s, I s → (s.injectors.get r').instances.get? k
      = (s.injectors.get r).instances.get? k) (given : Given) (x : Exclusions) :
    Conforms C I O O
      (if given.isNone then instance? r k x else pure none : Action (Option Value))
      (if given.isNone then instance? r' k x else pure none) := by
  refine (Conforms.of_keeps fun s => keeps_instance? r given k x s.Grows).of_run fun s j hs => ?_
  split
  · unfold instance?
    split
    · rfl
    · rw [run_bind_ok (run_read r' _), run_bind_ok (run_read r _)]
      have hsame : ((Stored.cells (s.withJournal j)).get r').instances.get? k
          = ((Stored.cells (s.withJournal j)).get r).instances.get? k := hinstances s hs
      rw [hsame]
  · rfl

/-- A request is answered alike over two injectors if they hold the same object for it, or else
select definitions that they build alike. The invariant has to hold on when the request is made. -/
theorem conforms_step
    (hself : ∀ r q, Conforms C (fun _ => False) O O (answer r q none) (answer r q none))
    {r r' : Ref Injector} {q : Request} {given : Given}
    (hrequested : ∀ s, I s → underConstruction s.journal = O →
      I { s with journal := .requested q.interface q.identifier q.exclude q.building :: s.journal })
    (hinstances : C.disturbs (.requested q.interface q.identifier q.exclude q.building) = false →
      ∀ s key, I s → q.key? = .ok key →
        (s.injectors.get r').instances.get? key = (s.injectors.get r).instances.get? key)
    {R : Ref DefinitionCell → Ref DefinitionCell → Prop}
    (hselected : ∀ s key, I s → q.key? = .ok key →
      C.failures ∨ (s.selected r q key).isOk = true →
      Except.Alike R (s.selected r q key) (s.selected r' q key))
    (hbuild : ∀ s key d d', I s → q.key? = .ok key → s.selected r q key = .ok d → R d d' →
      Conforms C I O O (build answer r key.interface d q.building given)
        (build answer' r' key.interface d' q.building given)) :
    Conforms C I O O (step answer r q given) (step answer' r' q given) := by
  rw [step_eq, step_eq]
  by_cases hreached : C.disturbs (.requested q.interface q.identifier q.exclude q.building) = false
  · have hnoted : Conforms C I O O
        (note (.requested q.interface q.identifier q.exclude q.building) : Action Unit)
        (note (.requested q.interface q.identifier q.exclude q.building)) :=
      ⟨(disturbed_note (C := C) (O := O) _).disturbed, fun s j hs halike hO _ _ =>
        ⟨⟨_, rfl, .cons (C.requested _ _ _ _) halike⟩, hrequested s hs hO, fun _ _ => hO,
          fun _ h => by cases h⟩⟩
    refine hnoted.bind fun _ => conforms_lift_bind (direct_key? q) (fun _ => .of_eq rfl)
      fun key _ hkey hsame => ?_
    subst hsame
    refine (conforms_instance? (fun s hs => hinstances hreached s key hs hkey) given
      q.exclude).bind fun found => ?_
    cases found with
    | some v => exact conforms_pure _
    | none =>
      refine conforms_get_bind_of (fun _ _ => rfl)
        (fun s => (conforms_lift (direct_select _ _ _ _ _)).bind fun d =>
          disturbed_build hself r _ d _ given)
        fun s hs => ?_
      exact conforms_lift_bind (direct_select _ _ _ _ _) (hselected s key hs hkey)
        fun d d' => hbuild s key d d' hs hkey
  · -- What is asked for is out of the reach of the comparison.
    refine ⟨((disturbed_note _).bind fun _ => disturbed_respond hself r q given).disturbed,
      fun s j hs halike hO hu => absurd hu ?_⟩
    refine (disturbed_respond hself r q given).disturbed _ fun hall => hreached ?_
    exact hall _ List.mem_cons_self

end Answers

/-! ### Good order -/

/-- A container of a store whose definitions are there and stand under their own identifiers. -/
structure Store.Keyed (s : Store) (c : Ref ContainerCell) : Prop where
  held : s.containers.Holds c
  entries : ∀ k d, (s.containers.get c).find? k = some d →
    s.definitions.Holds d ∧ (s.definitions.get d).identifier = k.identifier

/-- An injector of a store, with a keyed container. -/
structure Store.Ready (s : Store) (r : Ref Injector) : Prop where
  held : s.injectors.Holds r
  keyed : s.Keyed (s.injectors.get r).container

/-- An injector of a store, with a container whose definitions are there. -/
structure Store.Stocked (s : Store) (r : Ref Injector) : Prop where
  held : s.injectors.Holds r
  kept : s.containers.Holds (s.injectors.get r).container
  entries : ∀ k d, (s.containers.get (s.injectors.get r).container).find? k = some d →
    s.definitions.Holds d

/-- What the journal holds does not matter to it. -/
theorem Store.Ready.of_journal {s : Store} {r : Ref Injector} (hr : s.Ready r)
    (j : List JournalEntry) : Store.Ready { s with journal := j } r :=
  ⟨hr.held, ⟨hr.keyed.held, hr.keyed.entries⟩⟩

/-- The keys of the container of an injector. -/
def Store.keysOf (s : Store) (r : Ref Injector) : List DefinitionKey :=
  (s.containers.get (s.injectors.get r).container).entries.map Prod.fst

section Order

variable {s₀ : Store} {keys : List DefinitionKey} {E : Exclusions} {answer answer' : Answering}

/-- A nested request with an identifier asks for a key with an identifier. -/
theorem Request.isSome_of_truthy {q : Request} {key : DefinitionKey} (hkey : q.key? = .ok key)
    (htruthy : q.identifier.truthy = true) : key.identifier.isSome = true := by
  unfold Request.key? DefinitionOf.checkIdentifier at hkey
  split at hkey
  · cases hkey
  · split at hkey
    · rename_i hnull
      rw [hnull] at htruthy
      cases htruthy
    · split at hkey
      · cases hkey
        rfl
      · cases hkey

/-- What is selected in a store that grew stood in the container already, under the key of its
build. It is not under construction if the request is the first one or a nested one. -/
theorem Store.Ready.selected {s : Store} {r : Ref Injector} (hr : s₀.Ready r) (hs : s₀.Grows s)
    {q : Request} {key : DefinitionKey} {d : Ref DefinitionCell} (hkey : q.key? = .ok key)
    (hselected : s.selected r q key = .ok d) :
    s₀.definitions.Holds d ∧ ∃ k, k = ⟨key.interface, (s₀.definitions.get d).identifier⟩ ∧
      (s₀.containers.get (s₀.injectors.get r).container).find? k = some d ∧
      (q.Nested q.building → ∀ {E : Exclusions} {O : List DefinitionKey},
        E.Extended O q.building → k ∉ O) := by
  unfold Store.selected at hselected
  rw [hs.injectors.get hr.held, hs.containers.get hr.keyed.held] at hselected
  obtain ⟨k, hfound, hinterface, hnamed, hunnamed⟩ := Selection.find?_of_select hselected
  obtain ⟨hheld, hidentifier⟩ := hr.keyed.entries k d hfound
  refine ⟨hheld, k, ?_, hfound, fun hnested E O hq hO => ?_⟩
  · rw [hidentifier, ← hinterface]
  · -- What is under construction is being built, so it is not selected by its identifier, and it
    -- is excluded otherwise.
    have hbuilding : k ∈ q.building.keys := (hq k).mpr (Or.inr hO)
    rcases hnested.2 with htruthy | hexclude
    · exact hnamed (Request.isSome_of_truthy hkey htruthy) hbuilding
    · cases hi : key.identifier with
      | some i => exact hnamed (by rw [hi]; rfl) hbuilding
      | none => exact hunnamed hi (hexclude ▸ hbuilding)

/-- What is selected in a store that grew was there already. -/
theorem Store.Stocked.selected {s : Store} {r : Ref Injector} (hr : s₀.Stocked r) (hs : s₀.Grows s)
    {q : Request} {key : DefinitionKey} {d : Ref DefinitionCell}
    (hselected : s.selected r q key = .ok d) : s₀.definitions.Holds d := by
  unfold Store.selected at hselected
  rw [hs.injectors.get hr.held, hs.containers.get hr.kept] at hselected
  obtain ⟨k, hfound, -⟩ := Selection.find?_of_select hselected
  exact hr.entries k d hfound

/-- A request is answered in good order if it is the first one or a nested one, and if the requests
inside the selected definition are. -/
theorem agrees_step (hd : ∀ r q, Agrees (fun _ => False) O (answer r q none) (answer r q none))
    {r : Ref Injector} (hr : s₀.Ready r) {q : Request} (hq : E.Extended O q.building)
    (hnested : O = [] ∨ q.Nested q.building)
    (ha : ∀ k ∈ s₀.keysOf r, k ∉ O → ∀ q' : Request, q'.Nested (q.building.insert k) →
      Agrees (Orderly s₀ (s₀.keysOf r) E) (k :: O) (answer r q' none) (answer' r q' none))
    (given : Given) :
    Agrees (Orderly s₀ (s₀.keysOf r) E) O (step answer r q given) (step answer' r q given) := by
  refine conforms_step hd (fun s hs hO => hs.noted (hs.now.asked (hO.symm ▸ hq)
      (hO.symm ▸ hnested.imp_right fun h => h.2)))
    (fun _ _ _ _ _ => rfl) (fun _ _ _ _ _ => .of_eq rfl)
    fun s key d d' hs hkey hselected hsame => ?_
  subst hsame
  obtain ⟨hheld, k, hk, hfound, hfresh⟩ := hr.selected hs.grows hkey hselected
  have hkeys : k ∈ s₀.keysOf r :=
    List.mem_map.mpr ⟨(k, d), Container.mem_entries_iff.mpr hfound, rfl⟩
  -- On the first level nothing is under construction. Below it, the selected definition is not
  -- excluded.
  have hfree : k ∉ O := by
    rcases hnested with rfl | hnested
    · exact List.not_mem_nil
    · exact hfresh hnested hq
  exact conforms_build hd (fun _ hs => hs.grows.definitions.get hheld) hk (definitionTwins_refl d)
    (fun _ hs hO => hs.noted (hs.now.opened hkeys (hO ▸ hfree) _ _))
    (fun _ hs => hs.noted (hs.now.closed k d.index)) ⟨rfl, rfl⟩
    ⟨fun _ _ => (Injector.Alike.refl _).akin, ha k hkeys hfree⟩ given

end Order

/-! ### Every depth -/

section Depth

variable {s₀ : Store} {r : Ref Injector}

/-- An answer leaves what was disturbed disturbed. -/
theorem disturbed_answer (n : Nat) (r : Ref Injector) (q : Request) (given : Given) :
    Conforms C (fun _ => False) O O (answer n r q given) (answer n r q given) := by
  induction n generalizing r q given with
  | zero => exact conforms_foreign _
  | succ n ih => exact disturbed_step (fun r q => ih r q none) r q given

/-- An invariant that outlasts what a resolution writes into the journal: its requests, and the
beginnings and ends of the builds of definitions in the container. -/
structure Recording (s₀ : Store) (r : Ref Injector) (I : Store → Prop) : Prop where
  grows : ∀ s, I s → s₀.Grows s
  requested : ∀ s i id x b, I s → I { s with journal := .requested i id x b :: s.journal }
  opened : ∀ s k d name, (s₀.containers.get (s₀.injectors.get r).container).find? k = some d →
    I s → I { s with journal := .opened k d.index name :: s.journal }
  closed : ∀ s k d, (s₀.containers.get (s₀.injectors.get r).container).find? k = some d →
    I s → I { s with journal := .closed k d.index :: s.journal }

theorem recording_grows : Recording s₀ r s₀.Grows :=
  ⟨fun _ h => h, fun _ _ _ _ _ h => { h with }, fun _ _ _ _ _ h => { h with },
    fun _ _ _ _ h => { h with }⟩

/-- An answer keeps each such invariant, and its faults tell what was under construction. -/
theorem conforms_answer (hr : s₀.Ready r) (hI : Recording s₀ r I) (n : Nat) (q : Request)
    (given : Given) : Agrees I O (answer n r q given) (answer n r q given) := by
  induction n generalizing O q given with
  | zero => exact conforms_foreign _
  | succ n ih =>
    refine conforms_step (fun r q => disturbed_answer n r q none)
      (fun s hs _ => hI.requested s _ _ _ _ hs) (fun _ _ _ _ _ => rfl)
      (fun _ _ _ _ _ => .of_eq rfl) fun s key d d' hs hkey hselected hsame => ?_
    subst hsame
    obtain ⟨hheld, k, hk, hfound, -⟩ := hr.selected (hI.grows s hs) hkey hselected
    exact conforms_build (fun r q => disturbed_answer n r q none)
      (fun t ht => (hI.grows t ht).definitions.get hheld) hk (definitionTwins_refl d)
      (fun t ht _ => hI.opened t k d _ hfound ht) (fun t ht => hI.closed t k d hfound ht) ⟨rfl, rfl⟩
      ⟨fun _ _ => (Injector.Alike.refl _).akin, fun q' _ => ih q' none⟩ given

/-- An answer over a container whose definitions are there only makes cells, and does the same from
another journal, by each comparison that takes every entry for itself. -/
theorem conforms_answer_self (hC : ∀ e, C.alike e e) (hr : s₀.Stocked r) (n : Nat) (q : Request)
    (given : Given) : Conforms C s₀.Grows O O (answer n r q given) (answer n r q given) := by
  induction n generalizing O q given with
  | zero => exact conforms_foreign _
  | succ n ih =>
    refine conforms_step (fun r q => disturbed_answer n r q none) (fun s hs _ => { hs with })
      (fun _ _ _ _ _ => rfl) (fun _ _ _ _ _ => .of_eq rfl) fun s key d d' hs _ hselected hsame => ?_
    subst hsame
    have hheld := hr.selected hs hselected
    exact conforms_build (fun r q => disturbed_answer n r q none)
      (fun t ht => ht.definitions.get hheld) rfl (definitionTwins_refl d)
      (fun t ht _ => { ht with }) (fun t ht => { ht with }) ⟨hC _, hC _⟩
      ⟨fun _ _ => (Injector.Alike.refl _).akin, fun q' _ => ih q' none⟩ given

/-- So requests inside of a build conform to themselves. -/
theorem conforming_answer (hC : ∀ e, C.alike e e) (hr : s₀.Stocked r) (n : Nat) :
    Conforming C s₀.Grows O b (answer n) (answer n) r r :=
  ⟨fun _ _ => (Injector.Alike.refl _).akin, fun q _ => conforms_answer_self hC hr n q none⟩

end Depth

/-! ### Requests from outside -/

/-- The check of a class changes nothing. -/
theorem keeps_checkExpected {I : Store → Prop} (interface : Value) (expected : Option ClassRef)
    (v : Value) : Keeps I (checkExpected interface expected v) := by
  cases expected with
  | none => exact keeps_pure _
  | some c =>
    refine keeps_get_bind (fun _ _ => rfl) fun s => ?_
    split
    · exact keeps_pure _
    · exact keeps_throw _ rfl

/-- What is done with the outcome of a request from outside. -/
def Store.checked (interface : Value) (expected : Option ClassRef) (x : Except Fault Value) :
    Action Value := do
  let v ← Work.lift x
  checkExpected interface expected v
  pure v

theorem Store.run_request (r : Ref Injector) (q : Request) (given : Given)
    (expected : Option ClassRef) (s : Store) :
    (request r q given expected).run s
      = (checked q.interface expected (s.resolve r q given).1).run (s.resolve r q given).2 := by
  unfold request
  rw [run_bind_ok (run_get s)]
  exact run_bind_ok (run_set s _)

/-- The check neither reads nor writes the journal. -/
theorem Store.run_checked (interface : Value) (expected : Option ClassRef)
    (x : Except Fault Value) (s : Store) (j : List JournalEntry) :
    ((checked interface expected x).run s).2.journal = s.journal ∧
      (checked interface expected x).run (s.withJournal j)
        = (((checked interface expected x).run s).1,
          ((checked interface expected x).run s).2.withJournal j) := by
  cases x with
  | error e => exact ⟨rfl, rfl⟩
  | ok v =>
    obtain ⟨-, hjournal, -, hoblivious⟩ :=
      ((keeps_checkExpected (I := fun _ => True) interface expected v).bind
        fun _ => keeps_pure v) s trivial
    exact ⟨hjournal, hoblivious j⟩

/-! ### All objects of an interface -/

theorem conforms_answerEach {answer answer' : Answering} {r r' : Ref Injector}
    (ha : ∀ q, Conforms C I O O (answer r q none) (answer' r' q none)) (interface : String)
    (identifiers : List (Option String)) :
    Conforms C I O O (answerEach answer r interface identifiers)
      (answerEach answer' r' interface identifiers) := by
  induction identifiers with
  | nil => exact conforms_pure _
  | cons i rest ih =>
    exact (ha _).bind fun v => ih.bind fun more => conforms_pure _

/-- The identifiers that a store lists of an interface. -/
def Store.listed (s : Store) (r : Ref Injector) (interface : Value) :
    Except Fault (List (Option String)) :=
  ((Container.checkInterface interface).mapError .definition).map fun name =>
    ((s.containers.get (s.injectors.get r).container).definitions name).keys

theorem answerAll_eq (answer : Answering) (r : Ref Injector) (interface : Value) :
    answerAll answer r interface = get >>= fun s => lift (s.listed r interface) >>=
      answerEach answer r interface.display := by
  funext s
  unfold answerAll definitionsOf Store.listed
  refine (run_bind_ok (run_read r s)).trans (Eq.trans ?_ (run_bind_ok (run_get s)).symm)
  cases Container.checkInterface interface with
  | error e => rfl
  | ok name => rfl

theorem direct_listed (s : Store) (r : Ref Injector) (interface : Value) :
    Direct (s.listed r interface) := by
  unfold Store.listed
  cases Container.checkInterface interface with
  | error e => exact fun _ h => by cases h; rfl
  | ok name => exact fun _ h => by cases h

/-- Answers for each definition of an interface keep each invariant that an answer keeps. -/
theorem conforms_answerAll {s₀ : Store} {r : Ref Injector} (hr : s₀.Ready r)
    (hI : Recording s₀ r I) (n : Nat) (interface : Value) :
    Agrees I O (answerAll (answer n) r interface) (answerAll (answer n) r interface) := by
  rw [answerAll_eq]
  exact conforms_get_bind (fun _ _ => rfl) fun s => (conforms_lift (direct_listed s r interface)).bind
    fun found => conforms_answerEach (fun q => conforms_answer hr hI n q none) _ found

/-! ### What requests leave alone -/

/-- A request from outside only makes cells, unless it runs a member of a component. -/
theorem grows_request {s : Store} {r : Ref Injector} (hr : s.Ready r) (q : Request) (given : Given)
    (expected : Option ClassRef)
    (hundisturbed : Undisturbed ((request r q given expected).run s).2.journal) :
    s.Grows ((request r q given expected).run s).2 := by
  rw [Store.run_request] at hundisturbed ⊢
  rw [(Store.run_checked _ _ _ _ []).1] at hundisturbed
  have hready : Store.Ready { s with journal := [] } r := hr.of_journal []
  have hresolved : Store.Grows { s with journal := [] } (s.resolve r q given).2 :=
    ((conforms_answer (O := []) hready recording_grows s.depth q given).agrees _ (.refl _) rfl
      hundisturbed).2.1
  have hgrows : s.Grows (s.resolve r q given).2 := { hresolved with }
  cases hanswer : (s.resolve r q given).1 with
  | error e => exact hgrows
  | ok v =>
    exact (((keeps_checkExpected q.interface expected v).bind fun _ => keeps_pure v) _ hgrows).holds

theorem Store.run_requestAll (r : Ref Injector) (interface : Value) (s : Store) :
    (requestAll r interface).run s = (answerAll (answer s.depth) r interface).run s :=
  run_bind_ok (run_get s)

/-- So does a request for all objects of an interface. -/
theorem grows_requestAll {s : Store} {r : Ref Injector} (hr : s.Ready r) (interface : Value)
    (hundisturbed : Undisturbed ((requestAll r interface).run s).2.journal) :
    s.Grows ((requestAll r interface).run s).2 := by
  rw [Store.run_requestAll] at hundisturbed ⊢
  exact ((conforms_answerAll hr recording_grows s.depth interface).agrees s (.refl s) rfl
    hundisturbed).2.1

end Wiring
