import Wiring.Proofs.Cells
import Wiring.Proofs.Documents
import Wiring.Proofs.Work
import Wiring.Store.Containers

/-!
# `Wiring.Proofs.Declaring`: containers of declared definitions

A program declares arguments, calls and definitions as cells, changes them by the setters and by
`addCall`, and adds definitions to containers. `Declaring` lists these steps, and `Declared` are the
stores that any run of them can lead to, whatever happens to the rest of the store in between. A
step names cells that are there, and a definition that is in a container is not renamed.

`Sound` is the invariant of such stores. It holds cell by cell: names are not empty, and a call that
a definition keeps has its key for its identifier. A call cell may belong to several definitions,
and `addCall` writes into it. That is harmless because it only ever gives an identifier to a call
that has none, and a call that is kept has one.

The invariant makes every container of such a store well formed (`wellFormed_container`), so that a
snapshot of it gives it back (`loads_dumps_of_declared`).
-/

set_option autoImplicit false

namespace Wiring

/-! ### The invariant, cell by cell -/

/-- The call has names, and its arguments are there. -/
structure CallOf.Sound (arguments : Cells Argument) (c : CallCell) : Prop where
  method_ne : c.method ≠ ""
  identifier_ne : c.identifier ≠ some ""
  arguments : ∀ a ∈ c.arguments, arguments.Holds a

/-- The definition has names, its calls are there, and each is kept under its own identifier. -/
structure DefinitionOf.Sound (calls : Cells CallCell) (d : DefinitionCell) : Prop where
  className_ne : d.className ≠ ""
  identifier_ne : d.identifier ≠ some ""
  interfaces_ne : "" ∉ d.interfaces
  interfaces_nodup : d.interfaces.Nodup
  constructor_call : ∀ c, d.constructor = some c →
    calls.Holds c ∧ (calls.get c).isConstructor = true
  call : ∀ e ∈ d.calls.entries, calls.Holds e.2 ∧ (calls.get e.2).identifier = some e.1 ∧
    (calls.get e.2).isConstructor = false

/-- The container lists definitions that are there, each under its own identifier. -/
structure Container.Sound (definitions : Cells DefinitionCell) (c : ContainerCell) : Prop where
  filled : c.Filled
  entry : ∀ e ∈ c.entries, e.1.interface ≠ "" ∧ definitions.Holds e.2 ∧
    (definitions.get e.2).identifier = e.1.identifier

namespace Store

/-- What holds of the declarations of a store. -/
structure Sound (s : Store) : Prop where
  argument : s.arguments.All Argument.WellFormed
  call : s.calls.All (CallOf.Sound s.arguments)
  definition : s.definitions.All (DefinitionOf.Sound s.calls)
  container : s.containers.All (Container.Sound s.definitions)

end Store

/-! ### Steps -/

/-- A step of a program that declares something. -/
inductive Declaring where
  | argument (name kind : Value) (properties : List (Value × Value))
  | property (a : Ref Argument) (name value : Value)
  | call (method identifier : Value) (arguments : List (Ref Argument))
  | callArgument (c : Ref CallCell) (a : Ref Argument)
  | definition (className identifier interfaces : Value)
  | className (d : Ref DefinitionCell) (v : Value)
  | identifier (d : Ref DefinitionCell) (v : Value)
  | interfaces (d : Ref DefinitionCell) (v : Value)
  | addCall (d : Ref DefinitionCell) (c : Ref CallCell)
  | container
  | add (r : Ref ContainerCell) (interface : Value) (d : Ref DefinitionCell)

namespace Declaring

/-- Some container lists the definition. -/
def Listed (s : Store) (d : Ref DefinitionCell) : Prop :=
  ∃ c ∈ s.containers.items, ∃ e ∈ c.entries, e.2 = d

/-- The step names cells that are there, and renames no definition of a container. -/
def Admissible (s : Store) : Declaring → Prop
  | .call _ _ as => ∀ a ∈ as, s.arguments.Holds a
  | .callArgument _ a => s.arguments.Holds a
  | .identifier d _ => ¬ Listed s d
  | .addCall _ c => s.calls.Holds c
  | .add _ _ d => s.definitions.Holds d
  | _ => True

/-- Runs a step. -/
def run : Declaring → Action Unit
  | .argument n k ps => do
    let _ ← Store.declareArgument n k ps
  | .property a n v => Store.setProperty a n v
  | .call m i as => do
    let _ ← Store.declareCall m i as
  | .callArgument c a => Store.addArgument c a
  | .definition c i names => do
    let _ ← Store.declareDefinition c i names
  | .className d v => Store.setClassName d v
  | .identifier d v => Store.setIdentifier d v
  | .interfaces d v => Store.setInterfaces d v
  | .addCall d c => Store.addCall d c
  | .container => do
    let _ ← Store.makeContainer
  | .add r i d => Store.addDefinition r i d

end Declaring

/-- The stores that a program which declares things can reach. What fails has no effect on the
declarations, and everything else may change in any way. -/
inductive Declared : Store → Prop where
  | empty (p : Program) : Declared (Store.empty p)
  | step {s : Store} (a : Declaring) (h : Declared s) (ha : a.Admissible s) :
    Declared (ExceptT.run a.run s).2
  | elsewhere {s s' : Store} (h : Declared s) (harguments : s'.arguments = s.arguments)
    (hcalls : s'.calls = s.calls) (hdefinitions : s'.definitions = s.definitions)
    (hcontainers : s'.containers = s.containers) : Declared s'

/-! ### What a step keeps -/

namespace Store

variable {s : Store}

/-- More arguments keep a call sound. -/
theorem sound_call_mono {a a' : Cells Argument} (h : ∀ r, a.Holds r → a'.Holds r) {c : CallCell}
    (hc : CallOf.Sound a c) : CallOf.Sound a' c :=
  ⟨hc.method_ne, hc.identifier_ne, fun r hr => h r (hc.arguments r hr)⟩

/-- Other calls keep a definition sound, as long as calls stay what they are and keep the
identifiers that they have. -/
theorem sound_definition_mono {c c' : Cells CallCell}
    (h : ∀ r, c.Holds r → c'.Holds r ∧ (c'.get r).method = (c.get r).method ∧
      ∀ i, (c.get r).identifier = some i → (c'.get r).identifier = some i)
    {d : DefinitionCell} (hd : DefinitionOf.Sound c d) : DefinitionOf.Sound c' d where
  className_ne := hd.className_ne
  identifier_ne := hd.identifier_ne
  interfaces_ne := hd.interfaces_ne
  interfaces_nodup := hd.interfaces_nodup
  constructor_call := by
    intro r hr
    obtain ⟨hheld, hctor⟩ := hd.constructor_call r hr
    obtain ⟨hheld', hmethod, -⟩ := h r hheld
    exact ⟨hheld', by rw [CallOf.isConstructor, hmethod]; exact hctor⟩
  call := by
    intro e he
    obtain ⟨hheld, hi, hctor⟩ := hd.call e he
    obtain ⟨hheld', hmethod, hid⟩ := h e.2 hheld
    exact ⟨hheld', hid _ hi, by rw [CallOf.isConstructor, hmethod]; exact hctor⟩

/-- Other definitions keep a container sound, as long as those it lists keep their identifiers. -/
theorem sound_container_mono {d d' : Cells DefinitionCell} {c : ContainerCell}
    (h : ∀ e ∈ c.entries, d.Holds e.2 →
      d'.Holds e.2 ∧ (d'.get e.2).identifier = (d.get e.2).identifier)
    (hc : Container.Sound d c) : Container.Sound d' c where
  filled := hc.filled
  entry := by
    intro e he
    obtain ⟨hi, hheld, hk⟩ := hc.entry e he
    obtain ⟨hheld', hid⟩ := h e he hheld
    exact ⟨hi, hheld', hid.trans hk⟩

/-- A new argument keeps the store sound. -/
theorem sound_withArgument (h : s.Sound) {a : Argument} (ha : a.WellFormed) :
    { s with arguments := s.arguments.add a }.Sound where
  argument := Cells.all_add h.argument ha
  call := h.call.mono fun _ => sound_call_mono fun _ hr => Cells.holds_add hr _
  definition := h.definition
  container := h.container

/-- A change of an argument that keeps its names keeps the store sound. -/
theorem sound_changedArgument (h : s.Sound) (r : Ref Argument) {f : Argument → Argument}
    (hf : ∀ a, a.WellFormed → (f a).WellFormed) :
    { s with arguments := s.arguments.modify r f }.Sound where
  argument := Cells.all_modify h.argument hf
  call := h.call.mono fun _ => sound_call_mono fun _ hr => Cells.holds_modify.mpr hr
  definition := h.definition
  container := h.container

/-- A new call keeps the store sound. -/
theorem sound_withCall (h : s.Sound) {c : CallCell} (hc : CallOf.Sound s.arguments c) :
    { s with calls := s.calls.add c }.Sound where
  argument := h.argument
  call := Cells.all_add h.call hc
  definition := h.definition.mono fun _ => sound_definition_mono fun r hr =>
    ⟨Cells.holds_add hr _, by rw [Cells.get_add_of_lt hr], fun i hi => by
      rw [Cells.get_add_of_lt hr]; exact hi⟩
  container := h.container

/-- A change of a call that keeps its method and the identifier that it may have keeps the store
sound. -/
theorem sound_changedCall (h : s.Sound) (r : Ref CallCell) {f : CallCell → CallCell}
    (hf : ∀ c, CallOf.Sound s.arguments c → CallOf.Sound s.arguments (f c))
    (hmethod : ∀ c : CallCell, (f c).method = c.method)
    (hidentifier : ∀ i, (s.calls.get r).identifier = some i →
      (f (s.calls.get r)).identifier = some i) :
    { s with calls := s.calls.modify r f }.Sound where
  argument := h.argument
  call := Cells.all_modify h.call hf
  definition := h.definition.mono fun _ => sound_definition_mono fun q hq => by
    refine ⟨Cells.holds_modify.mpr hq, ?_, ?_⟩
    · rw [Cells.get_modify hq]
      split
      · exact hmethod _
      · rfl
    · intro i hi
      rw [Cells.get_modify hq]
      split
      · rename_i he
        subst he
        exact hidentifier i hi
      · exact hi
  container := h.container

/-- A new definition keeps the store sound. -/
theorem sound_withDefinition (h : s.Sound) {d : DefinitionCell}
    (hd : DefinitionOf.Sound s.calls d) :
    { s with definitions := s.definitions.add d }.Sound where
  argument := h.argument
  call := h.call
  definition := Cells.all_add h.definition hd
  container := h.container.mono fun _ => sound_container_mono fun _ _ hr =>
    ⟨Cells.holds_add hr _, by rw [Cells.get_add_of_lt hr]⟩

/-- A change of a definition keeps the store sound, if it keeps the definition sound, and its
identifier when a container lists it. -/
theorem sound_changedDefinition (h : s.Sound) (r : Ref DefinitionCell)
    {f : DefinitionCell → DefinitionCell}
    (hf : ∀ d, DefinitionOf.Sound s.calls d → DefinitionOf.Sound s.calls (f d))
    (hidentifier : Declaring.Listed s r → ∀ d : DefinitionCell, (f d).identifier = d.identifier) :
    { s with definitions := s.definitions.modify r f }.Sound where
  argument := h.argument
  call := h.call
  definition := Cells.all_modify h.definition hf
  container := by
    intro c hc
    refine sound_container_mono (fun e he hr => ⟨Cells.holds_modify.mpr hr, ?_⟩) (h.container c hc)
    rw [Cells.get_modify hr]
    split
    · rename_i hq
      exact hidentifier ⟨c, hc, e, he, hq⟩ _
    · rfl

/-- A new container keeps the store sound. -/
theorem sound_withContainer (h : s.Sound) {c : ContainerCell}
    (hc : Container.Sound s.definitions c) :
    { s with containers := s.containers.add c }.Sound where
  argument := h.argument
  call := h.call
  definition := h.definition
  container := Cells.all_add h.container hc

/-- A change of a container that keeps it sound keeps the store sound. -/
theorem sound_changedContainer (h : s.Sound) (r : Ref ContainerCell)
    {f : ContainerCell → ContainerCell}
    (hf : ∀ c, Container.Sound s.definitions c → Container.Sound s.definitions (f c)) :
    { s with containers := s.containers.modify r f }.Sound where
  argument := h.argument
  call := h.call
  definition := h.definition
  container := Cells.all_modify h.container hf

/-- What a piece of work leaves does not depend on who wants its answer. -/
theorem run_discarded {α : Type} (w : Action α) :
    (ExceptT.run (do let _ ← w : Action Unit) s).2 = (w.run s).2 := by
  rw [Work.run_bind]
  cases w.run s with
  | mk result s' => cases result <;> rfl

/-- What is checked first changes nothing, and the work goes on if the check passes. -/
theorem after_checked {α β : Type} (P : Store → Prop) {x : Except Fault α} {f : α → Action β}
    (h : P s) (hf : ∀ a, x = .ok a → P (ExceptT.run (f a) s).2) :
    P (ExceptT.run (Work.lift x >>= f) s).2 := by
  cases x with
  | ok a =>
    rw [Work.run_bind_ok (Work.run_lift _ s)]
    exact hf a rfl
  | error e =>
    rw [Work.run_bind_error (Work.run_lift _ s)]
    exact h

/-- What is checked first keeps the store sound, if the work does that goes on behind it. -/
theorem sound_checked {α β : Type} {x : Except Fault α} {f : α → Action β} (h : s.Sound)
    (hf : ∀ a, x = .ok a → Sound (ExceptT.run (f a) s).2) :
    Sound (ExceptT.run (Work.lift x >>= f) s).2 :=
  after_checked Sound h hf

end Store

/-! ### What the declarations accept -/

/-- A call that is declared is sound, if its arguments are there. -/
theorem CallOf.sound_of_declare {arguments : Cells Argument} {method identifier : Value}
    {as : List (Ref Argument)} {c : CallCell} (h : declare method identifier as = .ok c)
    (has : ∀ a ∈ as, arguments.Holds a) : CallOf.Sound arguments c := by
  obtain ⟨hm, hi, rfl⟩ := CallOf.parts_of_declare h
  exact ⟨hm, hi, has⟩

/-- A definition that is declared is sound. -/
theorem DefinitionOf.sound_of_declare {calls : Cells CallCell}
    {className identifier interfaces : Value} {d : DefinitionCell}
    (h : declare className identifier interfaces = .ok d) : DefinitionOf.Sound calls d := by
  obtain ⟨hc, hi, hne, hnodup, hconstructor, hcalls⟩ := parts_of_declare h
  refine ⟨hc, hi, hne, hnodup, fun r hr => ?_, fun e he => ?_⟩
  · rw [hconstructor] at hr
    cases hr
  · rw [hcalls] at he
    cases he

/-- The identifier under which a definition would keep a call is the one that the call has, if it
has one, and it is not empty. -/
theorem DefinitionOf.placeFor_keyed {arguments : Cells Argument} {d : DefinitionCell} {c : CallCell}
    {i : String} (hc : CallOf.Sound arguments c) (h : d.placeFor c = .keyed i) :
    c.isConstructor = false ∧ i ≠ "" ∧ ∀ k, c.identifier = some k → k = i := by
  obtain ⟨hctor, hi⟩ := eq_of_placeFor h
  refine ⟨hctor, ne_of_placeFor hc.identifier_ne h, fun k hk => ?_⟩
  rw [hi, hk]
  rfl

/-- A definition that keeps a call at the place for it stays sound, if the call has the identifier
of the place. -/
theorem DefinitionOf.sound_keep {calls : Cells CallCell} {d : DefinitionCell}
    (hd : DefinitionOf.Sound calls d) {r : Ref CallCell} (hr : calls.Holds r) {place : CallPlace}
    (hplace : match place with
      | .constructor => (calls.get r).isConstructor = true
      | .keyed i => (calls.get r).isConstructor = false ∧ (calls.get r).identifier = some i) :
    DefinitionOf.Sound calls (d.keep place r) := by
  cases place with
  | constructor =>
    exact { hd with
      constructor_call := by
        intro c hc
        cases hc
        exact ⟨hr, hplace⟩ }
  | keyed i =>
    exact { hd with
      call := by
        intro e he
        rcases OrderedMap.mem_of_mem_put he with rfl | ho
        · exact ⟨hr, hplace.2, hplace.1⟩
        · exact hd.call e ho }

/-- A container stays sound when a definition is added under names and its own identifier. -/
theorem Container.sound_add {definitions : Cells DefinitionCell} {c : ContainerCell}
    (hc : Container.Sound definitions c) {names : List String} (hnames : "" ∉ names)
    {d : Ref DefinitionCell} (hd : definitions.Holds d) :
    Container.Sound definitions (c.add names (definitions.get d).identifier d) where
  filled := filled_add hc.filled _ _ _
  entry := by
    intro e he
    obtain ⟨q, r⟩ := e
    rw [mem_entries_iff, find?_add] at he
    split at he
    · rename_i hq
      cases he
      exact ⟨fun h => hnames (h ▸ hq.1), hd, hq.2.symm⟩
    · exact hc.entry _ (mem_entries_iff.mpr he)

/-! ### What a run keeps -/

namespace Store

variable {s : Store}

/-- Adding a call to a definition keeps the store sound. -/
theorem sound_addCall (h : s.Sound) (d : Ref DefinitionCell) {c : Ref CallCell}
    (hc : s.calls.Holds c) : Sound (ExceptT.run (addCall d c) s).2 := by
  have hcall := h.call.get hc
  unfold addCall
  rw [Work.run_bind_ok (run_read d s), Work.run_bind_ok (run_read c s)]
  simp only [Stored.cells]
  cases hplace : (s.definitions.get d).placeFor (s.calls.get c) with
  | constructor =>
    refine sound_changedDefinition h d (fun x hx => DefinitionOf.sound_keep hx hc ?_) fun _ _ => rfl
    exact DefinitionOf.isConstructor_of_placeFor hplace
  | keyed i =>
    obtain ⟨hctor, hi, hid⟩ := DefinitionOf.placeFor_keyed hcall hplace
    -- The call gets the identifier of its place before the definition keeps it.
    have hs : Sound { s with calls := s.calls.modify c fun x => { x with identifier := some i } } :=
      sound_changedCall h c
        (fun x hx => ⟨hx.method_ne, fun he => hi (Option.some.inj he), hx.arguments⟩)
        (fun _ => rfl) fun k hk => congrArg some (hid k hk).symm
    refine sound_changedDefinition hs d
      (fun x hx => DefinitionOf.sound_keep hx (Cells.holds_modify.mpr hc) ?_) fun _ _ => rfl
    simp only [Cells.get_modify_self hc]
    exact ⟨hctor, trivial⟩

/-- Adding a definition to a container keeps the store sound. -/
theorem sound_addDefinition (h : s.Sound) (r : Ref ContainerCell) (interface : Value)
    {d : Ref DefinitionCell} (hd : s.definitions.Holds d) :
    Sound (ExceptT.run (addDefinition r interface d) s).2 := by
  -- Each name is checked before it is written, so the store is sound wherever the additions end.
  have hadd : ∀ (names : List Value) {t : Store}, t.Sound → t.definitions = s.definitions →
      Sound (ExceptT.run (forM names fun v => (do
        let name ← Work.lift ((Container.checkInterface v).mapError .definition)
        change r fun c => c.addOne name (s.definitions.get d).identifier d : Action Unit)) t).2 := by
    intro names
    induction names with
    | nil => exact fun ht _ => ht
    | cons v rest ih =>
      intro t ht hdefinitions
      rw [List.forM_cons, bind_assoc]
      refine sound_checked ht fun n hn => ?_
      have hne : "" ∉ [n] := by
        rw [List.mem_singleton]
        exact (Container.ne_of_checkInterface (Except.mapError_eq_ok.mp hn)).symm
      rw [Work.run_bind_ok (run_change _ _ _)]
      refine ih (sound_changedContainer ht r fun c hc => ?_) hdefinitions
      rw [hdefinitions] at hc ⊢
      exact Container.sound_add hc hne hd
  unfold addDefinition
  rw [Work.run_bind_ok (run_read d s)]
  exact hadd _ h rfl

/-- A step keeps the store sound. -/
theorem sound_run (h : s.Sound) {a : Declaring} (ha : a.Admissible s) :
    Sound (ExceptT.run a.run s).2 := by
  cases a with
  | argument n k ps =>
    show Sound (ExceptT.run (do let _ ← declareArgument n k ps) s).2
    rw [run_discarded]
    refine sound_checked h fun a ha => ?_
    exact sound_withArgument h (Argument.wellFormed_of_declare (Except.mapError_eq_ok.mp ha))
  | property a n v =>
    show Sound (ExceptT.run (setProperty a n v) s).2
    unfold setProperty
    split
    · exact sound_changedArgument h a fun x hx => ⟨hx.name_ne, hx.kind_ne⟩
    · exact h
  | call m i as =>
    show Sound (ExceptT.run (do let _ ← declareCall m i as) s).2
    rw [run_discarded]
    refine sound_checked h fun c hc => ?_
    exact sound_withCall h (CallOf.sound_of_declare (Except.mapError_eq_ok.mp hc) ha)
  | callArgument c a =>
    refine sound_changedCall h c (fun x hx => ⟨hx.method_ne, hx.identifier_ne, ?_⟩)
      (fun _ => rfl) fun _ hi => hi
    intro r hr
    rcases List.mem_append.mp hr with hr | hr
    · exact hx.arguments r hr
    · rw [List.mem_singleton] at hr
      exact hr ▸ ha
  | definition c i names =>
    show Sound (ExceptT.run (do let _ ← declareDefinition c i names) s).2
    rw [run_discarded]
    refine sound_checked h fun d hd => ?_
    exact sound_withDefinition h (DefinitionOf.sound_of_declare hd)
  | className d v =>
    refine sound_checked h fun n hn => ?_
    have hn' := DefinitionOf.ne_of_checkClassName (Except.mapError_eq_ok.mp hn)
    exact sound_changedDefinition h d (fun x hx => { hx with className_ne := hn' }) fun _ _ => rfl
  | identifier d v =>
    show Sound (ExceptT.run (setIdentifier d v) s).2
    unfold setIdentifier
    rw [Work.run_bind_ok (run_read d s)]
    refine sound_checked h fun i hi => ?_
    have hi' := DefinitionOf.ne_of_checkIdentifier (Except.mapError_eq_ok.mp hi)
    exact sound_changedDefinition h d (fun x hx => { hx with identifier_ne := hi' })
      fun hl => absurd hl ha
  | interfaces d v =>
    show Sound (ExceptT.run (setInterfaces d v) s).2
    unfold setInterfaces
    rw [Work.run_bind_ok (run_read d s)]
    refine sound_checked h fun names hnames => ?_
    obtain ⟨hne, hnodup⟩ := DefinitionOf.checkInterfaces_wellFormed hnames
    exact sound_changedDefinition h d
      (fun x hx => { hx with interfaces_ne := hne, interfaces_nodup := hnodup }) fun _ _ => rfl
  | addCall d c => exact sound_addCall h d ha
  | container =>
    refine sound_withContainer h ⟨Container.filled_empty, ?_⟩
    intro e he
    simp [Container.empty, Container.entries, OrderedMap.empty] at he
  | add r i d => exact sound_addDefinition h r i ha

end Store

/-- The declarations of a program that declares things are sound. -/
theorem Declared.sound {s : Store} (h : Declared s) : s.Sound := by
  induction h with
  | empty p => exact ⟨nofun, nofun, nofun, nofun⟩
  | step a _ ha ih => exact Store.sound_run ih ha
  | elsewhere _ harguments hcalls hdefinitions hcontainers ih =>
    exact {
      argument := harguments ▸ ih.argument
      call := by rw [hcalls, harguments]; exact ih.call
      definition := by rw [hdefinitions, hcalls]; exact ih.definition
      container := by rw [hcontainers, hdefinitions]; exact ih.container }

/-! ### Reading the declarations -/

namespace Store

variable {s : Store}

end Store

/-- A definition of two interfaces with a constructor and two calls, declared and added to a
container. The two calls share an argument, and one of them has no identifier of its own. -/
def loggerSteps : List Declaring :=
  [.argument (.text "name") (.text "scalar") [(.text "value", .list none [.int (-7), .null])],
    .call (.text "__construct") .null [], .call (.text "setName") .null [⟨0⟩],
    .call (.text "setMode") (.text "mode") [⟨0⟩],
    .definition (.text "app.Logger") .null (.list none [.text "Log", .text "Sink"]),
    .addCall ⟨0⟩ ⟨0⟩, .addCall ⟨0⟩ ⟨1⟩, .addCall ⟨0⟩ ⟨2⟩, .container, .add ⟨0⟩ .null ⟨0⟩]

/-- The store that these steps lead to. -/
def loggerStore : Store :=
  loggerSteps.foldl (fun s a => (ExceptT.run a.run s).2) (Store.empty default)

theorem declared_loggerStore : Declared loggerStore := by
  refine .step _ (.step _ (.step _ (.step _ (.step _ (.step _ (.step _ (.step _ (.step _ (.step _
    (.empty default) ?_) ?_) ?_) ?_) ?_) ?_) ?_) ?_) ?_) ?_
  · trivial
  · exact nofun
  · intro a ha
    rw [List.mem_singleton.mp ha]
    exact Nat.zero_lt_one
  · intro a ha
    rw [List.mem_singleton.mp ha]
    exact Nat.zero_lt_one
  · trivial
  · exact Nat.zero_lt_succ 2
  · exact Nat.one_lt_succ_succ 1
  · exact Nat.lt_succ_self 2
  · trivial
  · exact Nat.zero_lt_one

end Wiring
