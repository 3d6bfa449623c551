import Wiring.Store.Containers

/-!
# `Wiring.Store.Injectors`: registries and injectors as cells

An injector is made with a container, a registry and a configuration, or with new ones in place of
those that it is not given; only the configuration may be missing. It starts with a parser for each
kind of argument and without objects that were set by hand.
-/

set_option autoImplicit false

namespace Wiring

namespace Store

/-! ### Registries -/

/-- Registers a class. -/
def register (r : Ref Registry) (c : ClassRef) (name : Option String) : Action Unit := do
  let p := (← get).program
  change r fun x => x.register p c name

/-- Registers a function. -/
def registerFunction (r : Ref Registry) (f : Function) (name : Option String) : Action Unit :=
  change r fun x => x.registerFunction f name

/-! ### Injectors -/

/-- A cell that is given, or else a new one. -/
def orNew {α : Type} [Stored α] (given : Option (Ref α)) (w : Action α) : Action (Ref α) :=
  match given with
  | some r => pure r
  | none => do make (← w)

/-- Makes an injector. -/
def makeInjector (container : Option (Ref ContainerCell)) (registry : Option (Ref Registry))
    (config : Option (Ref Config)) : Action (Ref Injector) := do
  let c ← orNew container (pure Container.empty)
  let f ← orNew registry (pure Registry.empty)
  make ⟨c, f, config, Parser.standard, .empty⟩

/-- The interface that a value stands for in an injector: that of its class. -/
def interfaceOf (r : Ref Injector) (v : Value) : Action String := do
  let s ← get
  pure ((s.registries.get (s.injectors.get r).registry).interfaceName s.program (s.classOf v))

/-- The interface that an object is set for: the given one, or else that of its class. -/
def interfaceFor (r : Ref Injector) (value interface : Value) : Action String :=
  match interface with
  | .null => interfaceOf r value
  | v =>
    match v.name? with
    | some n => pure n
    | none => throw (.definition .requestedInterface)

/-- Sets the object that answers a request. Without an interface, it answers for its class. Nothing
can be requested by an identifier that is no text. -/
def setInstance (r : Ref Injector) (value interface identifier : Value) : Action Unit := do
  let name ← interfaceFor r value interface
  match ← Work.lift (soughtIdentifier identifier) with
  | (true, i) => change r fun x => { x with instances := x.instances.insert ⟨name, i⟩ value }
  | (false, _) => pure ()

/-- Sets the parser for a kind of arguments, or removes it. -/
def setParser (r : Ref Injector) (kind : Value) (parser : Option (Parser (Ref Config))) :
    Action Unit := do
  match kind.name? with
  | none => throw (.definition .parserKind)
  | some k =>
    change r fun i =>
      { i with parsers := match parser with
        | some x => i.parsers.insert k x
        | none => i.parsers.erase k }

/-- Sets the container of an injector, and forgets the objects that were set if asked to. -/
def setContainer (r : Ref Injector) (c : Ref ContainerCell) (clear : Bool) : Action Unit :=
  change r fun i =>
    { i with container := c, instances := if clear then .empty else i.instances }

/-- The parsers of an injector by the kinds of their arguments. -/
def parserTable (r : Ref Injector) : Action Value := do
  settle (.map none ((← read r).parsers.entries.map fun e => (.text e.1, e.2.value)))

end Store

end Wiring
