import Wiring.Fault
import Wiring.OrderedMap

/-!
# `Wiring.Definition`: how one object is built

A definition names a class, the arguments of its constructor and the calls that follow. An argument
has a kind, which says how its value is found, and properties, which only that way of finding
interprets. Calls are kept by their identifiers: `addCall` replaces the call of a known identifier
where it stands, and gives a call without identifier the next free one.

Calls and definitions are stated over the type of their parts. A declaration holds its parts, and a
cell of the store holds references to them.
-/

set_option autoImplicit false

namespace Wiring

/-- The method whose arguments are those of the constructor. -/
def constructorMethod : String := "__construct"

/-- A declared argument. -/
structure Argument where
  name : String
  kind : String
  properties : List (Value × Value)
  deriving Inhabited

/-- A call with arguments of type `α`. -/
structure CallOf (α : Type) where
  method : String
  identifier : Option String
  arguments : List α
  deriving Inhabited

/-- A definition with calls of type `γ`. -/
structure DefinitionOf (γ : Type) where
  className : String
  identifier : Option String
  interfaces : List String
  constructor : Option γ
  calls : OrderedMap String γ
  deriving Inhabited

/-- A declared call. -/
abbrev Call := CallOf Argument

/-- A declared definition. -/
abbrev Definition := DefinitionOf Call

/-! ### Arguments -/

namespace Argument

/-- Declares an argument. Its name and its kind are texts that are not empty. -/
def declare (name kind : Value) (properties : List (Value × Value)) :
    Except DefinitionFault Argument :=
  match name.name?, kind.name? with
  | none, _ => .error .argumentName
  | some n, none => .error (.argumentType n)
  | some n, some k => .ok ⟨n, k, properties⟩

/-- A property of the argument. -/
def property? (a : Argument) (name : String) : Option Value :=
  Value.lookup (.text name) a.properties

/-- A property of the argument, where a missing one counts as null. -/
def property (a : Argument) (name : String) : Value := (a.property? name).getD .null

/-- Writes a property. -/
def setProperty (a : Argument) (name value : Value) : Argument :=
  { a with properties := Value.put name value a.properties }

/-- The argument on one line. -/
def text (a : Argument) : String :=
  "$" ++ a.name ++ " [" ++ a.kind ++ "] \x7b" ++
    ", ".intercalate (a.properties.map fun p => p.1.display ++ "=" ++ p.2.literal) ++ "\x7d"

/-- Equality of arguments: the order of the properties does not matter. -/
def same (a b : Argument) : Bool :=
  a.name = b.name && a.kind = b.kind &&
    Value.equal (.map none a.properties) (.map none b.properties)

end Argument

/-! ### Calls -/

namespace CallOf

variable {α β : Type}

/-- Declares a call. Its method is a text that is not empty, and so is its identifier, if any. -/
def declare (method identifier : Value) (arguments : List α) : Except DefinitionFault (CallOf α) :=
  match method.name? with
  | none => .error .methodName
  | some m =>
    match identifier with
    | .null => .ok ⟨m, none, arguments⟩
    | v =>
      match v.name? with
      | none => .error (.callIdentifier m)
      | some i => .ok ⟨m, some i, arguments⟩

/-- Whether the arguments of the call are those of the constructor. -/
def isConstructor (c : CallOf α) : Bool := c.method = constructorMethod

/-- Adds an argument behind the others. -/
def addArgument (c : CallOf α) (a : α) : CallOf α := { c with arguments := c.arguments ++ [a] }

/-- Changes every argument. -/
def map (f : α → β) (c : CallOf α) : CallOf β := ⟨c.method, c.identifier, c.arguments.map f⟩

/-- The call on one line. -/
def text (c : Call) : String :=
  c.method ++ "(" ++ ", ".intercalate (c.arguments.map Argument.text) ++ ")"

/-- Equality of lists of arguments. -/
def sameArguments : List Argument → List Argument → Bool
  | [], [] => true
  | a :: as, b :: bs => a.same b && sameArguments as bs
  | _, _ => false

/-- Equality of calls. -/
def same (a b : Call) : Bool :=
  a.method = b.method && sameArguments a.arguments b.arguments && a.identifier = b.identifier

end CallOf

/-! ### Definitions -/

/-- Where a definition keeps a call. -/
inductive CallPlace where
  | constructor
  | keyed (identifier : String)
  deriving DecidableEq

namespace DefinitionOf

variable {γ δ : Type}

/-- Checks the name of a class. -/
def checkClassName (v : Value) : Except DefinitionFault String :=
  match v.name? with
  | some n => .ok n
  | none => .error .className

/-- Checks an identifier: null, or a text that is not empty. The owner is named in the fault. -/
def checkIdentifier (owner : String) : Value → Except DefinitionFault (Option String)
  | .null => .ok none
  | v =>
    match v.name? with
    | some i => .ok (some i)
    | none => .error (.identifier owner)

/-- Checks the names of interfaces and drops repetitions. -/
def checkNames (className : String) :
    List String → List Value → Except DefinitionFault (List String)
  | seen, [] => .ok seen
  | seen, v :: rest =>
    match v.name? with
    | none => .error (.interfaceOf className)
    | some n => checkNames className (if n ∈ seen then seen else seen ++ [n]) rest

/-- Checks a collection of interfaces. An empty value of any type stands for no interfaces. -/
def checkInterfaces (className : String) (v : Value) : Except Fault (List String) :=
  if !v.truthy then .ok []
  else
    match v.parts? with
    | none => .error (.foreign .type)
    | some items => (checkNames className [] items).mapError .definition

/-- Declares a definition without calls. -/
def declare (className identifier interfaces : Value) : Except Fault (DefinitionOf γ) := do
  let c ← (checkClassName className).mapError .definition
  let i ← (checkIdentifier c identifier).mapError .definition
  let names ← checkInterfaces c interfaces
  .ok ⟨c, i, names, none, .empty⟩

/-- The interfaces of a definition: the declared ones, or else the class. -/
def allInterfaces (d : DefinitionOf γ) : List String :=
  if d.interfaces.isEmpty then [d.className] else d.interfaces

/-- The calls after construction, in order. -/
def callList (d : DefinitionOf γ) : List γ := d.calls.values

/-- The identifier of a call by number. -/
def numbered (n : Nat) : String := "c" ++ toString n

/-- The first number from the count of the calls on that no call is known by. -/
def freeIdentifier (d : DefinitionOf γ) : String :=
  let n := d.calls.size
  (((List.range (n + 1)).map fun i => numbered (n + i)).find? fun k => !d.calls.contains k).getD
    (numbered n)

/-- Where the definition would keep a call. -/
def placeFor {α : Type} (d : DefinitionOf γ) (c : CallOf α) : CallPlace :=
  if c.isConstructor then .constructor else .keyed (c.identifier.getD d.freeIdentifier)

/-- Keeps a call at its place. -/
def keep (d : DefinitionOf γ) (place : CallPlace) (c : γ) : DefinitionOf γ :=
  match place with
  | .constructor => { d with constructor := some c }
  | .keyed i => { d with calls := d.calls.insert i c }

/-- Adds a declared call. A constructor call replaces the one before. -/
def addCall (d : Definition) (c : Call) : Definition :=
  match d.placeFor c with
  | .constructor => d.keep .constructor c
  | .keyed i => d.keep (.keyed i) { c with identifier := some i }

/-- Changes every call. -/
def map (f : γ → δ) (d : DefinitionOf γ) : DefinitionOf δ where
  className := d.className
  identifier := d.identifier
  interfaces := d.interfaces
  constructor := d.constructor.map f
  calls := d.calls.map f

/-- The arguments of the constructor. -/
def constructorArguments (d : Definition) : List Argument :=
  match d.constructor with
  | some c => c.arguments
  | none => []

/-- Equality of call tables, entry by entry. -/
def sameCalls : List (String × Call) → List (String × Call) → Bool
  | [], [] => true
  | a :: as, b :: bs => a.1 = b.1 && a.2.same b.2 && sameCalls as bs
  | _, _ => false

/-- Equality of optional calls. -/
def sameConstructor : Option Call → Option Call → Bool
  | none, none => true
  | some a, some b => a.same b
  | _, _ => false

/-- Equality of definitions. -/
def same (a b : Definition) : Bool :=
  a.className = b.className && a.identifier = b.identifier && a.interfaces = b.interfaces &&
    sameConstructor a.constructor b.constructor && sameCalls a.calls.entries b.calls.entries

end DefinitionOf

end Wiring
