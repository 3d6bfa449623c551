import Wiring.Definition
import Wiring.Xml.Element

/-!
# `Wiring.Declaration`: definitions as they are declared in a file

A declaration is a dependency element with its own attributes and its direct children, before what
it extends is known. An empty attribute counts as a missing one. `ofElement` reads all dependency
elements of a tree in document order and fails at the first that is malformed; each fault names the
source.
-/

set_option autoImplicit false

namespace Wiring

open Wiring.Xml

/-- A declared dependency. -/
structure Declaration where
  interface : Option String
  className : Option String
  identifier : Option String
  /-- The reference to the definition that this one extends. -/
  base : Option String
  interfaces : List String
  calls : List Call
  source : String
  deriving Inhabited

namespace Declaration

/-- The key that a reference to a base names. Behind the first number sign stands the identifier of
another interface's definition; a reference without one is an identifier of the same interface. -/
def baseKey (d : Declaration) (reference : String) : String × Option String :=
  let cs := reference.toList
  if cs.contains '#' then
    let interface := String.ofList (cs.takeWhile (· ≠ '#'))
    let identifier := String.ofList ((cs.dropWhile (· ≠ '#')).drop 1)
    (interface, if identifier = "" then none else some identifier)
  else ((d.interface.orElse fun _ => d.className).getD "", some reference)

/-- An attribute as a value, where a missing one is null. -/
def attributeValue (e : Element) (name : String) : Value :=
  match e.attribute? name with
  | some v => .text v
  | none => .null

/-- Reads the properties of an argument. A repeated name keeps its first place and its last
value. -/
def readProperties (method source : String) :
    List (Value × Value) → List Element → Except Fault (List (Value × Value))
  | read, [] => .ok read
  | read, e :: rest =>
    match e.filled? "name" with
    | none => .error (.definition (.propertyWithoutName method source))
    | some name =>
      readProperties method source (Value.put (.text name) (attributeValue e "value") read) rest

/-- Reads an argument of a call. -/
def readArgument (method source : String) (e : Element) : Except Fault Argument :=
  match readProperties method source [] (e.childrenTagged "property") with
  | .error f => .error f
  | .ok properties =>
    (Argument.declare (attributeValue e "name") (attributeValue e "type") properties).mapError
      (Fault.argument method source)

/-- Reads a call of a dependency. -/
def readCall (owner : Option String) (source : String) (e : Element) : Except Fault Call :=
  match e.filled? "method" with
  | none => .error (.definition (.callWithoutMethod owner source))
  | some method => do
    let arguments ← (e.childrenTagged "argument").mapM (readArgument method source)
    .ok ⟨method, e.filled? "id", arguments⟩

/-- Reads the name of an interface element. -/
def readInterface (className : Option String) (source : String) (e : Element) :
    Except Fault String :=
  match e.filled? "name" with
  | none => .error (.definition (.interfaceWithoutName className source))
  | some name => .ok name

/-- Reads a dependency element. -/
def readDependency (source : String) (e : Element) : Except Fault Declaration := do
  let interface := e.filled? "interface"
  let className := e.filled? "class"
  let base := e.filled? "extends"
  if className.isNone then
    match base with
    | none => throw (.definition (.neitherClassNorExtends source))
    | some reference =>
      if interface.isNone then throw (.definition (.neitherClassNorInterface reference source))
  let interfaces ← (e.childrenTagged "interface").mapM (readInterface className source)
  let owner := className.orElse fun _ => interface
  let calls ← (e.childrenTagged "call").mapM (readCall owner source)
  .ok ⟨interface, className, e.filled? "id", base, interfaces, calls, source⟩

/-- Reads the dependency elements of a tree. -/
def ofElement (source : String) (root : Element) : Except Fault (List Declaration) :=
  (root.tagged "dependency").mapM (readDependency source)

end Declaration

end Wiring
