import Wiring.Fault

/-!
# `Wiring.Host.Program`: the classes and functions of the host program

A program declares classes, with a constructor and methods that they may take over from a base, and
functions. A routine has parameters, may raise a fault, and gives an answer. A parameter is filled
by position, by name, or by either, and the last two kinds collect what is left over.

The annotation of a parameter names what it wants, as a class, as something else or as a text. A
parameter without annotation wants the class of missing annotations, like any other.
-/

set_option autoImplicit false

namespace Wiring

/-- The classes of the language itself. -/
inductive BuiltinClass where
  | object | none | bool | int | float | text | bytes | list | mapping | path
  deriving DecidableEq, Inhabited

/-- A class. -/
inductive ClassRef where
  /-- A class of the program, by its place among the declared ones. -/
  | declared (index : Nat)
  | builtin (b : BuiltinClass)
  | component (k : ComponentKind)
  /-- A class of another library, by its module and its name. -/
  | outside (module name : String)
  deriving DecidableEq, Inhabited

/-- The class of missing annotations. -/
def ClassRef.unannotated : ClassRef := .outside "inspect" "_empty"

/-- How a parameter is filled. -/
inductive ParamKind where
  | positional | normal | rest | keyword | options
  deriving DecidableEq, Inhabited

/-- What a parameter wants. -/
inductive Annotation where
  | absent
  | named (c : ClassRef)
  /-- Something that is no class. -/
  | other
  | textual (expression : String)
  deriving DecidableEq, Inhabited

/-- A parameter. -/
structure Param where
  name : String
  kind : ParamKind
  default : Option Value
  annotation : Annotation
  deriving Inhabited

/-- A value of the program's text, built anew each time that it is needed. -/
inductive Literal where
  | value (v : Value)
  /-- What a slot holds when the value is needed. -/
  | slot (name : String)
  /-- A number that equals no number. -/
  | notANumber
  | list (items : List Literal)
  | map (entries : List (String × Literal))
  | fresh (c : ClassRef) (arguments : List (String × Literal))
  deriving Inhabited

/-- What a routine gives back. -/
inductive Answer where
  | literal (l : Literal)
  /-- A parameter of the constructor of the object that the routine belongs to. -/
  | recorded (parameter : String)
  /-- The object that the routine belongs to. -/
  | self
  deriving Inhabited

/-- Something that can be run. -/
structure Routine where
  params : List Param
  raises : Option (String × String)
  answer : Answer
  deriving Inhabited

/-- What a method needs to be run. -/
inductive MethodKind where
  | bound | static | ofClass
  deriving DecidableEq, Inhabited

/-- A method. -/
structure Method where
  name : String
  kind : MethodKind
  routine : Routine
  deriving Inhabited

/-- A class of the program. -/
structure Class where
  module : String
  qualifiedName : String
  base : Option ClassRef
  constructor : Option Routine
  methods : List Method
  /-- The names of plain attributes, which cannot be called. -/
  attributes : List String
  deriving Inhabited

/-- A function of the program. -/
structure Function where
  module : String
  qualifiedName : String
  routine : Routine
  deriving Inhabited

/-- The declarations of a program. -/
structure Program where
  classes : List Class
  functions : List Function
  deriving Inhabited

/-! ### Names -/

/-- The name of a class of the language. -/
def BuiltinClass.name : BuiltinClass → String
  | .object => "object"
  | .none => "NoneType"
  | .bool => "bool"
  | .int => "int"
  | .float => "float"
  | .text => "str"
  | .bytes => "bytes"
  | .list => "list"
  | .mapping => "dict"
  | .path => "PosixPath"

namespace Program

/-- A declared class. -/
def class? (p : Program) (index : Nat) : Option Class := p.classes[index]?

/-- The module of a class. -/
def moduleOf (p : Program) : ClassRef → String
  | .declared i => ((p.class? i).map Class.module).getD ""
  | .builtin .path => "pathlib"
  | .builtin _ => "builtins"
  | .component k => k.names.1
  | .outside m _ => m

/-- The name of a class inside its module. -/
def qualifiedName (p : Program) : ClassRef → String
  | .declared i => ((p.class? i).map Class.qualifiedName).getD ""
  | .builtin b => b.name
  | .component k => k.names.2
  | .outside _ n => n

/-- The name of a class with its module. -/
def fullName (p : Program) (c : ClassRef) : String := p.moduleOf c ++ "." ++ p.qualifiedName c

/-- The own name of a class. -/
def shortName (p : Program) (c : ClassRef) : String := Text.lastPiece '.' (p.qualifiedName c)

/-! ### Classes and their bases -/

/-- A class and its bases, the class first. A chain longer than the program is cut. -/
def chain (p : Program) : Nat → ClassRef → List ClassRef
  | 0, _ => []
  | fuel + 1, .declared i =>
    .declared i ::
      (match (p.class? i).bind Class.base with
      | some b => p.chain fuel b
      | none => [])
  | _ + 1, c => [c]

/-- A class and all its bases. -/
def lineage (p : Program) (c : ClassRef) : List ClassRef :=
  p.chain (p.classes.length + 1) c ++
    (if c = .builtin .bool then [.builtin .int] else []) ++ [.builtin .object]

/-- The declared classes in a lineage. -/
def declaredIn (p : Program) (c : ClassRef) : List Class :=
  (p.lineage c).filterMap fun
    | .declared i => p.class? i
    | _ => none

/-- The nearest base that the program does not declare. -/
def givenBase (p : Program) (c : ClassRef) : ClassRef :=
  ((p.lineage c).find? fun
    | .declared _ => false
    | _ => true).getD (.builtin .object)

/-- The constructor of a class and the name of the class that declares it: its own, or that of the
nearest base with one. -/
def constructor? (p : Program) (c : ClassRef) : Option (String × Routine) :=
  (p.declaredIn c).findSome? fun k => k.constructor.map fun r => (k.qualifiedName, r)

end Program

end Wiring
