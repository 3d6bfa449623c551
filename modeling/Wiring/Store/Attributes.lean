import Wiring.Store.Objects

/-!
# `Wiring.Store.Attributes`: what stands under the name of an attribute

A name on a value leads to something that can be called, to something else, or nowhere. The classes
of the program are asked first, from the class of the value on to its bases, then the class of the
engine or of the language below them, and last what all objects have. A name on a class leads to
what its values would have, but a method found there lacks the value that it belongs to.

The injector and the container of a core are given away only while it is open, so that asking for
them may fail.
-/

set_option autoImplicit false

namespace Wiring

/-- What stands under the name of an attribute. -/
inductive Attribute where
  | missing
  | plain
  | callable (c : Callable)
  deriving Inhabited

/-- The name of the constructor among the members of a class. -/
def initName : String := "__init__"

/-! ### Callables -/

namespace Callable

/-- The parameters of the construction of a value of the language, unless they cannot be told. -/
def builtinParams? : BuiltinClass → Option (List Param)
  | .object => some []
  | .list => some [Param.ofWord "/iterable="]
  | .float => some [Param.ofWord "/x="]
  | .path => some [Param.ofWord "*args", Param.ofWord "**kwargs"]
  | _ => none

/-- The parameters of the construction of a class, unless they cannot be told. -/
def constructParams? (p : Program) (c : ClassRef) : Option (List Param) :=
  match p.constructor? c with
  | some (_, r) => some r.params
  | none =>
    match p.givenBase c with
    | .builtin b => builtinParams? b
    | .component k => some k.params
    | _ => some []

/-- The parameters, unless they cannot be told. -/
def params? (p : Program) : Callable → Option (List Param)
  | .function f => some f.routine.params
  | .construct c => constructParams? p c
  | .method _ _ m | .detached _ m => some m.routine.params
  | .initializer _ _ r => some r.params
  | .unbound _ _ params => some (Param.plain "self" :: params)
  | .member _ _ m => some m.params
  | .fromFiles _ => some [⟨"paths", .rest, none, .other⟩]
  | .builtin _ _ m => m.params
  | .ofClass _ _ => some []

/-- The name in messages. -/
def name (p : Program) : Callable → String
  | .function f => f.qualifiedName
  | .construct c => p.qualifiedName c
  | .method _ owner m | .detached owner m => owner ++ "." ++ m.name
  | .initializer _ owner _ => owner ++ "." ++ initName
  | .unbound owner n _ => owner ++ "." ++ n
  | .member _ kind m => kind.names.2 ++ "." ++ m.name
  | .fromFiles _ => ComponentKind.config.names.2 ++ ".from_ini"
  | .builtin _ className m => m.owner.getD className ++ "." ++ m.name
  | .ofClass c n => p.qualifiedName c ++ "." ++ n

end Callable

/-! ### Members that classes of the program declare -/

/-- A member that a class of the program declares. -/
inductive DeclaredMember where
  | method (m : Method)
  | constructor (r : Routine)
  | plain
  deriving Inhabited

/-- A member that a class declares. -/
def Class.declared? (k : Class) (name : String) : Option DeclaredMember :=
  match k.methods.find? fun m => m.name = name with
  | some m => some (.method m)
  | none =>
    if k.attributes.contains name then some .plain
    else if name = initName then k.constructor.map .constructor
    else none

/-- A declared member of a class, and the name of the class that declares it. -/
def Program.declared? (p : Program) (c : ClassRef) (name : String) :
    Option (String × DeclaredMember) :=
  (p.declaredIn c).findSome? fun k => (k.declared? name).map fun m => (k.qualifiedName, m)

namespace Store

/-! ### Attributes of values -/

/-- What a value has under a name because of its class of the language. -/
def builtinAttribute (s : Store) (v : Value) (b : BuiltinClass) (name : String) : Attribute :=
  if b.holds name then .plain
  else
    match b.member? name with
    | some m => .callable (.builtin (s.content v) (s.program.qualifiedName (s.classOf v)) m)
    | none => .missing

/-- What a value has under a name because of its class of the engine. -/
def componentAttribute (v : Value) (kind : ComponentKind) (name : String) : Action Attribute := do
  let s ← get
  let common :=
    if commonFields.contains name then .plain else s.builtinAttribute v .object name
  if name = initName then pure (.callable (.member v kind ⟨initName, kind.params⟩))
  else if kind = .config && name = "from_ini" then pure (.callable (.fromFiles (s.classOf v)))
  else
    match kind.method? name with
    | some m => pure (.callable (.member v kind m))
    | none =>
      match s.component v with
      | none => pure common
      | some c =>
        if kind = .core && ComponentKind.guardedFields.contains name then
          let _ ← openInjector ⟨c.id⟩
        pure (if kind.fields.contains name then .plain else common)

/-- The attribute of a value. -/
def valueAttribute (v : Value) (name : String) : Action Attribute := do
  let s ← get
  let c := s.classOf v
  match v, s.program.declared? c name with
  | .object id, some (owner, .method m) =>
    pure (.callable (if m.kind = .bound then .method id owner m else .detached owner m))
  | .object id, some (owner, .constructor r) => pure (.callable (.initializer id owner r))
  | _, some _ => pure .plain
  | _, none =>
    if name = "__class__" then pure (.callable (.construct c))
    else
      match c, s.program.givenBase c with
      | _, .component kind => componentAttribute v kind name
      | .builtin _, .builtin b => pure (s.builtinAttribute v b name)
      | _, .builtin b =>
        pure (if commonFields.contains name then .plain else s.builtinAttribute v b name)
      | _, _ =>
        pure (if commonFields.contains name then .plain else s.builtinAttribute v .object name)

/-! ### Attributes of classes -/

/-- What a class has under a name whatever it is. -/
def commonClassAttribute (s : Store) (c : ClassRef) (name : String) : Attribute :=
  if name = "__call__" then .callable (.construct c)
  else if ["__init_subclass__", "__subclasses__", "mro"].contains name then
    .callable (.ofClass c name)
  else if classFields.contains name || name = initName then .plain
  else
    match s.program.givenBase c with
    | .component kind =>
      if kind = .config && name = "from_ini" then .callable (.fromFiles c)
      else if (kind.method? name).isSome || kind.hasOnClass name then .plain
      else if (BuiltinClass.object.member? name).isSome then .plain
      else .missing
    | .builtin b =>
      if (b.member? name).isSome || b.holds name then .plain else .missing
    | _ => if (BuiltinClass.object.member? name).isSome then .plain else .missing

/-- The attribute of a class. What is no method of it can be called only to fail. -/
def classAttribute (s : Store) (c : ClassRef) (name : String) : Attribute :=
  match s.program.declared? c name with
  | some (owner, .method m) =>
    .callable
      (if m.kind = .bound then .unbound owner m.name m.routine.params else .detached owner m)
  | some (owner, .constructor r) => .callable (.unbound owner initName r.params)
  | some (_, .plain) => .plain
  | none => s.commonClassAttribute c name

end Store

end Wiring
