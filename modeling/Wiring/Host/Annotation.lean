import Wiring.Host.Expression
import Wiring.Host.Program

/-!
# `Wiring.Host.Annotation`: what parameters want

A parameter can be filled on request when its annotation is a class from outside the language
itself. A textual annotation has to be resolved first: it is an expression whose names are the
classes of the program and what the language defines, and a text that comes out of it is resolved in
turn. Whatever is no tuple counts as resolved, also when it is no class. A routine resolves all of
its textual annotations or none.
-/

set_option autoImplicit false

namespace Wiring

/-- The names that the language itself defines. -/
def languageNames : List String :=
  ["ArithmeticError", "AssertionError", "AttributeError", "BaseException",
   "BaseExceptionGroup", "BlockingIOError", "BrokenPipeError", "BufferError", "BytesWarning",
   "ChildProcessError", "ConnectionAbortedError", "ConnectionError", "ConnectionRefusedError",
   "ConnectionResetError", "DeprecationWarning", "EOFError", "Ellipsis", "EncodingWarning",
   "EnvironmentError", "Exception", "ExceptionGroup", "False", "FileExistsError",
   "FileNotFoundError", "FloatingPointError", "FutureWarning", "GeneratorExit", "IOError",
   "ImportError", "ImportWarning", "IndentationError", "IndexError", "InterruptedError",
   "IsADirectoryError", "KeyError", "KeyboardInterrupt", "LookupError", "MemoryError",
   "ModuleNotFoundError", "NameError", "None", "NotADirectoryError", "NotImplemented",
   "NotImplementedError", "OSError", "OverflowError", "PendingDeprecationWarning",
   "PermissionError", "ProcessLookupError", "RecursionError", "ReferenceError",
   "ResourceWarning", "RuntimeError", "RuntimeWarning", "StopAsyncIteration", "StopIteration",
   "SyntaxError", "SyntaxWarning", "SystemError", "SystemExit", "TabError", "TimeoutError",
   "True", "TypeError", "UnboundLocalError", "UnicodeDecodeError", "UnicodeEncodeError",
   "UnicodeError", "UnicodeTranslateError", "UnicodeWarning", "UserWarning", "ValueError",
   "Warning", "ZeroDivisionError", "__build_class__", "__debug__", "__doc__", "__import__",
   "__loader__", "__name__", "__package__", "__spec__", "abs", "aiter", "all", "anext", "any",
   "ascii", "bin", "bool", "breakpoint", "bytearray", "bytes", "callable", "chr",
   "classmethod", "compile", "complex", "delattr", "dict", "dir", "divmod", "enumerate",
   "eval", "exec", "filter", "float", "format", "frozenset", "getattr", "globals", "hasattr",
   "hash", "hex", "id", "input", "int", "isinstance", "issubclass", "iter", "len", "list",
   "locals", "map", "max", "memoryview", "min", "next", "object", "oct", "open", "ord", "pow",
   "print", "property", "range", "repr", "reversed", "round", "set", "setattr", "slice",
   "sorted", "staticmethod", "str", "sum", "super", "tuple", "type", "vars", "zip"]

/-- What an expression comes to, as far as annotations tell it apart. -/
inductive Meaning where
  | declared (index : Nat)
  /-- A class of the language. -/
  | language (name : String)
  | nothing
  | text (s : String)
  | number (isZero : Bool)
  | tuple (isEmpty : Bool)
  | other (truthy : Bool)
  deriving DecidableEq, Inhabited

namespace Meaning

/-- Whether a condition holds. -/
def truthy : Meaning → Bool
  | .nothing => false
  | .text s => s ≠ ""
  | .number z => !z
  | .tuple e => !e
  | .other t => t
  | _ => true

/-- Whether alternatives of classes may be formed with it. -/
def isAlternative : Meaning → Bool
  | .declared _ | .language _ | .nothing | .other _ => true
  | _ => false

end Meaning

/-- The names of the language that are classes whose items can be narrowed. -/
def narrowableNames : List String := ["dict", "frozenset", "list", "set", "tuple", "type"]

/-- The names that every class has besides its own. -/
def commonNames : List String :=
  ["__call__", "__class__", "__delattr__", "__dict__", "__dir__", "__doc__", "__eq__", "__format__",
    "__ge__", "__getattribute__", "__getstate__", "__gt__", "__hash__", "__init__",
    "__init_subclass__", "__le__", "__lt__", "__module__", "__mro__", "__name__", "__ne__",
    "__new__", "__qualname__", "__reduce__", "__reduce_ex__", "__repr__", "__setattr__",
    "__sizeof__", "__str__", "__subclasses__", "__subclasshook__", "mro"]

namespace Program

open Host (Expression)

/-- The class of the program with an own name. Of several, the last one counts. -/
def classNamed? (p : Program) (s : String) : Option Nat :=
  (p.classes.reverse.findIdx? fun c => Text.lastPiece '.' c.qualifiedName = s).map fun i =>
    p.classes.length - 1 - i

/-- What a name means. -/
def nameMeaning? (p : Program) (s : String) : Option Meaning :=
  match p.classNamed? s with
  | some i => some (.declared i)
  | none =>
    if s = "None" then some .nothing
    else if s = "False" || s = "__debug__" then some (.other (s ≠ "False"))
    else if languageNames.contains s then some (.language s)
    else none

/-- What an attribute of something means. -/
def attributeMeaning? (p : Program) (m : Meaning) (name : String) : Option Meaning :=
  match m with
  | .declared i =>
    let c := .declared i
    let own := (p.declaredIn c).any fun k =>
      k.attributes.contains name || k.methods.any fun x => x.name = name
    if name = "__name__" then some (.text (p.shortName c))
    else if name = "__qualname__" then some (.text (p.qualifiedName c))
    else if name = "__module__" then some (.text (p.moduleOf c))
    else if name = "__doc__" && !own then some .nothing
    else if own || commonNames.contains name then some (.other true)
    else none
  | .language s =>
    if name = "__name__" || name = "__qualname__" then some (.text s)
    else if commonNames.contains name then some (.other true)
    else none
  | _ => if name = "__class__" || name = "__doc__" then some (.other true) else none

/-- What an operation on two things means. -/
def operationMeaning? (operator : String) (a b : Meaning) : Option Meaning :=
  match a, b with
  | .text s, .text t => if operator = "+" then some (.text (s ++ t)) else none
  | .number x, .number y =>
    if operator = "+" || operator = "-" || operator = "|" then some (.number (x && y))
    else if operator = "*" || operator = "&" then some (.number (x || y))
    else if y then none else some (.number x)
  | a, b =>
    if operator = "|" && a.isAlternative && b.isAlternative && !(a = .nothing && b = .nothing) then
      some (if a = b then a else .other true)
    else none

mutual

/-- What an expression means, or nothing when working it out fails. -/
def meaning? (p : Program) : Expression → Option Meaning
  | .name s => p.nameMeaning? s
  | .text s => some (.text s)
  | .bytes | .ellipsis | .function => some (.other true)
  | .number z => some (.number z)
  | .collection e items => (p.meanings? items).map fun _ => .other !e
  | .tuple items => (p.meanings? items).map fun ms => .tuple ms.isEmpty
  | .attribute e name => (p.meaning? e).bind fun m => p.attributeMeaning? m name
  | .item e index =>
    match p.meaning? e, p.meaning? index with
    | some (.language s), some _ => if narrowableNames.contains s then some (.other true) else none
    | _, _ => none
  | .call f arguments =>
    match p.meaning? f, p.meanings? arguments with
    | some (.declared i), some [] =>
      let r := (p.constructor? (.declared i)).map Prod.snd
      let open_ := fun x : Param =>
        x.default.isSome || x.kind = .rest || x.kind = .options
      if r.all fun x => x.raises.isNone && x.params.all open_ then some (.other true) else none
    | some (.language s), some ms =>
      if s = "type" && ms.length = 1 then some (.language s)
      else if ["dict", "frozenset", "list", "set", "tuple", "object"].contains s && ms.isEmpty then
        some (if s = "tuple" then .tuple true else .other (s = "object"))
      else if s = "str" && ms.isEmpty then some (.text "")
      else if ["int", "float", "bool"].contains s && ms.isEmpty then some (.number true)
      else none
    | _, _ => none
  | .negated e => (p.meaning? e).map fun m => .other !m.truthy
  | .signed e => (p.meaning? e).bind fun
    | .number z => some (.number z)
    | _ => none
  | .both a b =>
    match p.meaning? a with
    | some m => if m.truthy then p.meaning? b else some m
    | none => none
  | .either a b =>
    match p.meaning? a with
    | some m => if m.truthy then some m else p.meaning? b
    | none => none
  | .condition test yes no =>
    match p.meaning? test with
    | some m => if m.truthy then p.meaning? yes else p.meaning? no
    | none => none
  | .comparison operator a b =>
    match p.meaning? a, p.meaning? b with
    | some x, some y =>
      if operator = "==" || operator = "is" then some (.other (x = y))
      else if operator = "!=" || operator = "is not" then some (.other (x ≠ y))
      else none
    | _, _ => none
  | .operation operator a b =>
    match p.meaning? a, p.meaning? b with
    | some x, some y => operationMeaning? operator x y
    | _, _ => none

/-- What the expressions of a list mean. -/
def meanings? (p : Program) : List Expression → Option (List Meaning)
  | [] => some []
  | e :: rest =>
    match p.meaning? e, p.meanings? rest with
    | some m, some ms => some (m :: ms)
    | _, _ => none

end

/-- What a textual annotation resolves to: a class of the program, or nothing of it. A text that
comes out is shorter than the one that it came from, or it refers to a class by its name. -/
def resolveWithin? (p : Program) : Nat → String → Option Annotation
  | 0, _ => none
  | fuel + 1, s =>
    match (Host.expression? s).bind p.meaning? with
    | some (.declared i) => some (.named (.declared i))
    | some (.text t) => p.resolveWithin? fuel t
    | some (.tuple _) => none
    | some _ => some .other
    | none => none

/-- What a textual annotation resolves to. -/
def resolveText? (p : Program) (s : String) : Option Annotation :=
  p.resolveWithin? (s.length + p.classes.length + 2) s

/-- Whether all textual annotations of parameters resolve. -/
def resolves (p : Program) (params : List Param) : Bool :=
  params.all fun x =>
    match x.annotation with
    | .textual s => (p.resolveText? s).isSome
    | _ => true

/-- The class that an annotation wants, unless it wants none or one of the language. -/
def wanted? (p : Program) (resolved : Bool) (a : Annotation) : Option ClassRef :=
  let outside := fun c => if p.moduleOf c = "builtins" then none else some c
  match a with
  | .absent => some .unannotated
  | .named c => outside c
  | .other => none
  | .textual s =>
    match (if resolved then p.resolveText? s else none) with
    | some (.named c) => outside c
    | _ => none

end Program

end Wiring
