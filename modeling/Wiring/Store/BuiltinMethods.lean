import Wiring.Decimal.Whole
import Wiring.Host.TextMethods
import Wiring.Store.Attributes

/-!
# `Wiring.Store.BuiltinMethods`: running the methods of values of the language

Lists and mappings that have a place are changed where they stand, and whoever holds them sees it.
Every other value only answers. What comes out new is settled, so that it may be changed in turn.
-/

set_option autoImplicit false

namespace Wiring

open Wiring.Host Wiring.Files

namespace Store

/-- A reply as an action. -/
def reply (r : Reply) : Action Value := do settle (← Work.lift (r.mapError .foreign))

/-- An answer of nothing behind an action. -/
def silently (a : Action Unit) : Action Value := do
  a
  pure .null

/-! ### Numbers -/

/-- The order of two numbers, when they can be ordered. -/
def numberBefore (a b : Value) : Option Bool :=
  let real := fun v : Value =>
    match v with
    | .float x => some (Float.ofBits x.bits)
    | v => v.whole?.map Float.ofInt
  match a.whole?, b.whole? with
  | some x, some y => some (x < y)
  | _, _ =>
    match real a, real b with
    | some x, some y => some (x < y)
    | _, _ => none

mutual

/-- Whether a value comes before another one, when they can be ordered. -/
def isBefore : Value → Value → Option Bool
  | .text s, .text t => some (s < t)
  | .bytes a, .bytes b => some (a.map UInt8.toNat < b.map UInt8.toNat)
  | .list _ xs, .list _ ys => areBefore xs ys
  | a, b => numberBefore a b

/-- Whether a list comes before another one, when their first difference can be ordered. -/
def areBefore : List Value → List Value → Option Bool
  | [], ys => some !ys.isEmpty
  | _ :: _, [] => some false
  | x :: xs, y :: ys => if x.equal y then areBefore xs ys else isBefore x y

end

/-- Whether every two values of a list can be ordered. -/
def canBeOrdered : List Value → Bool
  | [] => true
  | x :: rest => rest.all (fun y => (isBefore x y).isSome) && canBeOrdered rest

/-- The bytes of a number by its length, the highest first. -/
def bigEndian (n : Nat) : Nat → List UInt8
  | 0 => []
  | length + 1 => UInt8.ofNat (n / Nat.pow 256 length % 256) :: bigEndian n length

/-- The bytes of a whole number, as many as are asked for. -/
def toBytes (n : Int) (arg : String → Value) : Reply := do
  let length ← intOr 1 (arg "length")
  let order ← givenText (arg "byteorder")
  let signed := (arg "signed").truthy && !isLeftOut (arg "signed")
  let size := Nat.pow 256 length.toNat
  let top := if signed then size / 2 else size
  if length < 0 then throw .value
  if order.any fun x => x ≠ "big" && x ≠ "little" then throw .value
  if n < 0 ∧ !signed then throw .overflow
  if (0 ≤ n ∧ n.natAbs ≥ top ∧ n ≠ 0) ∨ (n < 0 ∧ n.natAbs > top) then throw .overflow
  let data := bigEndian (if n < 0 then size - n.natAbs else n.natAbs) length.toNat
  .ok (.bytes (if order = some "little" then data.reverse else data))

/-- What a whole number answers. -/
def intMethod (n : Int) (method : String) (arg : String → Value) : Reply :=
  let with_ := fun f : Int → Value => Except.ok (((arg "value").whole?.map f).getD notComparable)
  match method with
  | "__abs__" => .ok (.int n.natAbs)
  | "__neg__" => .ok (.int (-n))
  | "__invert__" => .ok (.int (-n - 1))
  | "__bool__" => .ok (.bool (n ≠ 0))
  | "__int__" | "__index__" | "__pos__" | "__trunc__" | "__floor__" | "__ceil__" | "__round__"
  | "conjugate" => .ok (.int n)
  | "__hash__" => .ok (.int (Decimal.hashOf (n < 0) n.natAbs 0))
  | "bit_count" => .ok (.int ((Nat.toDigits 2 n.natAbs).countP (· = '1')))
  | "to_bytes" => toBytes n arg
  | "__float__" => .ok (.float ⟨(Float.ofInt n).toBits⟩)
  | "bit_length" => .ok (.int (if n = 0 then 0 else Nat.log2 n.natAbs + 1))
  | "as_integer_ratio" => .ok (.list none [.int n, .int 1])
  | "__getnewargs__" => .ok (.list none [.int n])
  | "__add__" | "__radd__" => with_ fun k => .int (n + k)
  | "__sub__" => with_ fun k => .int (n - k)
  | "__rsub__" => with_ fun k => .int (k - n)
  | "__mul__" | "__rmul__" => with_ fun k => .int (n * k)
  | "__eq__" => with_ fun k => .bool (n = k)
  | "__ne__" => with_ fun k => .bool (n ≠ k)
  | "__lt__" => with_ fun k => .bool (n < k)
  | "__le__" => with_ fun k => .bool (n ≤ k)
  | "__gt__" => with_ fun k => .bool (n > k)
  | "__ge__" => with_ fun k => .bool (n ≥ k)
  | "from_bytes" | "__new__" => .error .type
  | _ => .ok (if (arg "value").whole?.isNone then notComparable else .null)

/-- What a number with a point answers. -/
def floatMethod (x : Decimal.Binary64) (method : String) : Reply :=
  let whole := fun (f : Bool → Nat → Int → Int) =>
    match x.view with
    | .finite negative m q _ => Except.ok (Value.int (f negative m q))
    | .infinite _ => .error .overflow
    | .nan => .error .value
  match method with
  | "is_integer" => .ok (.bool x.isWhole)
  | "__neg__" => .ok (.float ⟨x.bits ^^^ 0x8000000000000000⟩)
  | "__abs__" => .ok (.float ⟨x.bits &&& 0x7fffffffffffffff⟩)
  | "__pos__" | "__float__" | "conjugate" => .ok (.float x)
  | "__bool__" => .ok (.bool !x.isZero)
  | "__int__" | "__trunc__" => whole Decimal.truncated
  | "__floor__" => whole Decimal.floored
  | "__ceil__" => whole fun negative m q => -Decimal.floored (!negative) m q
  | "__round__" => whole Decimal.rounded
  | "as_integer_ratio" =>
    match x.ratio? with
    | some (n, d) => .ok (.list none [.int n, .int d])
    | none => .error (if x.isNan then .value else .overflow)
  | "__hash__" => .ok (.int x.hash)
  | "hex" => .ok (.text x.hexText)
  | "__getnewargs__" => .ok (.list none [.float x])
  | "__new__" | "fromhex" | "__getformat__" => .error .type
  | _ => .ok .null

/-! ### Bytes and paths -/

/-- A byte as a character that a text has in its place: that of its number, if it counts as one for
bytes too. Lines end in fewer ways. -/
def byteChar (method : String) (b : UInt8) : Char :=
  let n := b.toNat
  let kept := n < 0x1c || (0x20 ≤ n && n < 0x80)
  let ends := method = "splitlines" && (n = 0x0b || n = 0x0c)
  Char.ofNat (if kept && !ends then n else 0xe000 + n)

/-- Bytes as a text. -/
def byteText (method : String) (data : List UInt8) : String :=
  String.ofList (data.map (byteChar method))

/-- The bytes of a text that stands for them. -/
def textBytes (s : String) : List UInt8 := s.toList.map fun c => UInt8.ofNat (c.toNat % 256)

mutual

/-- An argument with bytes as texts. A text is none of them. -/
def bytesArgument (method : String) : Value → Value
  | .bytes data => .text (byteText method data)
  | .text _ => .list none []
  | .list p items => .list p (bytesArguments method items)
  | v => v

/-- The items of an argument with bytes as texts. -/
def bytesArguments (method : String) : List Value → List Value
  | [] => []
  | v :: rest => bytesArgument method v :: bytesArguments method rest

end

mutual

/-- An answer with texts as bytes. -/
def bytesAnswer : Value → Value
  | .text s => .bytes (textBytes s)
  | .list p items => .list p (bytesAnswers items)
  | v => v

/-- The items of an answer with texts as bytes. -/
def bytesAnswers : List Value → List Value
  | [] => []
  | v :: rest => bytesAnswer v :: bytesAnswers rest

end

/-- The name of a parameter of bytes by that of the same one of texts. -/
def bytesParameter (name : String) : String :=
  if name = "chars" then "bytes" else if name = "iterable" then "iterable_of_bytes" else name

/-- The text of bytes in a known encoding. -/
def decoded (data : List UInt8) (arg : String → Value) : Reply := do
  checkEncoding arg
  match String.fromUTF8? ⟨data.toArray⟩ with
  | some s => .ok (.text s)
  | none => .error .encoding

/-- What bytes answer. -/
def bytesMethod (data : List UInt8) (method : String) (arg : String → Value) : Reply :=
  match method with
  | "decode" => decoded data arg
  | "hex" =>
    .ok (.text (String.ofList (data.flatMap fun b => Text.hexDigits 2 b.toNat)))
  | "__bytes__" => .ok (.bytes data)
  | "__len__" => .ok (.int data.length)
  | "__iter__" => .ok (.other "bytes_iterator")
  | "__getnewargs__" => .ok (.list none [.bytes data])
  | "__eq__" | "__ne__" =>
    match arg "value" with
    | .bytes other => .ok (.bool ((data = other) = (method = "__eq__")))
    | _ => .ok notComparable
  | "join" =>
    let parts := (arg "iterable_of_bytes").parts?
    let pieces := (parts.getD []).map fun
      | .bytes piece => some piece
      | _ => none
    if parts.isSome && pieces.all Option.isSome then
      .ok (.bytes (data.intercalate (pieces.filterMap id)))
    else .error .type
  | "__getitem__" | "maketrans" | "fromhex" | "__new__" => .error .type
  | _ =>
    (textMethod (byteText method data) method
      (fun n => bytesArgument method (arg (bytesParameter n))) []).map bytesAnswer

/-- What a path answers. -/
def pathMethod (p : Path) (method : String) : Action Value := do
  match method with
  | "exists" => do pure (.bool (← onFiles fun t => t.exists? p))
  | "is_dir" => do pure (.bool (← onFiles fun t => t.isDirectory? p))
  | "is_file" => do
    pure (.bool ((← onFiles fun t => t.exists? p) && !(← onFiles fun t => t.isDirectory? p)))
  | "read_text" => do pure (.text (← fileText p))
  | "read_bytes" => do pure (.bytes (← onFiles fun t => t.read p).toList)
  | "__str__" | "__fspath__" | "as_posix" => pure (.text p.text)
  | "is_absolute" => pure (.bool (p.root ≠ ""))
  | "iterdir" => pure (.other "generator")
  | "unlink" => silently (changeFiles fun t => t.removeFile p)
  | _ => pure .null

/-! ### Lists -/

/-- The place of an item in a list, where a place beyond the ends is cut to them. -/
def cutPlace (size : Nat) (i : Int) : Nat :=
  if i < 0 then (size : Int) + i |>.toNat else min i.toNat size

/-- The place of an item that must be there. -/
def placeOf (size : Nat) (i : Int) : Action Nat :=
  let n := if i < 0 then (size : Int) + i else i
  if 0 ≤ n ∧ n < size then pure n.toNat else Work.foreign .index

/-- An argument that must be a whole number, or a default. -/
def intArgument (default : Int) (v : Value) : Action Int :=
  Work.lift ((intOr default v).mapError .foreign)

/-- An argument whose items are taken. -/
def itemsArgument (v : Value) : Action (List Value) := itemsOf v

/-- Sorts values, when every two of them can be ordered. -/
def sorted (reverse : Bool) (items : List Value) : Action (List Value) :=
  let notAfter := fun a b : Value =>
    if reverse then (isBefore a b) ≠ some true else (isBefore b a) ≠ some true
  if canBeOrdered items then pure (items.mergeSort fun a b => notAfter a b)
  else Work.foreign .type

/-- What a list answers, and what becomes of it. -/
def listMethod (place : Nat) (items : List Value) (method : String) (arg : String → Value) :
    Action Value := do
  let become := fun items : List Value => silently (changeItems place fun _ => items)
  let value := arg "value"
  match method with
  | "append" => become (items ++ [arg "object"])
  | "extend" => do become (items ++ (← itemsArgument (arg "iterable")))
  | "insert" => do
    let n := cutPlace items.length (← intArgument 0 (arg "index"))
    become (items.take n ++ arg "object" :: items.drop n)
  | "pop" => do
    let n ← placeOf items.length (← intArgument (-1) (arg "index"))
    let _ ← become (items.eraseIdx n)
    pure (items[n]?.getD .null)
  | "remove" =>
    match items.findIdx? fun x => x.equal value with
    | some n => become (items.eraseIdx n)
    | none => Work.foreign .value
  | "index" => do
    let first := cutPlace items.length (← intArgument 0 (arg "start"))
    let last := cutPlace items.length (← intArgument items.length (arg "stop"))
    match ((items.take last).drop first).findIdx? fun x => x.equal value with
    | some n => pure (.int (first + n : Nat))
    | none => Work.foreign .value
  | "count" => pure (.int (items.countP fun x => x.equal value))
  | "clear" => become []
  | "reverse" => become items.reverse
  | "sort" => do
    let reverse ← Work.lift ((flagOf (arg "reverse")).mapError .foreign)
    match arg "key" with
    | .null | .other _ => do become (← sorted reverse items)
    | _ => if items.isEmpty then pure .null else Work.foreign .type
  | "copy" => settle (.list none items)
  | "__init__" => become []
  | "__len__" => pure (.int items.length)
  | "__iter__" => pure (.other "list_iterator")
  | "__reversed__" => pure (.other "list_reverseiterator")
  | "__contains__" => pure (.bool (items.any fun x => x.equal (arg "key")))
  | "__setitem__" => do
    let n ← placeOf items.length (← intArgument 0 (arg "key"))
    become (items.set n value)
  | "__delitem__" => do
    become (items.eraseIdx (← placeOf items.length (← intArgument 0 (arg "key"))))
  | "__add__" | "__iadd__" =>
    match value, method with
    | .list _ more, "__add__" => settle (.list none (items ++ more))
    | v, "__iadd__" => do
      let _ ← become (items ++ (← itemsArgument v))
      pure (.list (some place) items)
    | _, _ => Work.foreign .type
  | "__mul__" | "__rmul__" => do
    settle (.list none (List.replicate (← intArgument 0 value).toNat items).flatten)
  | "__eq__" | "__ne__" =>
    match value with
    | .list _ other => pure (.bool (Value.equalLists items other = (method = "__eq__")))
    | _ => pure notComparable
  | "__lt__" | "__le__" | "__gt__" | "__ge__" =>
    match value with
    | .list _ other =>
      let strict := if method = "__lt__" || method = "__ge__" then areBefore items other
        else areBefore other items
      match strict with
      | some b => pure (.bool (b = (method = "__lt__" || method = "__gt__")))
      | none => Work.foreign .type
    | _ => pure notComparable
  | "__getitem__" | "__class_getitem__" | "__new__" => Work.foreign .type
  | _ => pure .null

/-! ### Mappings -/

/-- The first entry of a key. -/
def withoutKey (key : Value) (entries : List (Value × Value)) : List (Value × Value) :=
  entries.filter fun e => !Value.sameScalar e.1 key

/-- What a mapping answers, and what becomes of it. -/
def mapMethod (place : Nat) (entries : List (Value × Value)) (method : String)
    (arg : String → Value) (named : List (String × Value)) : Action Value := do
  let become := fun es : List (Value × Value) => silently (changeEntries place fun _ => es)
  let key := arg "key"
  let checked := if key.isKey then pure () else Work.foreign .type
  match method with
  | "get" => do
    checked
    let default := if isLeftOut (arg "default") then .null else arg "default"
    pure ((Value.lookup key entries).getD default)
  | "setdefault" => do
    checked
    let default := if isLeftOut (arg "default") then .null else arg "default"
    match Value.lookup key entries with
    | some v => pure v
    | none =>
      putEntry place key default
      pure default
  | "update" | "__init__" =>
    become (named.foldl (fun es a => Value.put (.text a.1) a.2 es) entries)
  | "clear" => become []
  | "copy" => settle (.map none entries)
  | "popitem" =>
    match entries.getLast? with
    | some (k, v) => do
      let _ ← become entries.dropLast
      settle (.list none [k, v])
    | none => Work.foreign .key
  | "items" | "keys" | "values" => pure (.other ("dict_" ++ method))
  | "__len__" => pure (.int entries.length)
  | "__iter__" => pure (.other "dict_keyiterator")
  | "__reversed__" => pure (.other "dict_reversekeyiterator")
  | "__contains__" => do
    checked
    pure (.bool (Value.lookup key entries).isSome)
  | "__setitem__" => do
    checked
    silently (putEntry place key (arg "value"))
  | "__delitem__" => do
    checked
    if (Value.lookup key entries).isSome then become (withoutKey key entries)
    else Work.foreign .key
  | "__or__" =>
    match arg "value" with
    | .map _ more =>
      settle (.map none (more.foldl (fun es e => Value.put e.1 e.2 es) entries))
    | _ => pure notComparable
  | "__eq__" | "__ne__" =>
    match arg "value" with
    | .map _ other =>
      let same := entries.length = other.length && Value.equalEntries entries other
      pure (.bool (same = (method = "__eq__")))
    | _ => pure notComparable
  | "fromkeys" => do
    let items ← itemsArgument (arg "iterable")
    let v := if isLeftOut (arg "value") then .null else arg "value"
    settle (.map none (items.foldl (fun es k => Value.put k v es) []))
  | "pop" | "__getitem__" | "__class_getitem__" | "__new__" => Work.foreign .type
  | "__lt__" | "__le__" | "__gt__" | "__ge__" => pure notComparable
  | _ => pure .null

/-! ### All values -/

/-- What all values answer, if they have no answer of their own. -/
def objectMethod (self : Value) (method : String) (arg : String → Value)
    (named : List (String × Value)) : Action Value := do
  match method with
  | "__str__" => pure (.text self.display)
  | "__repr__" => pure (.text self.literal)
  | "__format__" =>
    match arg "format_spec" with
    | .text "" => pure (.text self.display)
    | _ => Work.foreign .type
  | "__init__" => if named.isEmpty then pure .null else Work.foreign .type
  | "__new__" => Work.foreign .type
  | "__eq__" =>
    pure (if self.isSame (arg "value") then .bool true else notComparable)
  | "__ne__" =>
    pure (if self.isSame (arg "value") then .bool false else notComparable)
  | "__lt__" | "__le__" | "__gt__" | "__ge__" => pure notComparable
  | "__bool__" => pure (.bool self.truthy)
  | "__dir__" => settle (.list none [])
  | "__subclasshook__" => pure notComparable
  | "__reduce__" =>
    match self with
    | .object _ | .component _ _ => pure .null
    | _ => Work.foreign .type
  | _ => pure .null

/-- The members that every value takes from all values. -/
def sharedMethods : List String :=
  ["__delattr__", "__dir__", "__getstate__", "__init_subclass__", "__reduce__", "__reduce_ex__",
    "__setattr__", "__sizeof__", "__subclasshook__", "__getattribute__"]

/-- The arguments of a member by the names of its parameters. -/
def builtinArguments (m : BuiltinMember) (passed : Passed) : Action (String → Value) := do
  match m.params with
  | some params => do pure (boundTo (← lookAll (← bound params passed)))
  | none =>
    let takesNames := ["update", "format", "hex"].contains m.name
    if passed.positional.isEmpty && (passed.named.isEmpty || takesNames) then
      pure fun _ => .null
    else Work.foreign .type

/-- What a member of a value of the language answers, by the class of the value. -/
def answerBuiltin (v : Value) (m : BuiltinMember) (arg : String → Value)
    (named : List (String × Value)) : Action Value :=
  if sharedMethods.contains m.name then objectMethod v m.name arg named
  else
    match v with
    | .text s =>
      if m.name = "__init__" then objectMethod v m.name arg []
      else reply (textMethod s m.name arg named)
    | .list (some place) items =>
      if m.name = "__repr__" || m.name = "__str__" then objectMethod v m.name arg named
      else listMethod place items m.name arg
    | .map (some place) entries =>
      if m.name = "__repr__" || m.name = "__str__" then objectMethod v m.name arg named
      else mapMethod place entries m.name arg named
    | .int n =>
      if ["__repr__", "__str__", "__format__", "__init__"].contains m.name then
        objectMethod v m.name arg []
      else reply (intMethod n m.name arg)
    | .bool b =>
      if ["__repr__", "__str__", "__format__", "__init__"].contains m.name then
        objectMethod v m.name arg []
      else reply (intMethod (if b then 1 else 0) m.name arg)
    | .float x =>
      if ["__repr__", "__str__", "__format__", "__init__"].contains m.name then
        objectMethod v m.name arg []
      else reply (floatMethod x m.name)
    | .bytes data =>
      if ["__repr__", "__str__", "__init__"].contains m.name then objectMethod v m.name arg []
      else reply (bytesMethod data m.name arg)
    | .path p =>
      if m.name = "__repr__" then objectMethod v m.name arg named else pathMethod p m.name
    | v => objectMethod v m.name arg named

/-- Runs a member of a value of the language. -/
def runBuiltin (self : Value) (m : BuiltinMember) (passed : Passed) : Action Value := do
  let arg ← builtinArguments m passed
  answerBuiltin (← look self) m arg passed.named

end Store

end Wiring
