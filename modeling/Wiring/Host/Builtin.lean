import Wiring.Host.Member

/-!
# `Wiring.Host.Builtin`: what the values of the language have for members

The members of a class of the language are listed in groups that share their parameters, and every
class has those of the classes below it too. In messages, some members bear the name of the class
that defines them and others that of the class of the value. The parameters of some cannot be told,
and whatever is passed to them is passed by name.

Parameters are spelled in words. A stroke in front marks one that takes its argument by position
only, a tilde one that takes it by name only, stars those that collect the rest, and an equals sign
behind one that may be left out.
-/

set_option autoImplicit false

namespace Wiring

/-! ### Spelled parameters -/

/-- The words of a text. -/
def wordsOf (s : String) : List String := (Text.pieces ' ' s).filter (· ≠ "")

namespace Param

/-- A parameter by the characters of its word, behind the mark in front. -/
def ofName (kind : ParamKind) (cs : List Char) : Param :=
  if cs.getLast? = some '=' then ⟨String.ofList cs.dropLast, kind, some leftOut, .absent⟩
  else ⟨String.ofList cs, kind, none, .absent⟩

/-- A parameter by its word. -/
def ofWord (word : String) : Param :=
  match word.toList with
  | '/' :: rest => ofName .positional rest
  | '~' :: rest => ofName .keyword rest
  | '*' :: '*' :: rest => ofName .options rest
  | '*' :: rest => ofName .rest rest
  | cs => ofName .normal cs

end Param

/-! ### Members -/

/-- Some members of a class of the language that share their parameters. -/
structure BuiltinGroup where
  /-- The class that messages name, unless it is the class of the value. -/
  owner : Option String
  /-- The parameters in words, unless they cannot be told. -/
  params : Option String
  names : String

namespace BuiltinGroup

/-- Members that bear the name of a class. -/
def byClass (owner params names : String) : BuiltinGroup := ⟨some owner, some params, names⟩

/-- Members that bear the name of the class of the value. -/
def byValue (params names : String) : BuiltinGroup := ⟨none, some params, names⟩

/-- Members whose parameters cannot be told. -/
def untold (names : String) : BuiltinGroup := ⟨none, none, names⟩

end BuiltinGroup

/-- A member of a class of the language. -/
structure BuiltinMember where
  /-- The class that messages name, unless it is the class of the value. -/
  owner : Option String
  name : String
  /-- The parameters, unless they cannot be told. -/
  params : Option (List Param)
  deriving Inhabited

namespace BuiltinClass

/-- The groups of members that a class defines itself. -/
def groups : BuiltinClass → List BuiltinGroup
  | .object =>
    [.byClass "object" "" "__hash__ __repr__ __str__",
      .byClass "object" "/name" "__delattr__ __getattribute__",
      .byClass "object" "/name /value" "__setattr__",
      .byClass "object" "/value" "__eq__ __ge__ __gt__ __le__ __lt__ __ne__",
      .byClass "object" "*args **kwargs" "__init__",
      .byValue "*args **kwargs" "__new__",
      .byValue "/protocol" "__reduce_ex__",
      .byValue "" "__dir__ __getstate__ __reduce__ __sizeof__",
      .untold "__init_subclass__ __subclasshook__",
      .byValue "/format_spec" "__format__"]
  | .none => [.byClass "NoneType" "/self" "__bool__ __repr__"]
  | .int =>
    [.byClass "int" ""
        "__abs__ __bool__ __float__ __hash__ __index__ __int__ __invert__ __neg__ __pos__ __repr__",
      .byClass "int" "/name" "__getattribute__",
      .byClass "int" "/value"
        ("__add__ __and__ __divmod__ __eq__ __floordiv__ __ge__ __gt__ __le__ __lshift__ __lt__ " ++
        "__mod__ __mul__ __ne__ __or__ __radd__ __rand__ __rdivmod__ __rfloordiv__ __rlshift__ " ++
        "__rmod__ __rmul__ __ror__ __rrshift__ __rshift__ __rsub__ __rtruediv__ __rxor__ " ++
        "__sub__ __truediv__ __xor__"),
      .byClass "int" "/value /mod=" "__pow__ __rpow__",
      .untold "__ceil__ __floor__ __round__ __trunc__ conjugate",
      .byValue "" "__getnewargs__ __sizeof__ as_integer_ratio bit_count bit_length",
      .byValue "length= byteorder= ~signed=" "to_bytes",
      .byValue "bytes byteorder= ~signed=" "from_bytes",
      .byValue "/format_spec" "__format__"]
  | .bool =>
    [.byClass "bool" "" "__repr__",
      .byClass "bool" "/value" "__and__ __or__ __rand__ __ror__ __rxor__ __xor__"]
  | .float =>
    [.byClass "float" ""
        "__abs__ __bool__ __float__ __hash__ __int__ __neg__ __pos__ __repr__",
      .byClass "float" "/name" "__getattribute__",
      .byClass "float" "/value"
        ("__add__ __divmod__ __eq__ __floordiv__ __ge__ __gt__ __le__ __lt__ __mod__ __mul__ " ++
        "__ne__ __radd__ __rdivmod__ __rfloordiv__ __rmod__ __rmul__ __rsub__ __rtruediv__ " ++
        "__sub__ __truediv__"),
      .byClass "float" "/value /mod=" "__pow__ __rpow__",
      .byValue ""
        "__ceil__ __floor__ __getnewargs__ __trunc__ as_integer_ratio conjugate hex is_integer",
      .byValue "/ndigits=" "__round__", .byValue "/string" "fromhex",
      .byValue "/typestr" "__getformat__", .byValue "/format_spec" "__format__"]
  | .text =>
    [.byClass "str" "" "__hash__ __iter__ __len__ __repr__ __str__",
      .byClass "str" "/name" "__getattribute__",
      .byClass "str" "/value"
        "__add__ __eq__ __ge__ __gt__ __le__ __lt__ __mod__ __mul__ __ne__ __rmod__ __rmul__",
      .byClass "str" "/key" "__contains__ __getitem__",
      .byValue "encoding= errors=" "encode", .byValue "/old /new /count=" "replace",
      .byValue "sep= maxsplit=" "rsplit split", .byValue "/iterable" "join",
      .byValue ""
        ("__sizeof__ capitalize casefold isalnum isalpha isascii isdecimal isdigit isidentifier " ++
        "islower isnumeric isprintable isspace istitle isupper lower swapcase title upper"),
      .byValue "/width /fillchar=" "center ljust rjust",
      .untold
        ("__getnewargs__ count endswith find format format_map index maketrans rfind rindex " ++
        "startswith"),
      .byValue "tabsize=" "expandtabs", .byValue "/sep" "partition rpartition",
      .byValue "/chars=" "lstrip rstrip strip", .byValue "keepends=" "splitlines",
      .byValue "/table" "translate", .byValue "/prefix" "removeprefix",
      .byValue "/suffix" "removesuffix", .byValue "/width" "zfill",
      .byValue "/format_spec" "__format__"]
  | .bytes =>
    [.byClass "bytes" "" "__hash__ __iter__ __len__ __repr__ __str__",
      .byClass "bytes" "/name" "__getattribute__",
      .byClass "bytes" "/value"
        "__add__ __eq__ __ge__ __gt__ __le__ __lt__ __mod__ __mul__ __ne__ __rmod__ __rmul__",
      .byClass "bytes" "/key" "__contains__ __getitem__",
      .untold
        ("__getnewargs__ capitalize count endswith find hex index isalnum isalpha isascii " ++
        "isdigit islower isspace istitle isupper lower rfind rindex startswith swapcase title " ++
        "upper"),
      .byValue "" "__bytes__", .byValue "/width /fillchar=" "center ljust rjust",
      .byValue "encoding= errors=" "decode", .byValue "tabsize=" "expandtabs",
      .byValue "/string" "fromhex", .byValue "/iterable_of_bytes" "join",
      .byValue "/bytes=" "lstrip rstrip strip", .byValue "/frm /to" "maketrans",
      .byValue "/sep" "partition rpartition", .byValue "/old /new /count=" "replace",
      .byValue "/prefix" "removeprefix", .byValue "/suffix" "removesuffix",
      .byValue "sep= maxsplit=" "rsplit split", .byValue "keepends=" "splitlines",
      .byValue "/table delete=" "translate", .byValue "/width" "zfill"]
  | .list =>
    [.byClass "list" "" "__iter__ __len__ __repr__",
      .byClass "list" "/name" "__getattribute__",
      .byClass "list" "/value"
        "__add__ __eq__ __ge__ __gt__ __iadd__ __imul__ __le__ __lt__ __mul__ __ne__ __rmul__",
      .byClass "list" "*args **kwargs" "__init__",
      .byClass "list" "/key /value" "__setitem__",
      .byClass "list" "/key" "__contains__ __delitem__",
      .untold "__class_getitem__ __getitem__",
      .byValue "" "__reversed__ __sizeof__ clear copy reverse",
      .byValue "/object" "append", .byValue "/index /object" "insert",
      .byValue "/iterable" "extend", .byValue "/index=" "pop",
      .byValue "/value" "count remove", .byValue "/value /start= /stop=" "index",
      .byValue "~key= ~reverse=" "sort"]
  | .mapping =>
    [.byClass "dict" "" "__iter__ __len__ __repr__",
      .byClass "dict" "/name" "__getattribute__",
      .byClass "dict" "/value"
        "__eq__ __ge__ __gt__ __ior__ __le__ __lt__ __ne__ __or__ __ror__",
      .byClass "dict" "*args **kwargs" "__init__",
      .byClass "dict" "/key /value" "__setitem__", .byClass "dict" "/key" "__delitem__",
      .untold
        "__class_getitem__ __getitem__ __sizeof__ clear copy items keys pop update values",
      .byValue "/key" "__contains__", .byValue "/key /default=" "get setdefault",
      .byValue "" "__reversed__ popitem", .byValue "/iterable /value=" "fromkeys"]
  | .path =>
    [.byClass "Path" ""
        ("__enter__ absolute cwd exists expanduser group home is_block_device is_char_device " ++
        "is_dir is_fifo is_file is_mount is_socket is_symlink iterdir lstat owner read_bytes " ++
        "readlink rmdir"),
      .byClass "Path" "other_path" "samefile", .byClass "Path" "pattern" "glob rglob",
      .byClass "Path" "strict=" "resolve", .byClass "Path" "~follow_symlinks=" "stat",
      .byClass "Path" "mode= buffering= encoding= errors= newline=" "open",
      .byClass "Path" "encoding= errors=" "read_text",
      .byClass "Path" "data" "write_bytes",
      .byClass "Path" "data encoding= errors= newline=" "write_text",
      .byClass "Path" "mode= exist_ok=" "touch",
      .byClass "Path" "mode= parents= exist_ok=" "mkdir",
      .byClass "Path" "mode ~follow_symlinks=" "chmod",
      .byClass "Path" "missing_ok=" "unlink",
      .byClass "Path" "target" "hardlink_to link_to rename replace",
      .byClass "PurePath" ""
        ("__bytes__ __fspath__ __hash__ __reduce__ __repr__ __str__ as_posix as_uri is_absolute " ++
        "is_reserved"),
      .byClass "PurePath" "other" "__eq__ __ge__ __gt__ __le__ __lt__",
      .byClass "PurePath" "name" "with_name", .byClass "PurePath" "stem" "with_stem",
      .byClass "PurePath" "suffix" "with_suffix",
      .byClass "PurePath" "*other" "is_relative_to relative_to",
      .byClass "PurePath" "*args" "joinpath",
      .byClass "PurePath" "key" "__rtruediv__ __truediv__",
      .byClass "PurePath" "path_pattern" "match"]

/-- What the values of a class hold. -/
def fields : BuiltinClass → List String
  | .int | .bool => ["denominator", "imag", "numerator", "real"]
  | .float => ["imag", "real"]
  | .list | .mapping => ["__hash__"]
  | .path => ["anchor", "drive", "name", "parent", "parents", "parts", "root", "stem", "suffix",
      "suffixes"]
  | _ => []

/-- Whether the values of a class hold something under a name. -/
def holds (b : BuiltinClass) (name : String) : Bool := name = "__doc__" || b.fields.contains name

/-- A class and those below it. -/
def ladder (b : BuiltinClass) : List BuiltinClass :=
  match b with
  | .object => [.object]
  | .bool => [.bool, .int, .object]
  | b => [b, .object]

/-- The group of a name among the groups of a class and of those below it. -/
def group? (b : BuiltinClass) (name : String) : Option BuiltinGroup :=
  (b.ladder.flatMap groups).find? fun g => (wordsOf g.names).contains name

/-- A member by its name. -/
def member? (b : BuiltinClass) (name : String) : Option BuiltinMember :=
  (b.group? name).map fun g =>
    ⟨g.owner, name, g.params.map fun s => (wordsOf s).map Param.ofWord⟩

end BuiltinClass

/-- The names that every class has beside those of its values. -/
def classFields : List String :=
  ["__abstractmethods__", "__annotations__", "__base__", "__bases__", "__basicsize__", "__dict__",
    "__dictoffset__", "__doc__", "__flags__", "__instancecheck__", "__itemsize__", "__module__",
    "__mro__", "__name__", "__or__", "__qualname__", "__ror__", "__subclasscheck__",
    "__text_signature__", "__weakref__", "__weakrefoffset__", "__class__"]

end Wiring
