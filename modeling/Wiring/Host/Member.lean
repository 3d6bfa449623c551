import Wiring.Host.Program
import Wiring.Text.Split

/-!
# `Wiring.Host.Member`: what the classes of the engine have for members

A component has methods, which take arguments like any code of the program, and fields, which hold
something. The methods are listed with their parameters, class by class, in the order in which the
classes declare them.
-/

set_option autoImplicit false

namespace Wiring

/-! ### Parameters -/

namespace Param

/-- A value that tells that an argument was left out. -/
def leftOut : Value := .other "missing"

/-- A parameter that must be given and says nothing about what it wants. -/
def plain (name : String) : Param := ⟨name, .normal, none, .absent⟩

/-- A parameter that must be given. -/
def required (name : String) : Param := ⟨name, .normal, none, .other⟩

/-- A parameter that counts as null when it is left out. -/
def optional (name : String) : Param := ⟨name, .normal, some .null, .other⟩

/-- A parameter with a default. -/
def withDefault (name : String) (v : Value) : Param := ⟨name, .normal, some v, .other⟩

/-- A parameter that must be given and that wants a class. -/
def wanting (name : String) (c : ClassRef) : Param := ⟨name, .normal, none, .named c⟩

/-- A parameter that must be given and that wants a component. -/
def component (name : String) (kind : ComponentKind) : Param := wanting name (.component kind)

end Param

/-! ### Members -/

/-- A method of a component. -/
structure ComponentMethod where
  name : String
  params : List Param
  deriving Inhabited

namespace ComponentKind

/-- The parameters of a request for an object. -/
def requestParams : List Param :=
  [.required "interface", .optional "identifier", .optional "expected_type"]

/-- The methods of the components of a kind. -/
def methods : ComponentKind → List ComponentMethod
  | .argument =>
    [⟨"get_property", [.required "name", .optional "default"]⟩, ⟨"__str__", []⟩, ⟨"__repr__", []⟩,
      ⟨"__eq__", [.plain "other"]⟩]
  | .call =>
    [⟨"add_argument", [.component "argument" .argument]⟩, ⟨"__str__", []⟩, ⟨"__repr__", []⟩,
      ⟨"__eq__", [.plain "other"]⟩]
  | .definition =>
    [⟨"set_class_name", [.required "class_name"]⟩, ⟨"set_identifier", [.required "identifier"]⟩,
      ⟨"set_interfaces", [.required "interfaces"]⟩, ⟨"get_interfaces", []⟩,
      ⟨"add_call", [.component "call" .call]⟩, ⟨"get_calls", []⟩,
      ⟨"get_constructor_arguments", []⟩, ⟨"copy", []⟩, ⟨"__repr__", []⟩,
      ⟨"__eq__", [.plain "other"]⟩]
  | .container =>
    [⟨"add_definition", [.required "interface", .component "definition" .definition]⟩,
      ⟨"get_definitions", [.required "interface"]⟩,
      ⟨"get_definition", [.required "interface", .optional "identifier"]⟩,
      ⟨"extend_definition", [.required "interface", .required "base_identifier",
        .optional "identifier", .optional "class_name"]⟩,
      ⟨"get_interfaces", []⟩, ⟨"search", [.optional "query"]⟩, ⟨"describe", [.optional "query"]⟩,
      ⟨"__contains__", [.required "interface"]⟩, ⟨"__len__", []⟩, ⟨"__iter__", []⟩,
      ⟨"__eq__", [.plain "other"]⟩]
  | .xmlSource =>
    [⟨"get_container", []⟩, ⟨"get_files", []⟩,
      ⟨"read_definitions", [.component "container" .container,
        .wanting "path" (.outside "pathlib" "Path")]⟩]
  | .cachedSource =>
    [⟨"get_container", []⟩, ⟨"read", []⟩, ⟨"write", [.component "container" .container]⟩,
      ⟨"clear", []⟩]
  | .countingSource => [⟨"get_container", []⟩]
  | .browser =>
    [⟨"add_modules_directory", [.required "directory"]⟩,
      ⟨"remove_modules_directory", [.required "directory"]⟩,
      ⟨"get_include_directories", [.withDefault "refresh" (.bool false)]⟩,
      ⟨"get_file", [.required "file_name"]⟩, ⟨"get_files", [.required "file_name"]⟩,
      ⟨"reset", []⟩]
  | .config =>
    [⟨"from_ini", [⟨"paths", .rest, none, .other⟩]⟩,
      ⟨"get", [.required "key", .optional "default"]⟩,
      ⟨"set", [.required "key", .wanting "value" (.outside "typing" "Any")]⟩,
      ⟨"unset", [.required "key"]⟩, ⟨"get_all", []⟩]
  | .factory =>
    [⟨"register", [.required "cls", .optional "name"]⟩,
      ⟨"register_function", [.required "function", .optional "name"]⟩,
      ⟨"get_class", [.required "name"]⟩, ⟨"get_function", [.required "name"]⟩,
      ⟨"has_class", [.required "name"]⟩, ⟨"get_interface_name", [.required "cls"]⟩,
      ⟨"create", [.required "class_name", .optional "arguments", .optional "inject"]⟩,
      ⟨"bind", [.required "function", .required "arguments", .optional "inject"]⟩]
  | .context =>
    [⟨"enter", [.required "interface", .required "identifier"]⟩,
      ⟨"is_excluded", [.required "interface", .required "identifier"]⟩, ⟨"__repr__", []⟩]
  | .injector =>
    [⟨"set_container", [.component "container" .container,
        .withDefault "clear_instances" (.bool false)]⟩,
      ⟨"get_argument_parsers", []⟩,
      ⟨"set_argument_parser", [.required "kind", .optional "argument_parser"]⟩,
      ⟨"set_instance", [.wanting "instance" (.outside "typing" "Any"), .optional "interface",
        .optional "identifier"]⟩,
      ⟨"get_all", [.required "interface"]⟩,
      ⟨"get", requestParams ++ [.optional "exclude", .optional "context", .optional "arguments"]⟩]
  | .settings => [⟨"__repr__", []⟩, ⟨"__eq__", [.plain "other"]⟩]
  | .core =>
    [⟨"create_dependency_io", []⟩, ⟨"get", requestParams ++ [.optional "arguments"]⟩,
      ⟨"get_all", [.required "interface"]⟩, ⟨"reload", []⟩, ⟨"close", []⟩, ⟨"__enter__", []⟩,
      ⟨"__exit__", ["exc_type", "exc_val", "exc_tb"].map .plain⟩]
  | .cacheControl =>
    ["get_name", "is_enabled", "enable", "disable", "get_path", "exists", "clear"].map fun n =>
      ⟨n, []⟩

/-- The fields of the components of a kind. -/
def fields : ComponentKind → List String
  | .argument => ["name", "kind", "properties"]
  | .call => ["method_name", "arguments", "call_id", "is_constructor"]
  | .definition => ["class_name", "identifier", "interfaces", "constructor", "calls"]
  | .container => []
  | .xmlSource => ["file_browser", "environment", "file_name", "config_directory"]
  | .cachedSource => ["io", "path"]
  | .countingSource => ["container", "count"]
  | .browser => ["application_directory", "modules_directories"]
  | .config => []
  | .factory => []
  | .context => ["injector", "exclude"]
  | .injector => ["container", "object_factory", "config"]
  | .settings => ["application_directory", "modules_directories", "environment",
      "cache_dependencies", "cache_directory", "cache_file"]
  | .core => ["settings", "config", "object_factory", "file_browser", "dependency_io", "is_closed",
      "injector", "container"]
  | .cacheControl => ["NAME", "core"]

/-- The fields that a closed core does not give away. -/
def guardedFields : List String := ["injector", "container"]

/-- Whether a field is worked out by the class of a component. -/
def hasOnClass (kind : ComponentKind) (name : String) : Bool :=
  kind.fields.contains name &&
    ["NAME", "cache_file", "container", "injector", "is_closed", "is_constructor"].contains name

/-- A method of the components of a kind. -/
def method? (kind : ComponentKind) (name : String) : Option ComponentMethod :=
  kind.methods.find? fun m => m.name = name

end ComponentKind

/-- The names of what every object of a class of the program or of the engine holds. -/
def commonFields : List String := ["__dict__", "__doc__", "__module__", "__weakref__"]

end Wiring
