/-!
# `Wiring.Component`: naming the parts of the engine

A component is a part of the engine that a value can name: a declaration, a container, a source, an
injector and so on. It is known by its kind and by its number among those of its kind. Declarations,
containers and settings are compared by what they hold, all others by which one they are.
-/

set_option autoImplicit false

namespace Wiring

/-- The kinds of components that a value can name. -/
inductive ComponentKind where
  | argument | call | definition | container | xmlSource | cachedSource | countingSource
  | browser | config | factory | context | injector | settings | core | cacheControl
  deriving DecidableEq, Inhabited

/-- A component of the engine. -/
structure Component where
  kind : ComponentKind
  id : Nat
  deriving DecidableEq, Inhabited

namespace ComponentKind

/-- The module and the name of a component's class. -/
def names : ComponentKind → String × String
  | .argument => ("wirebox.argument", "Argument")
  | .call => ("wirebox.call", "Call")
  | .definition => ("wirebox.definition", "Definition")
  | .container => ("wirebox.container", "DefinitionContainer")
  | .xmlSource => ("wirebox.xml_dependency_io", "XmlDependencyIO")
  | .cachedSource => ("wirebox.cached_dependency_io", "CachedDependencyIO")
  | .countingSource => ("wirebox.dependency_io", "CountingIO")
  | .browser => ("wirebox.file_browser", "FileBrowser")
  | .config => ("wirebox.config", "Config")
  | .factory => ("wirebox.object_factory", "ObjectFactory")
  | .context => ("wirebox.resolution_context", "ResolutionContext")
  | .injector => ("wirebox.injector", "Injector")
  | .settings => ("wirebox.settings", "WireboxSettings")
  | .core => ("wirebox.core", "WireboxCore")
  | .cacheControl => ("wirebox.cache_control", "DependencyCacheControl")

/-- Whether components of the kind are compared by what they hold. -/
def isStructural : ComponentKind → Bool
  | .argument | .call | .definition | .container | .settings => true
  | _ => false

end ComponentKind

end Wiring
