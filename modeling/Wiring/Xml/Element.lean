/-!
# `Wiring.Xml.Element`: trees of elements

An element has a tag, attributes and child elements. Text between elements carries no meaning here
and is not kept. A tag or an attribute in a namespace is written with the namespace in braces in
front of it.
-/

set_option autoImplicit false

namespace Wiring.Xml

/-- An element. -/
inductive Element where
  | mk (tag : String) (attributes : List (String × String)) (children : List Element)
  deriving Inhabited

namespace Element

/-- The tag. -/
def tag : Element → String
  | mk t _ _ => t

/-- The attributes. -/
def attributes : Element → List (String × String)
  | mk _ as _ => as

/-- The child elements in document order. -/
def children : Element → List Element
  | mk _ _ cs => cs

/-- The value of an attribute. -/
def attribute? (e : Element) (name : String) : Option String := e.attributes.lookup name

/-- The value of an attribute, where an empty one counts as missing. -/
def filled? (e : Element) (name : String) : Option String :=
  match e.attribute? name with
  | some v => if v = "" then none else some v
  | none => none

/-- The child elements with a tag. -/
def childrenTagged (e : Element) (tag : String) : List Element :=
  e.children.filter fun c => c.tag = tag

mutual

/-- Replaces characters in the tag and the attributes, here and below. -/
def exchanged (f : Char → Char) : Element → Element
  | mk t as cs => mk (t.map f) (as.map fun a => (a.1.map f, a.2.map f)) (exchangedAll f cs)

/-- Replaces characters in the elements of a list. -/
def exchangedAll (f : Char → Char) : List Element → List Element
  | [] => []
  | e :: rest => exchanged f e :: exchangedAll f rest

end

mutual

/-- The element and all below it in document order, as far as they have a tag. -/
def tagged (tag : String) : Element → List Element
  | mk t as cs => (if t = tag then [mk t as cs] else []) ++ taggedBelow tag cs

/-- The elements with a tag among and below the elements of a list. -/
def taggedBelow (tag : String) : List Element → List Element
  | [] => []
  | e :: rest => tagged tag e ++ taggedBelow tag rest

end

end Element

end Wiring.Xml
