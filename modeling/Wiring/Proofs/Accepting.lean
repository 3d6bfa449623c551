import Wiring.Proofs.Documents
import Wiring.Proofs.Overlays

/-!
# `Wiring.Proofs.Accepting`: the trees that declare something

Which elements are well formed is said here of the tree alone: `IsDependency`, `IsCall` and
`IsArgument` ask for attributes that are not empty, on an element and on its direct children.
`Declares` says what a declaration takes from its element. Neither mentions the reader.

`Reads` is what the reader does to one element: it answers with what a well formed element declares,
and with a fault that blames the source where the element is not well formed. It passes from the
parts of a list to the list (`reads_mapM`), so each kind of element needs its own attributes only.
`ofElement_accepts` puts this together for a tree, whose dependencies stand in document order.
-/

set_option autoImplicit false

namespace Wiring

open Wiring.Xml

/-! ### Mappings under texts -/

namespace Value

/-- The keys after an entry was written under a text. -/
theorem keys_put_text {s : String} {v : Value} (entries : List (Value × Value)) :
    ∀ {names : List String}, entries.map Prod.fst = names.map .text →
      (put (.text s) v entries).map Prod.fst
        = (if s ∈ names then names else names ++ [s]).map .text := by
  induction entries with
  | nil =>
    intro names h
    cases names with
    | nil => rfl
    | cons n rest => cases h
  | cons e rest ih =>
    intro names h
    cases names with
    | nil => cases h
    | cons n names =>
      obtain ⟨hkey, hrest⟩ := List.cons.inj h
      have hsame : sameScalar e.1 (.text s) = decide (n = s) := by rw [hkey]; rfl
      rw [put, hsame]
      by_cases hn : n = s
      · simp [hn, hrest, hkey]
      · by_cases hs : s ∈ names <;> simp [hn, Ne.symm hn, hkey, ih hrest, hs]

/-- What stands under a text after an entry was written under a text. -/
theorem lookup_put_text {s n : String} {v : Value} (entries : List (Value × Value)) :
    lookup (.text n) (put (.text s) v entries)
      = if s = n then some v else lookup (.text n) entries := by
  induction entries with
  | nil => simp [put, lookup, sameScalar]
  | cons e rest ih =>
    obtain ⟨k, w⟩ := e
    by_cases hk : sameScalar k (.text s) = true
    · rw [put, if_pos hk, sameScalar_text hk, lookup, lookup]
      by_cases hs : s = n <;> simp [sameScalar, hs]
    · rw [put, if_neg hk, lookup, ih, lookup]
      -- A key that is not the written one hides nothing of it.
      by_cases hs : s = n
      · subst hs
        simp [hk]
      · simp [hs]

end Value

/-! ### Elements of a tree -/

namespace Xml.Element

/-- An element is in a tree when it is the root or in the tree of one of its children. -/
inductive Within (e : Element) : Element → Prop
  | self : Within e e
  | child {c root : Element} (hc : c ∈ root.children) (h : Within e c) : Within e root

mutual

/-- The elements of a tree in document order: an element stands before its children. -/
def inOrder : Element → List Element
  | mk t as cs => mk t as cs :: inOrderAll cs

/-- The elements of some trees in document order. -/
def inOrderAll : List Element → List Element
  | [] => []
  | e :: rest => inOrder e ++ inOrderAll rest

end

mutual

/-- The elements with a tag are listed in document order. -/
theorem tagged_eq_filter (tag : String) :
    ∀ e : Element, e.tagged tag = e.inOrder.filter fun x => x.tag = tag
  | mk t as cs => by
    rw [tagged, inOrder, List.filter_cons, taggedBelow_eq_filter tag cs]
    by_cases h : t = tag <;> simp [Element.tag, h]

/-- The elements with a tag in some trees are listed in document order. -/
theorem taggedBelow_eq_filter (tag : String) :
    ∀ es : List Element, taggedBelow tag es = (inOrderAll es).filter fun x => x.tag = tag
  | [] => rfl
  | e :: rest => by
    rw [taggedBelow, inOrderAll, List.filter_append, tagged_eq_filter tag e,
      taggedBelow_eq_filter tag rest]

end

mutual

/-- What is listed is in the tree. -/
theorem within_of_mem_inOrder {e : Element} : ∀ root : Element, e ∈ root.inOrder → e.Within root
  | mk t as cs, h => by
    rw [inOrder, List.mem_cons] at h
    rcases h with rfl | h
    · exact .self
    · obtain ⟨c, hc, hwithin⟩ := within_of_mem_inOrderAll cs h
      exact .child hc hwithin

/-- What is listed of some trees is in one of them. -/
theorem within_of_mem_inOrderAll {e : Element} :
    ∀ es : List Element, e ∈ inOrderAll es → ∃ c ∈ es, e.Within c
  | [], h => by cases h
  | c :: rest, h => by
    rw [inOrderAll, List.mem_append] at h
    rcases h with h | h
    · exact ⟨c, List.mem_cons_self, within_of_mem_inOrder c h⟩
    · obtain ⟨c', hc', hwithin⟩ := within_of_mem_inOrderAll rest h
      exact ⟨c', List.mem_cons_of_mem _ hc', hwithin⟩

end

/-- What one of some trees lists is listed of all of them. -/
theorem mem_inOrderAll {e c : Element} {es : List Element} (hc : c ∈ es) (h : e ∈ c.inOrder) :
    e ∈ inOrderAll es := by
  induction es with
  | nil => cases hc
  | cons x rest ih =>
    rw [inOrderAll, List.mem_append]
    rcases List.mem_cons.mp hc with rfl | hc
    · exact Or.inl h
    · exact Or.inr (ih hc)

/-- The elements of a tree are those in it. -/
theorem mem_inOrder_iff {e root : Element} : e ∈ root.inOrder ↔ e.Within root := by
  refine ⟨within_of_mem_inOrder root, fun h => ?_⟩
  induction h with
  | self =>
    cases e
    exact List.mem_cons_self
  | @child c root hc _ ih =>
    cases root
    exact List.mem_cons_of_mem _ (mem_inOrderAll hc ih)

/-! ### Well formed elements -/

/-- An attribute with a value that is not empty. -/
def Gives (e : Element) (name value : String) : Prop := e.attribute? name = some value ∧ value ≠ ""

/-- Whether the attribute is there and not empty. -/
def Has (e : Element) (name : String) : Prop := ∃ value, e.Gives name value

/-- The attribute that is read is the one that is given. -/
theorem filled?_eq_some_iff {e : Element} {name value : String} :
    e.filled? name = some value ↔ e.Gives name value := by
  unfold filled? Gives
  cases e.attribute? name with
  | none => simp
  | some v =>
    by_cases hv : v = ""
    · subst hv
      simp +contextual [eq_comm]
    · simp only [if_neg hv, Option.some.injEq]
      exact ⟨fun h => ⟨h, h ▸ hv⟩, fun h => h.1⟩

/-- No attribute is read where none is given. -/
theorem filled?_eq_none_iff {e : Element} {name : String} :
    e.filled? name = none ↔ ¬ e.Has name := by
  unfold Has
  rw [Option.eq_none_iff_forall_ne_some, not_exists]
  simp only [← filled?_eq_some_iff, ne_eq]

/-- The argument has a name and a type, and each of its properties has a name. -/
structure IsArgument (e : Element) : Prop where
  name : e.Has "name"
  type : e.Has "type"
  property : ∀ p ∈ e.childrenTagged "property", p.Has "name"

/-- The call has a method, and its arguments are well formed. -/
structure IsCall (e : Element) : Prop where
  method : e.Has "method"
  argument : ∀ a ∈ e.childrenTagged "argument", a.IsArgument

/-- The dependency has a class or extends another one, it is meant for an interface or a class, its
interfaces have names, and its calls are well formed. -/
structure IsDependency (e : Element) : Prop where
  origin : e.Has "class" ∨ e.Has "extends"
  target : e.Has "interface" ∨ e.Has "class"
  interface : ∀ i ∈ e.childrenTagged "interface", i.Has "name"
  call : ∀ c ∈ e.childrenTagged "call", c.IsCall

end Xml.Element

/-! ### What an element declares -/

namespace Declaration

/-- The argument has the name and the type of the element. Its properties are those of the children,
each name at its first place and with its last value. -/
structure DeclaresArgument (e : Element) (a : Argument) : Prop where
  name : e.Gives "name" a.name
  kind : e.Gives "type" a.kind
  keys : a.properties.map Prod.fst
    = ((e.childrenTagged "property").filterMap fun p => p.attribute? "name").eraseDups.map .text
  value : ∀ n, a.property? n
    = ((e.childrenTagged "property").reverse.find? fun p => p.attribute? "name" = some n).map
        fun p => attributeValue p "value"

/-- The call has the method and the identifier of the element, and its arguments are those of the
children. -/
structure DeclaresCall (e : Element) (c : Call) : Prop where
  method : e.Gives "method" c.method
  identifier : ∀ i, c.identifier = some i ↔ e.Gives "id" i
  arguments : List.Forall₂ DeclaresArgument (e.childrenTagged "argument") c.arguments

/-- The declaration has the attributes of the element, and its interfaces and its calls are those of
the children. -/
structure Declares (source : String) (e : Element) (d : Declaration) : Prop where
  interface : ∀ i, d.interface = some i ↔ e.Gives "interface" i
  className : ∀ n, d.className = some n ↔ e.Gives "class" n
  identifier : ∀ i, d.identifier = some i ↔ e.Gives "id" i
  base : ∀ r, d.base = some r ↔ e.Gives "extends" r
  interfaces : List.Forall₂ (fun i n => i.Gives "name" n) (e.childrenTagged "interface")
    d.interfaces
  calls : List.Forall₂ DeclaresCall (e.childrenTagged "call") d.calls
  source : d.source = source

end Declaration

/-- The fault is one of a declaration, and its wording names the source. -/
structure Fault.Blames (source : String) (f : Fault) : Prop where
  kind : f.kind = "DefinitionError"
  names : ∃ before after, f.text = before ++ source ++ after

/-- A declaration fault whose wording ends with the source blames it. -/
theorem Fault.blames_of_message {why : DefinitionFault} {before source : String}
    (h : why.message = before ++ source) : (Fault.definition why).Blames source where
  kind := rfl
  names := by
    refine ⟨before, "", ?_⟩
    rw [String.append_empty]
    exact h

/-- A wrong argument blames the source. -/
theorem Fault.blames_argument (method source : String) (why : DefinitionFault) :
    (Fault.argument method source why).Blames source where
  kind := rfl
  names := by
    refine ⟨"Invalid argument for call " ++ method ++ " in ", ": " ++ why.message, ?_⟩
    rw [← String.append_assoc]
    rfl

namespace Declaration

variable {α : Type}

/-- What comes of reading an element from a source: what it declares if it is well formed, and else
a fault that blames the source. -/
def Reads (source : String) (wellFormed : Prop) (declares : α → Prop) : Except Fault α → Prop
  | .ok a => wellFormed ∧ declares a
  | .error f => ¬ wellFormed ∧ f.Blames source

/-- The elements of a list are read one by one. -/
theorem reads_mapM {source : String} {wellFormed : Element → Prop}
    {declares : Element → α → Prop} {read : Element → Except Fault α}
    (h : ∀ e, Reads source (wellFormed e) (declares e) (read e)) (es : List Element) :
    Reads source (∀ e ∈ es, wellFormed e) (List.Forall₂ declares es) (es.mapM read) := by
  cases hes : es.mapM read with
  | ok answers =>
    have hall := (Except.mapM_eq_ok_iff es).mp hes
    clear hes
    have hone : ∀ {e a}, read e = .ok a → wellFormed e ∧ declares e a := by
      intro e a ha
      have he := h e
      rw [ha] at he
      exact he
    refine ⟨?_, hall.imp fun _ _ ha => (hone ha).2⟩
    induction hall with
    | nil => exact nofun
    | cons ha _ ih => exact List.forall_mem_cons.mpr ⟨(hone ha).1, ih⟩
  | error f =>
    obtain ⟨before, e, after, rfl, -, he⟩ := Except.exists_of_mapM_eq_error es hes
    have hfails := h e
    rw [he] at hfails
    exact ⟨fun hall => hfails.1 (hall e (by simp)), hfails.2⟩

/-- Reading goes on behind a part that was read. -/
theorem Reads.bind {β : Type} {source : String} {part whole : Prop} {declares : α → Prop}
    {declares' : β → Prop} {x : Except Fault α} {g : α → Except Fault β}
    (hx : Reads source part declares x) (hpart : whole → part)
    (hg : ∀ a, part → declares a → Reads source whole declares' (g a)) :
    Reads source whole declares' (x >>= g) := by
  cases x with
  | ok a => exact hg a hx.1 hx.2
  | error f => exact ⟨fun h => hx.1 (hpart h), hx.2⟩

/-! ### Arguments -/

/-- The properties that were read, with that of one more element. -/
def withProperty (read : List (Value × Value)) (p : Element) : List (Value × Value) :=
  Value.put (.text ((p.filled? "name").getD "")) (attributeValue p "value") read

/-- Properties with names are read one by one. -/
theorem readProperties_of_named {method source : String} (ps : List Element) :
    ∀ {read : List (Value × Value)}, (∀ p ∈ ps, p.Has "name") →
      readProperties method source read ps = .ok (ps.foldl withProperty read) := by
  induction ps with
  | nil => exact fun _ => rfl
  | cons p rest ih =>
    intro read h
    obtain ⟨⟨n, hn⟩, hrest⟩ := List.forall_mem_cons.mp h
    have hfilled := Xml.Element.filled?_eq_some_iff.mpr hn
    rw [readProperties, hfilled, List.foldl_cons, withProperty, hfilled]
    exact ih hrest

/-- A property without a name is a fault of its call. -/
theorem readProperties_of_unnamed {method source : String} (ps : List Element) :
    ∀ {read : List (Value × Value)}, ¬ (∀ p ∈ ps, p.Has "name") →
      readProperties method source read ps
        = .error (.definition (.propertyWithoutName method source)) := by
  induction ps with
  | nil => exact fun h => absurd nofun h
  | cons p rest ih =>
    intro read h
    rw [List.forall_mem_cons, not_and_or] at h
    rw [readProperties]
    cases hp : p.filled? "name" with
    | none => rfl
    | some n =>
      have hnamed : p.Has "name" := ⟨n, Xml.Element.filled?_eq_some_iff.mp hp⟩
      exact ih (h.resolve_left (not_not_intro hnamed))

/-- The keys of properties are the names in the order of their first places. -/
theorem keys_foldl_withProperty (ps : List Element) (h : ∀ p ∈ ps, p.Has "name") :
    (ps.foldl withProperty []).map Prod.fst
      = (ps.filterMap fun p => p.attribute? "name").eraseDups.map .text := by
  -- From the end, because the last element decides about its name.
  induction ps using List.reverseRecOn with
  | nil => rfl
  | append_singleton rest p ih =>
    obtain ⟨n, hn⟩ := h p (by simp)
    have hrest := ih fun q hq => h q (by simp [hq])
    rw [List.foldl_append, List.filterMap_append, List.foldl_cons, List.foldl_nil, withProperty,
      Xml.Element.filled?_eq_some_iff.mpr hn, Option.getD_some, Value.keys_put_text _ hrest]
    simp only [List.filterMap_cons, hn.1, List.filterMap_nil,
      Container.eraseDups_append_singleton, List.mem_eraseDups]

/-- Under a name stands the value of the last property that has it. -/
theorem lookup_foldl_withProperty (ps : List Element) (h : ∀ p ∈ ps, p.Has "name") (n : String) :
    Value.lookup (.text n) (ps.foldl withProperty [])
      = (ps.reverse.find? fun p => p.attribute? "name" = some n).map
          fun p => attributeValue p "value" := by
  induction ps using List.reverseRecOn with
  | nil => rfl
  | append_singleton rest p ih =>
    obtain ⟨m, hm⟩ := h p (by simp)
    have hrest := ih fun q hq => h q (by simp [hq])
    rw [List.foldl_append, List.foldl_cons, List.foldl_nil, withProperty,
      Xml.Element.filled?_eq_some_iff.mpr hm, Option.getD_some, Value.lookup_put_text, hrest,
      List.reverse_append, List.reverse_singleton, List.singleton_append, List.find?_cons, hm.1]
    by_cases hmn : m = n <;> simp [hmn]

/-- An attribute is a name if it is given. -/
theorem name?_attributeValue (e : Element) (name : String) :
    (attributeValue e name).name? = e.filled? name := by
  unfold attributeValue Xml.Element.filled?
  cases e.attribute? name <;> rfl

/-- An argument is read as it is declared. -/
theorem reads_argument (method source : String) (e : Element) :
    Reads source e.IsArgument (DeclaresArgument e) (readArgument method source e) := by
  unfold readArgument
  -- The properties are read first, so one without a name decides before the argument is declared.
  by_cases hp : ∀ p ∈ e.childrenTagged "property", p.Has "name"
  · rw [readProperties_of_named _ hp]
    unfold Argument.declare
    simp only [name?_attributeValue]
    cases hname : e.filled? "name" with
    | none =>
      exact ⟨fun h => Xml.Element.filled?_eq_none_iff.mp hname h.name, Fault.blames_argument ..⟩
    | some n =>
      cases hkind : e.filled? "type" with
      | none =>
        exact ⟨fun h => Xml.Element.filled?_eq_none_iff.mp hkind h.type, Fault.blames_argument ..⟩
      | some k =>
        have hn := Xml.Element.filled?_eq_some_iff.mp hname
        have hk := Xml.Element.filled?_eq_some_iff.mp hkind
        exact ⟨⟨⟨n, hn⟩, ⟨k, hk⟩, hp⟩, hn, hk, keys_foldl_withProperty _ hp,
          lookup_foldl_withProperty _ hp⟩
  · rw [readProperties_of_unnamed _ hp]
    exact ⟨fun h => hp h.property, Fault.blames_of_message rfl⟩

/-! ### Calls, interfaces and dependencies -/

/-- A call is read as it is declared. -/
theorem reads_call (owner : Option String) (source : String) (e : Element) :
    Reads source e.IsCall (DeclaresCall e) (readCall owner source e) := by
  unfold readCall
  cases hmethod : e.filled? "method" with
  | none =>
    exact ⟨fun h => Xml.Element.filled?_eq_none_iff.mp hmethod h.method,
      Fault.blames_of_message rfl⟩
  | some method =>
    have hm := Xml.Element.filled?_eq_some_iff.mp hmethod
    refine (reads_mapM (reads_argument method source) (e.childrenTagged "argument")).bind
      (fun h => h.argument) fun arguments hwell hdeclared => ?_
    exact ⟨⟨⟨method, hm⟩, hwell⟩, hm, fun i => Xml.Element.filled?_eq_some_iff, hdeclared⟩

/-- The name of an interface is read as it is given. -/
theorem reads_interface (className : Option String) (source : String) (e : Element) :
    Reads source (e.Has "name") (e.Gives "name") (readInterface className source e) := by
  unfold readInterface
  cases hname : e.filled? "name" with
  | none =>
    exact ⟨Xml.Element.filled?_eq_none_iff.mp hname, Fault.blames_of_message rfl⟩
  | some n =>
    have hn := Xml.Element.filled?_eq_some_iff.mp hname
    exact ⟨⟨n, hn⟩, hn⟩

/-- A dependency is read as it is declared. -/
theorem reads_dependency (source : String) (e : Element) :
    Reads source e.IsDependency (Declares source e) (readDependency source e) := by
  unfold readDependency
  -- Once the attributes pass, the children decide.
  have hrest (horigin : e.Has "class" ∨ e.Has "extends") (htarget : e.Has "interface" ∨ e.Has "class") :
      Reads source e.IsDependency (Declares source e) (do
        let interfaces ← (e.childrenTagged "interface").mapM
          (readInterface (e.filled? "class") source)
        let owner := (e.filled? "class").orElse fun _ => e.filled? "interface"
        let calls ← (e.childrenTagged "call").mapM (readCall owner source)
        .ok ⟨e.filled? "interface", e.filled? "class", e.filled? "id", e.filled? "extends",
          interfaces, calls, source⟩) := by
    refine (reads_mapM (reads_interface _ source) (e.childrenTagged "interface")).bind
      (fun h => h.interface) fun interfaces hinterfaces hnames => ?_
    refine (reads_mapM (reads_call _ source) (e.childrenTagged "call")).bind
      (fun h => h.call) fun calls hcalls hdeclared => ?_
    have hgives (name v : String) : e.filled? name = some v ↔ e.Gives name v :=
      Xml.Element.filled?_eq_some_iff
    exact ⟨⟨horigin, htarget, hinterfaces, hcalls⟩, hgives _, hgives _, hgives _, hgives _, hnames,
      hdeclared, rfl⟩
  have hhas {name v : String} (h : e.filled? name = some v) : e.Has name :=
    ⟨v, Xml.Element.filled?_eq_some_iff.mp h⟩
  have hlacks {name : String} (h : e.filled? name = none) : ¬ e.Has name :=
    Xml.Element.filled?_eq_none_iff.mp h
  -- What is extended and for which interface is asked only where there is no class.
  cases hclass : e.filled? "class" with
  | some n =>
    rw [hclass] at hrest
    exact hrest (Or.inl (hhas hclass)) (Or.inr (hhas hclass))
  | none =>
    rw [hclass] at hrest
    cases hbase : e.filled? "extends" with
    | none =>
      exact ⟨fun h => h.origin.elim (hlacks hclass) (hlacks hbase), Fault.blames_of_message rfl⟩
    | some reference =>
      rw [hbase] at hrest
      cases hinterface : e.filled? "interface" with
      | none =>
        exact ⟨fun h => h.target.elim (hlacks hinterface) (hlacks hclass),
          Fault.blames_of_message rfl⟩
      | some i =>
        rw [hinterface] at hrest
        exact hrest (Or.inr (hhas hbase)) (Or.inl (hhas hinterface))

/-! ### Trees -/

/-- A tree is read if and only if every dependency in it is well formed. Each of them gives one
declaration, in document order. Otherwise the first dependency that is not well formed decides about
the fault, which blames the source. -/
theorem ofElement_accepts (source : String) (root : Element) :
    ((∃ ds, ofElement source root = .ok ds)
      ↔ ∀ e : Element, e.Within root → e.tag = "dependency" → e.IsDependency) ∧
    (∀ ds, ofElement source root = .ok ds →
      List.Forall₂ (Declares source) (root.inOrder.filter fun e => e.tag = "dependency") ds) ∧
    ∀ f, ofElement source root = .error f →
      f.Blames source ∧
      ∃ before e after, (root.inOrder.filter fun e => e.tag = "dependency") = before ++ e :: after ∧
        (∀ b ∈ before, b.IsDependency) ∧ ¬ e.IsDependency ∧
        readDependency source e = .error f := by
  have hreads := reads_mapM (reads_dependency source) (root.tagged "dependency")
  have hwithin : (∀ e ∈ root.tagged "dependency", e.IsDependency)
      ↔ ∀ e : Element, e.Within root → e.tag = "dependency" → e.IsDependency := by
    rw [Xml.Element.tagged_eq_filter]
    simp only [List.mem_filter, Xml.Element.mem_inOrder_iff, decide_eq_true_eq, and_imp]
  rw [← hwithin, ← Xml.Element.tagged_eq_filter]
  unfold ofElement
  cases hread : (root.tagged "dependency").mapM (readDependency source) with
  | ok ds =>
    rw [hread] at hreads
    refine ⟨⟨fun _ => hreads.1, fun _ => ⟨ds, rfl⟩⟩, fun ds' h => ?_, fun f h => by cases h⟩
    cases h
    exact hreads.2
  | error f =>
    rw [hread] at hreads
    refine ⟨⟨(fun ⟨_, h⟩ => nomatch h), fun h => absurd h hreads.1⟩, nofun, fun f' h => ?_⟩
    cases h
    obtain ⟨before, e, after, hlist, hbefore, he⟩ := Except.exists_of_mapM_eq_error _ hread
    refine ⟨hreads.2, before, e, after, hlist, fun b hb => ?_, ?_, he⟩
    · obtain ⟨d, hd⟩ := hbefore b hb
      have hb := reads_dependency source b
      rw [hd] at hb
      exact hb.1
    · have he' := reads_dependency source e
      rw [he] at he'
      exact he'.1

/-- A dependency with a repeated property, and one inside it that extends it. -/
def nestedTree : Element :=
  .mk "dependencies" []
    [.mk "dependency" [("class", "app.Log"), ("id", "")]
      [.mk "call" [("method", "open")]
        [.mk "argument" [("name", "level"), ("type", "scalar")]
          [.mk "property" [("name", "value"), ("value", "info")] [],
            .mk "property" [("name", "value"), ("value", "debug")] []]],
        .mk "dependency" [("interface", "app.Log"), ("extends", "app.Log#")] []]]

/-- A tree whose second dependency has a call without a method. -/
def brokenTree : Element :=
  .mk "dependencies" []
    [.mk "dependency" [("class", "app.Log")] [],
      .mk "dependency" [("class", "app.Mail")] [.mk "call" [("method", "")] []]]

/-- One tree is read, and the other one is not. -/
theorem ofElement_accepts_trees :
    (∃ ds, ofElement "a.xml" nestedTree = .ok ds ∧ ds.length = 2 ∧
      List.Forall₂ (Declares "a.xml")
        (nestedTree.inOrder.filter fun e => e.tag = "dependency") ds) ∧
    ∃ f, ofElement "a.xml" brokenTree = .error f ∧ f.Blames "a.xml" :=
  ⟨⟨_, rfl, rfl, (ofElement_accepts "a.xml" nestedTree).2.1 _ rfl⟩,
    ⟨_, rfl, ((ofElement_accepts "a.xml" brokenTree).2.2 _ rfl).1⟩⟩

end Declaration

end Wiring
