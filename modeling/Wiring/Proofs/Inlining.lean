import Wiring.Proofs.Configuring
import Wiring.Proofs.Rewiring

/-!
# `Wiring.Proofs.Inlining`: arguments that hold what others look up

An argument may look up its value in a configuration, and a dependency or a call may look up its
identifier there. `Store.Inlines` tells which argument holds what another one looks up: a scalar
with the value, or the same argument with the identifier. `request_inlined` says that two injectors
answer alike if their containers hold the same definitions, but that some of the arguments in the
one hold what those in the other look up.

An argument is looked up when its turn comes, in a store that has grown. What stands in the
configuration is still the same then, so it is enough to compare the values of two such arguments in
one store (`run_argumentValue_inlined`).

A section is looked up as a new copy each time, while a value that an argument holds is the same one
each time. `inliningStore_differs` shows what comes of it.
-/

set_option autoImplicit false

namespace Wiring

open Work Store

/-! ### What is looked up -/

/-- A parser looks up keys in a configuration: its own one, or else that of the injector. -/
def Injector.Reads (i : Injector) (own : Option (Ref Config)) (c : Ref Config) : Prop :=
  own.or i.config = some c

/-- No section stands under a key. -/
def Config.Plain (c : Config) (k : String) : Prop := ConfigEntries.ofNode? (c.node? k) = none

namespace Store

/-- A value has one text, whatever is built meanwhile. -/
def Displays (s : Store) (v : Value) (text : String) : Prop :=
  ∀ t, s.Grows t → (t.content (t.current v)).display = text

/-- The identifier that a value of a configuration stands for: none, or else its text. -/
inductive Identifies (s : Store) : Value → Value → Prop
  | none : s.Identifies .null .null
  | text {v : Value} {text : String} (value : v ≠ .null) (displays : s.Displays v text)
      (plain : isConfigKey text = false) : s.Identifies v (.text text)

/-- The second argument holds what the first one looks up in a configuration. -/
inductive Inlines (s : Store) (i : Injector) (c : Ref Config) (a a' : Argument) : Prop
  | value {own : Option (Ref Config)} {k : String}
      (parser : i.parsers.get? a.kind = some (.config own)) (reads : i.Reads own c)
      (key : (s.content (a.property "key")).name? = some k) (plain : (s.configs.get c).Plain k)
      (scalar : i.parsers.get? a'.kind = some .scalar) (name : a'.name = a.name)
      (value : a'.property "value" = (s.configs.get c).get k (a.property "default"))
  | identifier {own : Option (Ref Config)} {id : String}
      (parser : i.parsers.get? a.kind = some (.dependency own) ∨
        i.parsers.get? a.kind = some (.call own)) (reads : i.Reads own c)
      (key : a.property "id" = .text id) (delimited : isConfigKey id = true)
      (plain : (s.configs.get c).Plain (configKeyOf id))
      (kind : a'.kind = a.kind) (name : a'.name = a.name)
      (identifies :
        s.Identifies ((s.configs.get c).get (configKeyOf id) .null) (a'.property "id"))
      (rest : ∀ p, p ≠ "id" → a'.property p = a.property p)

end Store

section Lookups

variable {s t u : Store} {c : Ref Config} {i : Injector} {a a' : Argument} {k : String}
  {v : Value} {own : Option (Ref Config)} {r : Ref Injector}

/-- An object with a part is as good as that part. -/
theorem Store.content_of_part {id : Nat} (h : (s.objects[id]?).bind Object.part = some v) :
    s.content (.object id) = s.current v := by
  simp only [content, h]

/-- An object keeps its part. -/
theorem Store.Grows.part (h : s.Grows t) {id : Nat}
    (hpart : (s.objects[id]?).bind Object.part = some v) :
    (t.objects[id]?).bind Object.part = some v := by
  obtain ⟨o, ho, hv⟩ := Option.bind_eq_some_iff.mp hpart
  obtain ⟨o', ho', hkept⟩ := h.object ho
  rw [ho', ← hv]
  exact (Prod.mk.inj hkept).2

/-- A value with a name is a text that is not empty. -/
theorem Value.eq_text (h : v.name? = some k) : v = .text k ∧ k ≠ "" := by
  cases v with
  | text x =>
    have hname : (if x = "" then none else some x) = some k := h
    obtain ⟨hne, hsome⟩ := Option.ite_none_left_eq_some.mp hname
    cases hsome
    exact ⟨rfl, hne⟩
  | _ => cases h

/-- A key is a text, or an object that is as good as one. -/
theorem Store.eq_text_or_object (h : (s.content v).name? = some k) :
    v = .text k ∨ ∃ id, v = .object id ∧ (s.objects[id]?).bind Object.part = some (.text k) := by
  cases v with
  | object id =>
    refine .inr ⟨id, rfl, ?_⟩
    cases hpart : (s.objects[id]?).bind Object.part with
    | none =>
      simp only [content, hpart] at h
      cases h
    | some part =>
      rw [content_of_part hpart] at h
      have hcurrent := (Value.eq_text h).1
      rw [current_flat s (isFlat_of_current (by rw [hcurrent]; rfl))] at hcurrent
      rw [hcurrent]
  | _ => exact .inl (Value.eq_text h).1

/-- A key looks as it is, and counts as true. -/
theorem Store.current_key (h : (s.content v).name? = some k) :
    s.current v = v ∧ v.truthy = true := by
  obtain rfl | ⟨id, rfl, -⟩ := eq_text_or_object h
  · exact ⟨current_flat s rfl, by simpa [Value.truthy] using (Value.eq_text h).2⟩
  · exact ⟨current_flat s rfl, rfl⟩

/-- A key stays the same. -/
theorem Store.Grows.key (hg : s.Grows t) (h : (s.content v).name? = some k) :
    (t.content v).name? = some k := by
  obtain rfl | ⟨id, rfl, hpart⟩ := eq_text_or_object h
  · exact h
  · rw [content_of_part hpart] at h
    rw [content_of_part (hg.part hpart)]
    exact h

/-- A property of an argument looks as it is now. -/
theorem Store.argument_property (s : Store) (x : Ref Argument) (p : String) :
    (s.argument x).property p = s.current ((s.arguments.get x).property p) := by
  have hlookup : ∀ l : List (Value × Value),
      Value.lookup (.text p) (l.map fun e => (e.1, s.current e.2))
        = (Value.lookup (.text p) l).map s.current := by
    intro l
    induction l with
    | nil => rfl
    | cons e rest ih =>
      rw [List.map_cons, Value.lookup, Value.lookup]
      split
      · rfl
      · exact ih
  show (Value.lookup _ _).getD .null = s.current ((Value.lookup _ _).getD .null)
  show (Value.lookup _ ((s.arguments.get x).properties.map _)).getD .null = _
  rw [hlookup]
  cases Value.lookup (.text p) (s.arguments.get x).properties with
  | none => exact (current_flat s rfl).symm
  | some v => rfl

/-- What is no object, and neither a collection nor a component, has one text. -/
theorem Store.displays_of_isFlat (s : Store) (hflat : v.isFlat = true)
    (hobject : ∀ id, v ≠ .object id) : s.Displays v v.display := by
  intro t _
  rw [current_flat t hflat]
  cases v with
  | object id => exact absurd rfl (hobject id)
  | _ => rfl

/-- An identifier is a text or nothing. -/
theorem Store.Identifies.isFlat {w : Value} (h : s.Identifies v w) : w.isFlat = true := by
  cases h <;> rfl

/-- A value goes on to stand for its identifier. -/
theorem Store.Identifies.grown {w : Value} (hg : s.Grows t) (h : s.Identifies v w) :
    t.Identifies v w := by
  cases h with
  | none => exact .none
  | text value displays plain => exact .text value (fun u hu => displays u (hg.trans hu)) plain

/-- What is looked up stays the same. -/
theorem Store.Inlines.grown (hc : s.configs.Holds c) (hg : s.Grows t) (h : s.Inlines i c a a') :
    t.Inlines i c a a' := by
  have hconfig := hg.configs.get hc
  cases h with
  | value parser reads key plain scalar name value =>
    rw [← hconfig] at plain value
    exact .value parser reads (hg.key key) plain scalar name value
  | identifier parser reads key delimited plain kind name identifies rest =>
    rw [← hconfig] at plain
    rw [← hconfig] at identifies
    exact .identifier parser reads key delimited plain kind name (identifies.grown hg) rest

end Lookups

/-! ### Arguments in one store -/

section Values

variable {s : Store} {c : Ref Config} {a a' : Argument} {k : String} {v w : Value}
  {own : Option (Ref Config)} {r : Ref Injector} {answer : Answering} {b : Exclusions}

/-- Where no section stands, the value itself is given, and nothing changes. -/
theorem run_configValue_of_plain {key : Value} (hkey : (s.content key).name? = some k)
    (hplain : (s.configs.get c).Plain k) (default : Value) :
    (configValue c key (s.current default)).run s
      = (.ok (s.current ((s.configs.get c).get k default)), s) := by
  rw [run_configValue _ hkey]
  unfold Config.Plain at hplain
  unfold Config.get
  cases hnode : (s.configs.get c).node? k with
  | none => rfl
  | some n =>
    cases n with
    | leaf v => rfl
    | «section» entries =>
      rw [hnode] at hplain
      cases hplain

/-- A configuration argument has the value under its key. -/
theorem run_configArgument (hreads : (s.injectors.get r).Reads own c) {cell : Ref Argument}
    (hkey : (s.content ((s.arguments.get cell).property "key")).name? = some k)
    (hplain : (s.configs.get c).Plain k) :
    (configArgument r own (s.argument cell)).run s
      = (.ok (s.current ((s.configs.get c).get k ((s.arguments.get cell).property "default"))),
        s) := by
  obtain ⟨hcurrent, htruthy⟩ := current_key hkey
  unfold configArgument
  dsimp only
  rw [argument_property, argument_property, hcurrent, htruthy]
  refine (run_bind_ok (run_configFor s r own)).trans ?_
  rw [hreads]
  exact run_configValue_of_plain hkey hplain _

/-- The key between percent signs is not empty. -/
theorem configKeyOf_ne_empty {id : String} (h : isConfigKey id = true) :
    id ≠ "" ∧ configKeyOf id ≠ "" := by
  unfold isConfigKey at h
  simp only [Bool.and_eq_true, decide_eq_true_eq] at h
  have hlength : 3 ≤ id.toList.length := by
    rw [String.length_toList]
    exact h.1.1
  refine ⟨?_, fun hempty => ?_⟩
  · rintro rfl
    cases hlength
  · have hnil : (id.toList.drop 1).dropLast = [] := by
      simpa [configKeyOf] using hempty
    have hzero := congrArg List.length hnil
    rw [List.length_dropLast, List.length_drop, List.length_nil] at hzero
    omega

/-- The identifier that the value under a key stands for. -/
def identifierOf (found : Value) : Action Value := do
  match found with
  | .null => pure .null
  | found => do pure (.text ((← get).content found).display)

/-- An identifier between percent signs requests what the value under its key stands for. -/
theorem requestedIdentifier_key {id : String} (h : isConfigKey id = true) :
    requestedIdentifier (.text id) (some c)
      = configValue c (.text (configKeyOf id)) .null >>= identifierOf := by
  have htruthy : (Value.text id).truthy = true := by
    simpa [Value.truthy] using (configKeyOf_ne_empty h).1
  unfold requestedIdentifier
  simp only [htruthy, h]
  rfl

/-- A value stands for its identifier now. -/
theorem run_identifierOf (h : s.Identifies v w) :
    (identifierOf (s.current v)).run s = (.ok w, s) := by
  cases h with
  | none =>
    rw [current_flat s rfl]
    rfl
  | @text _ text hvalue hdisplays hplain =>
    have hne : s.current v ≠ .null := fun hnull => by
      have hflat : v.isFlat = true := isFlat_of_current (by rw [hnull]; rfl)
      rw [current_flat s hflat] at hnull
      exact hvalue hnull
    rw [← hdisplays s (.refl s)]
    generalize s.current v = found at hne
    cases found with
    | null => exact absurd rfl hne
    | _ => rfl

theorem run_argumentIdentifier_of_key {id : String} (hreads : (s.injectors.get r).Reads own c)
    (hkey : a.property "id" = .text id) (hid : isConfigKey id = true)
    (hplain : (s.configs.get c).Plain (configKeyOf id))
    (h : s.Identifies ((s.configs.get c).get (configKeyOf id) .null) w) :
    (argumentIdentifier r own a).run s = (.ok w, s) := by
  have hname : (s.content (.text (configKeyOf id))).name? = some (configKeyOf id) := by
    simpa [content, Value.name?] using (configKeyOf_ne_empty hid).2
  have hvalue := run_configValue_of_plain hname hplain .null
  rw [current_flat s rfl] at hvalue
  unfold argumentIdentifier
  rw [run_bind_ok (run_configFor s r own), hreads, hkey, requestedIdentifier_key hid,
    run_bind_ok hvalue]
  exact run_identifierOf h

/-- An identifier that a value stands for is requested as it is, unless it is empty. -/
theorem run_argumentIdentifier_of_identifies (h : s.Identifies v w) (hid : a.property "id" = w) :
    (argumentIdentifier r own a).run s = (.ok (if w.truthy then w else .null), s) := by
  unfold argumentIdentifier
  rw [run_bind_ok (run_configFor s r own), hid]
  unfold requestedIdentifier
  cases h with
  | none => rfl
  | @text _ text hvalue hdisplays hplain =>
    cases htruthy : (Value.text text).truthy with
    | false => rfl
    | true =>
      simp only [hplain]
      rfl

/-- An identifier that is held requests what one that is looked up requests. -/
theorem run_argumentRequest_of_identifies {id : String}
    (hreads : (s.injectors.get r).Reads own c) (hkey : a.property "id" = .text id)
    (hid : isConfigKey id = true) (hplain : (s.configs.get c).Plain (configKeyOf id))
    (h : s.Identifies ((s.configs.get c).get (configKeyOf id) .null) (a'.property "id"))
    (interface : Value) :
    (argumentRequest answer r own a' b interface).run s
      = (argumentRequest answer r own a b interface).run s := by
  unfold argumentRequest
  rw [run_bind_ok (run_argumentIdentifier_of_key hreads hkey hid hplain h),
    run_bind_ok (run_argumentIdentifier_of_identifies h rfl)]
  unfold dependency
  cases htruthy : (a'.property "id").truthy with
  | true => rw [if_pos rfl, htruthy]
  | false => rfl

/-- What a call does with the object that it is for. -/
def calledOn (answer : Answering) (a : Argument) (method target : Value) : Action Value := do
  match method with
  | .text m =>
    let s ← get
    let owner := s.program.shortName (s.classOf target)
    runAttribute answer a owner m (← valueAttribute target m)
  | _ => Work.foreign .type

theorem objectCall_eq : objectCall answer r own a b
    = methodName a >>= fun method =>
        argumentRequest answer r own a b (a.property "interface") >>= calledOn answer a method := by
  unfold objectCall argumentRequest
  refine bind_congr fun method => ?_
  rw [bind_assoc]
  rfl

/-- Two arguments with one name and the same properties, except for their identifiers, with which
they request the same. -/
structure SameRequest (answer : Answering) (r : Ref Injector) (own : Option (Ref Config))
    (b : Exclusions) (s : Store) (a a' : Argument) : Prop where
  name : a'.name = a.name
  rest : ∀ p, p ≠ "id" → a'.property p = a.property p
  request : ∀ interface, (argumentRequest answer r own a' b interface).run s
    = (argumentRequest answer r own a b interface).run s

namespace SameRequest

variable (h : SameRequest answer r own b s a a')

include h

theorem run_dependencyValue :
    (dependencyValue answer r own a' b).run s = (dependencyValue answer r own a b).run s := by
  rw [dependencyValue_eq, dependencyValue_eq, h.rest "interface" (by decide), h.name]
  split
  · exact h.request _
  · rfl

theorem methodName_eq : methodName a' = methodName a := by
  unfold methodName
  rw [h.rest "method" (by decide), h.name]

theorem runAttribute_eq (owner method : String) (found : Attribute) :
    runAttribute answer a' owner method found = runAttribute answer a owner method found := by
  unfold runAttribute
  rw [h.name]

theorem run_objectCall :
    (objectCall answer r own a' b).run s = (objectCall answer r own a b).run s := by
  have hcalled : calledOn answer a' = calledOn answer a := by
    funext method target
    unfold calledOn
    simp only [h.runAttribute_eq]
  -- The name of the method is found without a change.
  have hmethod : ∃ x, (methodName a).run s = (x, s) := by
    unfold methodName
    dsimp only
    cases (a.property "method").truthy <;> exact ⟨_, rfl⟩
  obtain ⟨x, hx⟩ := hmethod
  rw [objectCall_eq, objectCall_eq, h.methodName_eq, hcalled, h.rest "interface" (by decide),
    run_bind, run_bind, hx]
  cases x with
  | error e => rfl
  | ok method =>
    dsimp only
    rw [run_bind, run_bind, h.request]

theorem run_callValue :
    (callValue answer r own a' b).run s = (callValue answer r own a b).run s := by
  have hclass : classCall answer r a' = classCall answer r a := by
    unfold classCall
    simp only [h.runAttribute_eq, h.methodName_eq, h.rest "class" (by decide)]
  unfold callValue
  dsimp only
  rw [hclass, h.rest "interface" (by decide), h.rest "class" (by decide),
    h.rest "function" (by decide), h.name]
  split
  · exact h.run_objectCall
  · rfl

end SameRequest

/-- An argument that holds what another one looks up has the same value. -/
theorem run_argumentValue_inlined {cell cell' : Ref Argument}
    (h : s.Inlines (s.injectors.get r) c (s.arguments.get cell) (s.arguments.get cell')) :
    (argumentValue answer r cell' b).run s = (argumentValue answer r cell b).run s := by
  cases h with
  | value parser reads key plain scalar name value =>
    rw [run_argumentValue_by scalar, run_argumentValue_by parser, valueBy, valueBy,
      run_configArgument reads key plain, argument_property, value, run_pure]
  | identifier parser reads key delimited plain kind name identifies rest =>
    have hsame : ∀ {own : Option (Ref Config)}, (s.injectors.get r).Reads own c →
        SameRequest answer r own b s (s.argument cell) (s.argument cell') := fun hreads => by
      refine ⟨name, fun p hp => ?_, run_argumentRequest_of_identifies hreads ?_ delimited plain ?_⟩
      · rw [argument_property, argument_property, rest p hp]
      · rw [argument_property, key]
        exact current_flat s rfl
      · rw [argument_property, current_flat s identifies.isFlat]
        exact identifies
    rcases parser with hdependency | hcall
    · rw [run_argumentValue_by hdependency, run_argumentValue_by (kind ▸ hdependency)]
      exact (hsame reads).run_dependencyValue
    · rw [run_argumentValue_by hcall, run_argumentValue_by (kind ▸ hcall)]
      exact (hsame reads).run_callValue

end Values

/-! ### Inlined definitions -/

/-- Two arguments are the same, or one of them holds what the other one looks up. -/
def Store.Exchanges (s : Store) (i : Injector) (c : Ref Config) (a a' : Argument) : Prop :=
  a' = a ∨ s.Inlines i c a a' ∨ s.Inlines i c a' a

/-- Two definitions of one class with one identifier. Their arguments are the same, except that some
in the one hold what those in the other look up. -/
structure Definition.Inlined (s : Store) (i : Injector) (c : Ref Config) (x y : Definition) :
    Prop where
  className : y.className = x.className
  identifier : y.identifier = x.identifier
  constructor : List.Forall₂ (s.Exchanges i c) x.constructorArguments y.constructorArguments
  calls : List.Forall₂ (fun q q' => q'.method = q.method ∧
    List.Forall₂ (s.Exchanges i c) q.arguments q'.arguments) x.callList y.callList

/-- Two injectors that differ in their containers only. These hold definitions under the same keys,
of which each two are the same but for arguments that hold what others look up. -/
structure Store.Inlined (s : Store) (c : Ref Config) (r r' : Ref Injector)
    (pairs : Container (Definition × Definition)) : Prop where
  config : s.configs.Holds c
  held : s.injectors.Holds r
  held' : s.injectors.Holds r'
  alike : (s.injectors.get r).Alike (s.injectors.get r')
  carries : s.Carries (s.injectors.get r).container (pairs.map Prod.fst)
  carries' : s.Carries (s.injectors.get r').container (pairs.map Prod.snd)
  inlined : ∀ e ∈ pairs.entries, Definition.Inlined s (s.injectors.get r') c e.2.1 e.2.2

section Inlined

variable {s₀ s : Store} {c : Ref Config} {r r' : Ref Injector} {answer answer' : Answering}
  {b : Exclusions} {O : List DefinitionKey} {cell cell' : Ref Argument}
  {cells cells' : List (Ref Argument)} {d d' : Ref DefinitionCell} {k : DefinitionKey}
  {interface : String} {pairs : Container (Definition × Definition)} {i : Injector}

theorem Store.Inlines.name {a a' : Argument} (h : s.Inlines i c a a') : a'.name = a.name := by
  cases h <;> assumption

/-- A cell that holds what another one looks up is a peer of it from then on. -/
theorem Store.Inlines.peers (hc : s₀.configs.Holds c) (hr : s₀.injectors.Holds r)
    (hcell : s₀.arguments.Holds cell) (hcell' : s₀.arguments.Holds cell')
    (h : s₀.Inlines (s₀.injectors.get r) c (s₀.arguments.get cell) (s₀.arguments.get cell')) :
    ArgumentPeers s₀.Grows answer r b cell cell' where
  name s hs := by
    rw [hs.arguments.get hcell, hs.arguments.get hcell', h.name]
  value s hs j := by
    have hg : s₀.Grows (s.withJournal j) := { hs with }
    refine run_argumentValue_inlined (c := c) ?_
    rw [hg.injectors.get hr, hg.arguments.get hcell, hg.arguments.get hcell']
    exact h.grown hc hg

theorem Store.Exchanges.peers (hc : s₀.configs.Holds c) (hr : s₀.injectors.Holds r)
    (hcell : s₀.arguments.Holds cell) (hcell' : s₀.arguments.Holds cell')
    (h : s₀.Exchanges (s₀.injectors.get r) c (s₀.arguments.get cell) (s₀.arguments.get cell')) :
    ArgumentPeers s₀.Grows answer r b cell cell' := by
  rcases h with hsame | h | h
  · refine ArgumentTwins.peers (fun s hs => ?_) answer r b
    unfold Store.argument
    rw [hs.arguments.get hcell, hs.arguments.get hcell', hsame]
  · exact h.peers hc hr hcell hcell'
  · exact (h.peers hc hr hcell' hcell).symm

theorem forall₂_exchanges (hc : s₀.configs.Holds c) (hr : s₀.injectors.Holds r)
    (hcells : ∀ a ∈ cells, s₀.arguments.Holds a) (hcells' : ∀ a ∈ cells', s₀.arguments.Holds a)
    (h : List.Forall₂ (s₀.Exchanges (s₀.injectors.get r) c) (cells.map s₀.arguments.get)
      (cells'.map s₀.arguments.get)) :
    List.Forall₂ (ArgumentPeers s₀.Grows answer r b) cells cells' := by
  rw [List.forall₂_map_left_iff, List.forall₂_map_right_iff] at h
  have hboth := (List.forall₂_and_left _ _).mpr
    ⟨hcells', ((List.forall₂_and_left _ _).mpr ⟨hcells, h⟩).flip⟩
  exact hboth.flip.imp fun _ _ ⟨hcell', hcell, hexchanges⟩ =>
    hexchanges.peers hc hr hcell hcell'

section Building

variable (hc : s₀.configs.Holds c) (hr : s₀.injectors.Holds r') (hd : s₀.Whole d)
  (hd' : s₀.Whole d')
  (h : Definition.Inlined s₀ (s₀.injectors.get r') c (s₀.held d) (s₀.held d'))

include hc hr hd hd' h

/-- Inlined definitions are constructed alike. -/
theorem conforms_constructDefined_inlined
    (ha : Conforming (.unnumbered True) s₀.Grows O b answer answer' r r')
    (given : List (String × Value)) :
    Conforms (.unnumbered True) s₀.Grows O O (constructDefined answer r b d given)
      (constructDefined answer' r' b d' given) := by
  rw [constructDefined_eq, constructDefined_eq]
  refine conforms_get_bind_of (fun _ _ => rfl)
    (fun s => conforms_constructFrom ha.disturbance (definitionTwins_refl d).names given
      (List.forall₂_same.mpr fun _ _ => argumentTwins_refl _))
    fun s hs => ?_
  obtain ⟨hcells, hheld, hargs⟩ := hd.constructorCells hs
  obtain ⟨hcells', hheld', hargs'⟩ := hd'.constructorCells hs
  have hexchanged := h.constructor
  rw [← hargs, ← hargs'] at hexchanged
  rw [hcells, hcells']
  exact conforms_constructFrom_of ha (definitionNames_of_held hd hd' h.className h.identifier) given
    (forall₂_exchanges hc hr hheld hheld' hexchanged)

/-- Inlined definitions are assembled alike. -/
theorem conforms_assemble_inlined
    (ha : Conforming (.unnumbered True) s₀.Grows (k :: O) (b.insert k) answer answer' r r')
    (hk : k = ⟨interface, (s₀.definitions.get d).identifier⟩) (given : Given) :
    Conforms (.unnumbered True) s₀.Grows (k :: O) O
      (assemble answer r interface d (b.insert k) given)
      (assemble answer' r' interface d' (b.insert k) given) := by
  have hnames := definitionNames_of_held hd hd' h.className h.identifier
  refine conforms_assemble_of (fun s hs => hs.definitions.get hd.definition) hk ha hnames given
    (conforms_constructDefined_inlined hc hr hd hd' h ha _) fun s object t _ _ _ _ ht =>
      ⟨s₀.Grows, inferInstance, ht, fun _ h => h, ?_⟩
  refine conforms_definedCalls_of ha hk hd hd' hnames object (fun _ _ hcall => hcall.1) h.calls
    fun q q' hq hq' hcall => conforms_runDefinedCall_of ha hnames object (fun u hu => ?_)
      fun _ _ callback _ _ _ u hu => ?_
  · rw [hu.calls.get hq.call, hu.calls.get hq'.call]
    exact hcall.1
  · rw [hu.calls.get hq.call, hu.calls.get hq'.call]
    exact conforms_callFrom_of ha callback
      (forall₂_exchanges hc hr hq.argument hq'.argument hcall.2)

end Building

/-- Injectors of which the one holds what the other one looks up answer alike at every depth. -/
theorem conforms_answer_inlined (h : s₀.Inlined c r r' pairs) (n : Nat) :
    ∀ {O : List DefinitionKey} (q : Request) (given : Given),
      Conforms (.unnumbered True) s₀.Grows O O (Store.answer n r q given)
        (Store.answer n r' q given) := by
  induction n with
  | zero => exact fun _ _ => conforms_foreign _
  | succ n ih =>
    intro O q given
    refine conforms_step (fun r q => disturbed_answer n r q none) (fun s hs _ => { hs with })
      (fun _ s key hs _ => ?_)
      (fun s key hs _ _ => h.carries.selected h.carries' h.held h.held'
        (fun e he => (h.inlined e he).identifier) hs q key)
      fun s key d d' hs _ _ hpair => ?_
    · rw [hs.injectors.get h.held, hs.injectors.get h.held', h.alike.instances]
    · obtain ⟨hd, hd', key', hentry⟩ := hpair
      have hinlined := h.inlined _ hentry
      have ha : ∀ {O : List DefinitionKey} {b : Exclusions},
          Conforming (.unnumbered True) s₀.Grows O b (Store.answer n) (Store.answer n) r r' :=
        ⟨fun s hs => by
          rw [hs.injectors.get h.held, hs.injectors.get h.held']
          exact h.alike.akin, fun q' _ => ih q' none⟩
      exact conforms_build_of (fun r q => disturbed_answer n r q none)
        (fun t ht => ht.definitions.get hd.definition) rfl
        (definitionNames_of_held hd hd' hinlined.className hinlined.identifier)
        (fun t ht _ => { ht with }) (fun t ht => { ht with }) ⟨rfl, rfl⟩ given
        (conforms_assemble_inlined h.config h.held' hd hd' hinlined ha rfl given)

theorem Store.Inlines.akin {i' : Injector} {a a' : Argument} (hi : i.Akin i')
    (h : s.Inlines i c a a') : s.Inlines i' c a a' := by
  have hreads : ∀ {own}, i.Reads own c → i'.Reads own c := fun {own} hown => by
    unfold Injector.Reads
    rw [hi.config]
    exact hown
  cases h with
  | value parser reads key plain scalar name value =>
    rw [← hi.parsers] at parser scalar
    exact .value parser (hreads reads) key plain scalar name value
  | identifier parser reads key delimited plain kind name identifies rest =>
    rw [← hi.parsers] at parser
    exact .identifier parser (hreads reads) key delimited plain kind name identifies rest

theorem Store.Exchanges.symm {i' : Injector} {a a' : Argument} (hi : i.Akin i')
    (h : s.Exchanges i c a a') : s.Exchanges i' c a' a := by
  rcases h with rfl | h | h
  · exact .inl rfl
  · exact .inr (.inr (h.akin hi))
  · exact .inr (.inl (h.akin hi))

theorem Definition.Inlined.symm {i' : Injector} {x y : Definition} (hi : i.Akin i')
    (h : Definition.Inlined s i c x y) : Definition.Inlined s i' c y x where
  className := h.className.symm
  identifier := h.identifier.symm
  constructor := h.constructor.flip.imp fun _ _ => Store.Exchanges.symm hi
  calls := h.calls.flip.imp fun _ _ ⟨hmethod, harguments⟩ =>
    ⟨hmethod.symm, harguments.flip.imp fun _ _ => Store.Exchanges.symm hi⟩

theorem Store.Inlined.symm (h : s.Inlined c r r' pairs) :
    s.Inlined c r' r (pairs.map Prod.swap) where
  config := h.config
  held := h.held'
  held' := h.held
  alike := ⟨h.alike.registry.symm, h.alike.config.symm, h.alike.parsers.symm,
    h.alike.instances.symm⟩
  carries := by
    rw [Container.map_map]
    exact h.carries'
  carries' := by
    rw [Container.map_map]
    exact h.carries
  inlined e he := by
    rw [Container.entries_map] at he
    obtain ⟨pair, hpair, rfl⟩ := List.mem_map.mp he
    exact (h.inlined pair hpair).symm
      ⟨h.alike.registry.symm, h.alike.config.symm, h.alike.parsers.symm⟩

/-- Two injectors answer each request alike if their containers hold the same definitions, except
that some arguments in the one hold what those in the other look up in a configuration: scalars hold
the values of keys under which no section stands, and dependencies and calls hold the identifiers.
Both succeed with the same object or fail with the same fault, and they leave the same store behind
up to the numbers of cells in the journal, as long as no member of a component is run. -/
theorem request_inlined (h : s.Inlined c r r' pairs) (q : Request) (given : Given)
    (expected : Option ClassRef) :
    (∀ x t, (request r q given expected).run s = (x, t) → Undisturbed t.journal →
      ∃ j, (request r' q given expected).run s = (x, t.withJournal j) ∧
        t.journal.map JournalEntry.unnumbered = j.map JournalEntry.unnumbered) ∧
    (∀ x t, (request r' q given expected).run s = (x, t) → Undisturbed t.journal →
      ∃ j, (request r q given expected).run s = (x, t.withJournal j) ∧
        t.journal.map JournalEntry.unnumbered = j.map JournalEntry.unnumbered) :=
  ⟨fun _ _ hrun hu => request_of_conforms { Grows.refl s with }
      (conforms_answer_inlined h s.depth q given) hrun hu (.inl trivial),
    fun _ _ hrun hu => request_of_conforms { Grows.refl s with }
      (conforms_answer_inlined h.symm s.depth q given) hrun hu (.inl trivial)⟩

end Inlined

/-! ### What a section comes to -/

/-- An argument that looks its value up, and one that holds it. -/
def Argument.lookup (name key : String) : Argument := ⟨name, "config", [(.text "key", .text key)]⟩

def Argument.holding (name : String) (v : Value) : Argument :=
  ⟨name, "scalar", [(.text "value", v)]⟩

/-- A dependency with an identifier. -/
def Argument.named (name interface id : String) : Argument :=
  ⟨name, "dependency", [(.text "interface", .text interface), (.text "id", .text id)]⟩

/-- Without its identifier, the dependency is one on an interface. -/
theorem Argument.property_named (name interface id : String) {p : String} (h : p ≠ "id") :
    (named name interface id).property p = (dependency name interface).property p := by
  have hid : Value.sameScalar (.text "id") (.text p) = false := by
    simp [Value.sameScalar, Ne.symm h]
  unfold property property? named dependency
  simp only [Value.lookup, hid]
  rfl

/-- What clears takes a section with an object in it, a pair takes two of that kind, and a reader
takes the text of one of its own arguments. -/
def sectionStore : Store :=
  { spellingStore none with
    objects := [⟨.declared 1, [("copied", .null)], [], none⟩]
    configs := ⟨[⟨[("s", .section [("o", .leaf (.object 0))]), ("pick", .leaf (.text "fast"))]⟩]⟩
    arguments := ⟨[.lookup "cleared" "s", .named "item" "Clearing" "%pick%",
      .dependency "y" "Clearing", ⟨"arguments", "call",
        [(.text "interface", .text "D"), (.text "method", .text "__str__")]⟩]⟩
    calls := ⟨[⟨"__construct", none, [⟨0⟩]⟩, ⟨"__construct", none, [⟨2⟩]⟩,
      ⟨"__construct", none, [⟨1⟩, ⟨3⟩]⟩]⟩
    definitions := ⟨[⟨"Clearing", none, [], some ⟨0⟩, .empty⟩,
      ⟨"Clearing", some "fast", [], none, .empty⟩, ⟨"Pair", none, [], some ⟨1⟩, .empty⟩,
      ⟨"Reader", none, [], some ⟨2⟩, .empty⟩]⟩
    containers := ⟨[(((Container.empty.addOne "Clearing" none ⟨0⟩).addOne "Clearing" (some "fast")
      ⟨1⟩).addOne "Pair" none ⟨2⟩).addOne "Reader" none ⟨3⟩]⟩
    injectors := ⟨[⟨⟨0⟩, ⟨0⟩, some ⟨0⟩, Parser.standard,
      OrderedMap.ofList [(⟨"D", none⟩, (Component.mk .argument 1).value)]⟩]⟩ }

/-- The store after the section was looked up once, for the argument that takes it, and with the
identifier in the place of its key. -/
def heldSectionStore : Store :=
  match (configValue ⟨0⟩ (.text "s") .null).run sectionStore with
  | (.ok v, t) => { t with
      arguments := ⟨[.holding "cleared" v, .named "item" "Clearing" "fast"] ++
        t.arguments.items.drop 2⟩ }
  | (.error _, t) => t

/-- The objects in the mappings that the objects of a store took under a name. -/
def Store.objectsTaken (s : Store) (name : String) : List Nat :=
  s.objects.flatMap fun o => match (o.init.lookup name).map s.current with
    | some (.map _ entries) => entries.filterMap fun e => match e.2 with
      | .object id => some id
      | _ => none
    | _ => []

/-- Two objects that look up a section take two copies of what is in it, and take the same if an
argument holds the section. A member of a component shows whether an identifier is looked up. -/
theorem sectionStore_differs :
    let outcome := fun s interface =>
      (request ⟨0⟩ (.plain (.text interface) .null) none none).run s
    ((outcome sectionStore "Pair").1.isOk = true ∧
      Undisturbed (outcome sectionStore "Pair").2.journal ∧
      ((outcome sectionStore "Pair").2.objectsTaken "cleared").Nodup ∧
      (outcome heldSectionStore "Pair").1.isOk = true ∧
      Undisturbed (outcome heldSectionStore "Pair").2.journal ∧
      ¬ ((outcome heldSectionStore "Pair").2.objectsTaken "cleared").Nodup) ∧
    ((outcome sectionStore "Reader").1.isOk = true ∧
      (outcome heldSectionStore "Reader").1.isOk = true ∧
      (outcome sectionStore "Reader").2.took "arguments"
        ≠ (outcome heldSectionStore "Reader").2.took "arguments") := by
  decide +kernel

/-- Two injectors over the classes of the program. In the container of the first one, what clears
looks up what it takes, and the reader looks up which of these it wants, what it takes besides and
which page it turns to, of which there is none. In the other container they hold all this. -/
def inliningStore : Store :=
  let pages := fun clearing reader : Ref DefinitionCell =>
    ((Container.empty.addOne "Clearing" none clearing).addOne "Clearing" (some "fast")
      ⟨1⟩).addOne "Reader" none reader
  { spellingStore none with
    configs := ⟨[⟨[("a", .section [("b", .leaf (.int 3))]), ("pick", .leaf (.text "fast"))]⟩]⟩
    arguments := ⟨[.lookup "cleared" "a.b", .named "item" "Clearing" "%pick%",
      ⟨"arguments", "parameter", [(.text "key", .text "gone"), (.text "default", .int 5)]⟩,
      .named "page" "Clearing" "%gone%", .holding "cleared" (.int 3),
      .named "item" "Clearing" "fast", .holding "arguments" (.int 5),
      .dependency "page" "Clearing"]⟩
    calls := ⟨[⟨"__construct", none, [⟨0⟩]⟩, ⟨"__construct", none, [⟨1⟩, ⟨2⟩]⟩,
      ⟨"turn", none, [⟨3⟩]⟩, ⟨"__construct", none, [⟨4⟩]⟩, ⟨"__construct", none, [⟨5⟩, ⟨6⟩]⟩,
      ⟨"turn", none, [⟨7⟩]⟩]⟩
    definitions := ⟨[⟨"Clearing", none, [], some ⟨0⟩, .empty⟩,
      ⟨"Clearing", some "fast", [], none, .empty⟩,
      ⟨"Reader", none, [], some ⟨1⟩, OrderedMap.ofList [("c0", ⟨2⟩)]⟩,
      ⟨"Clearing", none, [], some ⟨3⟩, .empty⟩,
      ⟨"Reader", none, [], some ⟨4⟩, OrderedMap.ofList [("c0", ⟨5⟩)]⟩]⟩
    containers := ⟨[pages ⟨0⟩ ⟨2⟩, pages ⟨3⟩ ⟨4⟩]⟩
    injectors := ⟨[⟨⟨0⟩, ⟨0⟩, some ⟨0⟩, Parser.standard, .empty⟩,
      ⟨⟨1⟩, ⟨0⟩, some ⟨0⟩, Parser.standard, .empty⟩]⟩ }

/-- What the two containers of the store hold, side by side. -/
def inliningContainer : Container (Definition × Definition) :=
  let both := fun d d' : Ref DefinitionCell => (inliningStore.held d, inliningStore.held d')
  ((Container.empty.addOne "Clearing" none (both ⟨0⟩ ⟨3⟩)).addOne "Clearing" (some "fast")
    (both ⟨1⟩ ⟨1⟩)).addOne "Reader" none (both ⟨2⟩ ⟨4⟩)

theorem inliningStore_inlined : inliningStore.Inlined ⟨0⟩ ⟨0⟩ ⟨1⟩ inliningContainer := by
  have hwhole : ∀ d, inliningStore.definitions.Holds d → inliningStore.Whole d := fun d hd => by
    have hbound : ∀ i < 5, ∀ q ∈ (inliningStore.definitions.get ⟨i⟩).parts,
        q.index < 6 ∧ ∀ a ∈ (inliningStore.calls.get q).arguments, a.index < 8 := by
      decide +kernel
    exact ⟨hd, fun q hq => ⟨(hbound d.index hd q hq).1, (hbound d.index hd q hq).2⟩⟩
  have hentries : ∀ k < 2, ∀ e ∈ (inliningStore.containers.get ⟨k⟩).entries, e.2.index < 5 := by
    decide +kernel
  have hreads : (inliningStore.injectors.get ⟨1⟩).Reads none ⟨0⟩ := by
    unfold Injector.Reads
    rfl
  have hplain : ∀ k ∈ ["a.b", "pick", "gone"],
      ((inliningStore.configs.get ⟨0⟩).node? k |> ConfigEntries.ofNode?).isNone = true := by
    decide +kernel
  have hplain : ∀ k ∈ ["a.b", "pick", "gone"], (inliningStore.configs.get ⟨0⟩).Plain k :=
    fun k hk => Option.isNone_iff_eq_none.mp (hplain k hk)
  have hfast : inliningStore.Identifies (.text "fast") (.text "fast") :=
    .text nofun (displays_of_isFlat _ rfl nofun) (by decide)
  have hclears : inliningStore.Exchanges (inliningStore.injectors.get ⟨1⟩) ⟨0⟩
      (.lookup "cleared" "a.b") (.holding "cleared" (.int 3)) :=
    .inr (.inl (.value rfl hreads rfl (hplain "a.b" (by decide)) rfl rfl rfl))
  have hitem : inliningStore.Exchanges (inliningStore.injectors.get ⟨1⟩) ⟨0⟩
      (.named "item" "Clearing" "%pick%") (.named "item" "Clearing" "fast") :=
    .inr (.inl (.identifier (.inl rfl) hreads rfl (by decide) (hplain "pick" (by decide)) rfl rfl
      hfast fun p hp => (Argument.property_named _ _ _ hp).trans
        (Argument.property_named _ _ _ hp).symm))
  have harguments : inliningStore.Exchanges (inliningStore.injectors.get ⟨1⟩) ⟨0⟩
      ⟨"arguments", "parameter", [(.text "key", .text "gone"), (.text "default", .int 5)]⟩
      (.holding "arguments" (.int 5)) :=
    .inr (.inl (.value rfl hreads rfl (hplain "gone" (by decide)) rfl rfl rfl))
  have hpage : inliningStore.Exchanges (inliningStore.injectors.get ⟨1⟩) ⟨0⟩
      (.named "page" "Clearing" "%gone%") (.dependency "page" "Clearing") :=
    .inr (.inl (.identifier (.inl rfl) hreads rfl (by decide) (hplain "gone" (by decide)) rfl rfl
      .none fun p hp => (Argument.property_named _ _ _ hp).symm))
  refine ⟨Nat.zero_lt_one, Nat.zero_lt_two, Nat.one_lt_two, ⟨rfl, rfl, rfl, rfl⟩,
    ⟨Nat.zero_lt_two, fun e he => hwhole e.2 (hentries 0 Nat.zero_lt_two e he), by rfl⟩,
    ⟨Nat.one_lt_two, fun e he => hwhole e.2 (hentries 1 Nat.one_lt_two e he), by rfl⟩,
    fun e he => ?_⟩
  -- The reader with its call, then what is the same in both containers, then what clears.
  obtain rfl | he := Container.mem_entries_addOne he
  · exact ⟨rfl, rfl, .cons hitem (.cons harguments .nil), .cons ⟨rfl, .cons hpage .nil⟩ .nil⟩
  obtain rfl | he := Container.mem_entries_addOne he
  · exact ⟨rfl, rfl, .nil, .nil⟩
  obtain rfl | he := Container.mem_entries_addOne he
  · exact ⟨rfl, rfl, .cons hclears .nil, .nil⟩
  · cases he

/-- The reader is made over both injectors. It takes the default of a key that is not there. -/
theorem request_inlined_reader :
    let outcome := fun r : Ref Injector =>
      (request r (.plain (.text "Reader") .null) none none).run inliningStore
    inliningStore.Inlined ⟨0⟩ ⟨0⟩ ⟨1⟩ inliningContainer ∧
      ∃ v, (outcome ⟨0⟩).1 = .ok v ∧ Undisturbed (outcome ⟨0⟩).2.journal ∧
        (outcome ⟨0⟩).2.took "arguments" = some "5" ∧
        ∃ j, outcome ⟨1⟩ = (.ok v, (outcome ⟨0⟩).2.withJournal j) := by
  intro outcome
  have hreader := request_inlined inliningStore_inlined (.plain (.text "Reader") .null) none none
  have hmade : (outcome ⟨0⟩).1.isOk = true := by decide +kernel
  have hcalm : Undisturbed (outcome ⟨0⟩).2.journal := by decide +kernel
  have htook : (outcome ⟨0⟩).2.took "arguments" = some "5" := by decide +kernel
  refine ⟨inliningStore_inlined, ?_⟩
  cases hrun : outcome ⟨0⟩ with
  | mk x t =>
    rw [hrun] at hmade hcalm htook
    cases x with
    | error e => cases hmade
    | ok v =>
      obtain ⟨j, hj, -⟩ := hreader.1 (.ok v) t hrun hcalm
      exact ⟨v, rfl, hcalm, htook, j, hj⟩

end Wiring
