import Wiring.Catalogue
import Wiring.Proofs.Containers
import Wiring.Proofs.Work

/-!
# `Wiring.Proofs.WellFormed`: what declarations and containers always satisfy

The constructors and the setters refuse empty names, drop repeated interfaces, and keep every call
under its own identifier. `DefinitionOf.WellFormed` collects what follows of a whole definition, and
`Container.WellFormed` adds that every definition stands under its own identifier. Nothing of this
speaks about properties of arguments, so changing these keeps it (`Container.wellFormed_map`).
-/

set_option autoImplicit false

namespace Wiring

/-- The argument has a name and a kind. -/
structure Argument.WellFormed (a : Argument) : Prop where
  name_ne : a.name ≠ ""
  kind_ne : a.kind ≠ ""

/-- The call and its arguments have names, and the identifier is not empty. -/
structure CallOf.WellFormed (c : Call) : Prop where
  method_ne : c.method ≠ ""
  identifier_ne : c.identifier ≠ some ""
  arguments : ∀ a ∈ c.arguments, a.WellFormed

/-- The definition could have been declared: no name is empty, no interface is repeated, the
arguments of the constructor are those of a constructor call, and every other call stands under its
own identifier. -/
structure DefinitionOf.WellFormed (d : Definition) : Prop where
  className_ne : d.className ≠ ""
  identifier_ne : d.identifier ≠ some ""
  interfaces_ne : "" ∉ d.interfaces
  interfaces_nodup : d.interfaces.Nodup
  constructor_call : ∀ c, d.constructor = some c →
    c.isConstructor = true ∧ CallOf.WellFormed c
  call : ∀ e ∈ d.calls.entries,
    e.2.identifier = some e.1 ∧ e.2.isConstructor = false ∧ CallOf.WellFormed e.2

/-- Every definition of the container could have been declared, and stands under its own
identifier. -/
structure Container.WellFormed (c : Container Definition) : Prop where
  filled : c.Filled
  entry : ∀ e ∈ c.entries,
    e.1.interface ≠ "" ∧ e.2.identifier = e.1.identifier ∧ DefinitionOf.WellFormed e.2

/-! ### Names -/

/-- A text that is not empty is a name. -/
theorem Value.name?_text {s : String} (h : s ≠ "") : (Value.text s).name? = some s := if_neg h

/-- A name is not empty. -/
theorem Value.ne_of_name? {v : Value} {s : String} (h : v.name? = some s) : s ≠ "" := by
  cases v with
  | text t =>
    by_cases ht : t = ""
    · simp [Value.name?, ht] at h
    · simp only [Value.name?, if_neg ht, Option.some.injEq] at h
      exact h ▸ ht
  | _ => simp [Value.name?] at h

/-- Only a text is a name. -/
theorem Value.eq_text_of_name? {v : Value} {s : String} (h : v.name? = some s) : v = .text s := by
  cases v with
  | text t =>
    by_cases ht : t = ""
    · simp [Value.name?, ht] at h
    · rw [Value.name?_text ht] at h
      exact congrArg Value.text (Option.some.inj h)
  | _ => simp [Value.name?] at h

/-- An argument that is declared has names. -/
theorem Argument.wellFormed_of_declare {name kind : Value} {properties : List (Value × Value)}
    {a : Argument} (h : declare name kind properties = .ok a) : a.WellFormed := by
  unfold declare at h
  split at h
  · cases h
  · cases h
  · rename_i n k hn hk
    cases h
    exact ⟨Value.ne_of_name? hn, Value.ne_of_name? hk⟩

/-- A checked class is not empty. -/
theorem DefinitionOf.ne_of_checkClassName {v : Value} {n : String}
    (h : DefinitionOf.checkClassName v = .ok n) : n ≠ "" := by
  unfold DefinitionOf.checkClassName at h
  split at h
  · rename_i hn
    cases h
    exact Value.ne_of_name? hn
  · cases h

/-- A checked identifier is not empty. -/
theorem DefinitionOf.ne_of_checkIdentifier {owner : String} {v : Value} {i : Option String}
    (h : DefinitionOf.checkIdentifier owner v = .ok i) : i ≠ some "" := by
  unfold DefinitionOf.checkIdentifier at h
  split at h
  · cases h
    exact nofun
  · split at h
    · rename_i n hn
      cases h
      exact fun he => Value.ne_of_name? hn (Option.some.inj he)
    · cases h

/-- The interface that passes the check is not empty. -/
theorem Container.ne_of_checkInterface {v : Value} {n : String}
    (h : Container.checkInterface v = .ok n) : n ≠ "" := by
  unfold Container.checkInterface at h
  split at h
  · rename_i hn
    cases h
    exact Value.ne_of_name? hn
  · cases h

/-- The interfaces that pass the check are names, each once. -/
theorem DefinitionOf.checkNames_wellFormed {className : String} (vs : List Value) :
    ∀ {seen names : List String}, DefinitionOf.checkNames className seen vs = .ok names →
      "" ∉ seen → seen.Nodup → "" ∉ names ∧ names.Nodup := by
  induction vs with
  | nil =>
    intro seen names h hne hnodup
    cases h
    exact ⟨hne, hnodup⟩
  | cons v rest ih =>
    intro seen names h hne hnodup
    unfold DefinitionOf.checkNames at h
    split at h
    · cases h
    · rename_i n hn
      have hn' : n ≠ "" := Value.ne_of_name? hn
      split at h
      · exact ih h hne hnodup
      · rename_i hseen
        refine ih h (by simp [hne, Ne.symm hn']) ?_
        rw [List.nodup_append]
        refine ⟨hnodup, List.nodup_singleton n, ?_⟩
        intro a ha b hb hab
        rw [List.mem_singleton] at hb
        exact hseen (hb ▸ hab ▸ ha)

/-- The interfaces that are accepted are names, each once. -/
theorem DefinitionOf.checkInterfaces_wellFormed {className : String} {v : Value}
    {names : List String} (h : DefinitionOf.checkInterfaces className v = .ok names) :
    "" ∉ names ∧ names.Nodup := by
  unfold DefinitionOf.checkInterfaces at h
  split at h
  · cases h
    exact ⟨List.not_mem_nil, List.nodup_nil⟩
  · split at h
    · cases h
    · rename_i items _
      cases hc : DefinitionOf.checkNames className [] items with
      | error e => simp [hc, Except.mapError] at h
      | ok found =>
        simp only [hc, Except.mapError, Except.ok.injEq] at h
        subst h
        exact DefinitionOf.checkNames_wellFormed items hc List.not_mem_nil List.nodup_nil

/-- A free identifier is a name. -/
theorem DefinitionOf.freeIdentifier_ne {γ : Type} (d : DefinitionOf γ) : d.freeIdentifier ≠ "" := by
  have hnumbered : ∀ n, numbered n ≠ "" := by
    intro n he
    have := congrArg String.toList he
    simp [numbered] at this
  unfold freeIdentifier
  simp only
  cases hf : ((List.range (d.calls.size + 1)).map fun i => numbered (d.calls.size + i)).find?
      fun k => !d.calls.contains k with
  | none => exact hnumbered _
  | some k =>
    obtain ⟨n, -, rfl⟩ := List.mem_map.mp (List.mem_of_find?_eq_some hf)
    exact hnumbered _

/-- Names that are all different pass the check as they are. -/
theorem DefinitionOf.checkNames_texts (className : String) (names : List String) :
    ∀ {seen : List String}, "" ∉ names → (seen ++ names).Nodup →
      DefinitionOf.checkNames className seen (names.map .text) = .ok (seen ++ names) := by
  induction names with
  | nil => intro seen _ _; simp [DefinitionOf.checkNames]
  | cons n rest ih =>
    intro seen hne hnodup
    have hn : n ≠ "" := fun he => hne (he ▸ List.mem_cons_self)
    have hseen : n ∉ seen := by
      rw [List.nodup_append] at hnodup
      exact fun hm => hnodup.2.2 _ hm _ List.mem_cons_self rfl
    rw [List.map_cons, DefinitionOf.checkNames, Value.name?_text hn]
    simp only [if_neg hseen]
    rw [ih (fun hm => hne (List.mem_cons_of_mem _ hm)) (by simpa using hnodup)]
    simp

/-! ### Declared parts -/

/-- A call that is declared has a method, and no empty identifier. -/
theorem CallOf.parts_of_declare {α : Type} {method identifier : Value} {arguments : List α}
    {c : CallOf α} (h : declare method identifier arguments = .ok c) :
    c.method ≠ "" ∧ c.identifier ≠ some "" ∧ c.arguments = arguments := by
  unfold declare at h
  split at h
  · cases h
  · rename_i m hm
    split at h
    · cases h
      exact ⟨Value.ne_of_name? hm, nofun, rfl⟩
    · split at h
      · cases h
      · rename_i i hi
        cases h
        exact ⟨Value.ne_of_name? hm, fun he => Value.ne_of_name? hi (Option.some.inj he), rfl⟩

/-- A definition that is declared has a class, no empty identifier, interfaces that are names, each
once, and no calls. -/
theorem DefinitionOf.parts_of_declare {γ : Type} {className identifier interfaces : Value}
    {d : DefinitionOf γ} (h : declare className identifier interfaces = .ok d) :
    d.className ≠ "" ∧ d.identifier ≠ some "" ∧ "" ∉ d.interfaces ∧ d.interfaces.Nodup ∧
      d.constructor = none ∧ d.calls = .empty := by
  unfold declare at h
  obtain ⟨c, hc, h⟩ := Except.bind_eq_ok.mp h
  obtain ⟨i, hi, h⟩ := Except.bind_eq_ok.mp h
  obtain ⟨names, hnames, h⟩ := Except.bind_eq_ok.mp h
  cases h
  obtain ⟨hne, hnodup⟩ := checkInterfaces_wellFormed hnames
  exact ⟨ne_of_checkClassName (Except.mapError_eq_ok.mp hc),
    ne_of_checkIdentifier (Except.mapError_eq_ok.mp hi), hne, hnodup, rfl, rfl⟩

/-- The interfaces of a definition are names, if its class is one. -/
theorem DefinitionOf.allInterfaces_ne {γ : Type} {d : DefinitionOf γ} (hc : d.className ≠ "")
    (hi : "" ∉ d.interfaces) : "" ∉ d.allInterfaces := by
  unfold allInterfaces
  split
  · rw [List.mem_singleton]
    exact hc.symm
  · exact hi

/-- Only a call of the constructor is kept as the constructor. -/
theorem DefinitionOf.isConstructor_of_placeFor {α γ : Type} {d : DefinitionOf γ} {c : CallOf α}
    (h : d.placeFor c = .constructor) : c.isConstructor = true := by
  unfold placeFor at h
  split at h
  · assumption
  · cases h

/-- Any other call is kept under its own identifier, or else under a free one. -/
theorem DefinitionOf.eq_of_placeFor {α γ : Type} {d : DefinitionOf γ} {c : CallOf α} {i : String}
    (h : d.placeFor c = .keyed i) :
    c.isConstructor = false ∧ i = c.identifier.getD d.freeIdentifier := by
  unfold placeFor at h
  split at h
  · cases h
  · rename_i hctor
    cases h
    exact ⟨Bool.eq_false_iff.mpr hctor, rfl⟩

/-- The identifier under which a call is kept is not empty, if the call has no empty one. -/
theorem DefinitionOf.ne_of_placeFor {α γ : Type} {d : DefinitionOf γ} {c : CallOf α} {i : String}
    (hc : c.identifier ≠ some "") (h : d.placeFor c = .keyed i) : i ≠ "" := by
  rw [(eq_of_placeFor h).2]
  cases hid : c.identifier with
  | none => exact d.freeIdentifier_ne
  | some j => exact fun he => hc (hid.trans (congrArg some he))

/-- A definition with one more call is well formed. -/
theorem DefinitionOf.wellFormed_addCall {d : Definition} (hd : DefinitionOf.WellFormed d) {c : Call}
    (hc : CallOf.WellFormed c) : DefinitionOf.WellFormed (d.addCall c) := by
  unfold addCall
  cases hplace : d.placeFor c with
  | constructor =>
    refine { hd with constructor_call := fun k hk => ?_ }
    cases hk
    exact ⟨isConstructor_of_placeFor hplace, hc⟩
  | keyed i =>
    refine { hd with call := fun e he => ?_ }
    rcases OrderedMap.mem_of_mem_put he with rfl | ho
    · have hne := ne_of_placeFor hc.identifier_ne hplace
      exact ⟨rfl, (eq_of_placeFor hplace).1,
        hc.method_ne, fun he => hne (Option.some.inj he), hc.arguments⟩
    · exact hd.call e ho

/-- The container without definitions is well formed. -/
theorem Container.wellFormed_empty : (Container.empty : Container Definition).WellFormed where
  filled := filled_empty
  entry := by
    intro e he
    cases he

/-- A container with one more definition under some names is well formed. -/
theorem Container.wellFormed_add {c : Container Definition} (hc : c.WellFormed) {names : List String}
    (hnames : "" ∉ names) {d : Definition} (hd : DefinitionOf.WellFormed d) :
    (c.add names d.identifier d).WellFormed where
  filled := filled_add hc.filled _ _ _
  entry := by
    rintro ⟨q, x⟩ he
    rw [mem_entries_iff, find?_add] at he
    split at he
    · rename_i hq
      cases he
      exact ⟨fun h => hnames (h ▸ hq.1), hq.2.symm, hd⟩
    · exact hc.entry _ (mem_entries_iff.mpr he)

/-! ### Changing the properties of arguments -/

/-- Changes every argument of a definition. -/
def DefinitionOf.mapArguments (f : Argument → Argument) (d : Definition) : Definition :=
  d.map (CallOf.map f)

variable {f : Argument → Argument}

/-- A change that keeps the names of arguments keeps calls well formed. -/
theorem CallOf.wellFormed_map (hf : ∀ a : Argument, a.WellFormed → (f a).WellFormed) {c : Call}
    (h : CallOf.WellFormed c) : CallOf.WellFormed (CallOf.map f c) where
  method_ne := h.method_ne
  identifier_ne := h.identifier_ne
  arguments := by
    intro a ha
    obtain ⟨b, hb, rfl⟩ := List.mem_map.mp ha
    exact hf b (h.arguments b hb)

/-- A change that keeps the names of arguments keeps definitions well formed. -/
theorem DefinitionOf.wellFormed_mapArguments
    (hf : ∀ a : Argument, a.WellFormed → (f a).WellFormed) {d : Definition}
    (h : DefinitionOf.WellFormed d) : DefinitionOf.WellFormed (d.mapArguments f) where
  className_ne := h.className_ne
  identifier_ne := h.identifier_ne
  interfaces_ne := h.interfaces_ne
  interfaces_nodup := h.interfaces_nodup
  constructor_call := by
    intro c hc
    obtain ⟨b, hb, rfl⟩ := Option.map_eq_some_iff.mp hc
    exact ⟨(h.constructor_call b hb).1, CallOf.wellFormed_map hf (h.constructor_call b hb).2⟩
  call := by
    intro e he
    obtain ⟨b, hb, rfl⟩ := List.mem_map.mp he
    obtain ⟨hi, hc, hw⟩ := h.call b hb
    exact ⟨hi, hc, CallOf.wellFormed_map hf hw⟩

/-- Changing every definition changes the entries one by one. -/
theorem Container.entries_map {δ ε : Type} (g : δ → ε) (c : Container δ) :
    (c.map g).entries = c.entries.map fun e => (e.1, g e.2) := by
  unfold Container.entries Container.map OrderedMap.map
  simp [List.flatMap_map, List.map_flatMap, Function.comp_def]

/-- Changing every definition leaves no interface without definitions. -/
theorem Container.filled_map {δ ε : Type} (g : δ → ε) {c : Container δ} (h : c.Filled) :
    (c.map g).Filled := by
  intro e he
  obtain ⟨b, hb, rfl⟩ := List.mem_map.mp he
  simpa [OrderedMap.map] using h b hb

/-- A change that keeps the names of arguments keeps containers well formed. -/
theorem Container.wellFormed_map (hf : ∀ a : Argument, a.WellFormed → (f a).WellFormed)
    {c : Container Definition} (h : c.WellFormed) :
    (c.map (DefinitionOf.mapArguments f)).WellFormed where
  filled := Container.filled_map _ h.filled
  entry := by
    intro e he
    rw [Container.entries_map] at he
    obtain ⟨b, hb, rfl⟩ := List.mem_map.mp he
    obtain ⟨hi, hk, hd⟩ := h.entry b hb
    exact ⟨hi, hk, DefinitionOf.wellFormed_mapArguments hf hd⟩

end Wiring
