import Wiring.Proofs.Layering

/-!
# `Wiring.Proofs.Restoring`: what a snapshot holds is data

Whatever text a snapshot file holds, the values that are read from it have no places and no
components in them. So the definitions that are decoded are data (`Snapshot.data_of_loads`), and
installing them gives a container that shows them.

A reader `Yields` a property when everything that it reads has it. The reader of values refers to
itself three times, and so does the proof, by induction on the number of steps.
-/

set_option autoImplicit false

namespace Wiring

namespace Value

mutual

/-- Whether the value is made of scalars, lists and mappings without places, and the keys are
texts. -/
def isDocument : Value → Bool
  | .null | .bool _ | .int _ | .float _ | .text _ => true
  | .list none items => areDocuments items
  | .map none entries => entriesAreDocuments entries
  | _ => false

/-- Whether all items of a list are documents. -/
def areDocuments : List Value → Bool
  | [] => true
  | v :: rest => isDocument v && areDocuments rest

/-- Whether all entries of a mapping are documents under texts. -/
def entriesAreDocuments : List (Value × Value) → Bool
  | [] => true
  | (.text _, v) :: rest => isDocument v && entriesAreDocuments rest
  | _ => false

end

theorem areDocuments_iff (items : List Value) :
    areDocuments items = true ↔ ∀ v ∈ items, v.isDocument = true := by
  induction items with
  | nil => simp [areDocuments]
  | cons v rest ih => simp [areDocuments, ih]

theorem entriesAreDocuments_iff (entries : List (Value × Value)) :
    entriesAreDocuments entries = true
      ↔ ∀ e ∈ entries, (∃ s, e.1 = .text s) ∧ e.2.isDocument = true := by
  induction entries with
  | nil => simp [entriesAreDocuments]
  | cons e rest ih =>
    obtain ⟨k, v⟩ := e
    cases k <;> simp [entriesAreDocuments, ih]

mutual

/-- Documents are data. -/
theorem isData_of_isDocument : ∀ v : Value, v.isDocument = true → v.isData = true
  | .null, _ | .bool _, _ | .int _, _ | .float _, _ | .text _, _ => rfl
  | .list none items, h => areData_of_areDocuments items h
  | .map none entries, h => entriesAreData_of_entriesAreDocuments entries h
  | .list (some _) _, h | .map (some _) _, h | .component _ _, h | .bytes _, h | .object _, h
  | .path _, h | .parser _, h | .other _, h => by cases h

theorem areData_of_areDocuments : ∀ items : List Value, areDocuments items = true →
    areData items = true
  | [], _ => rfl
  | v :: rest, h => by
    rw [areDocuments, Bool.and_eq_true] at h
    rw [areData, isData_of_isDocument v h.1, areData_of_areDocuments rest h.2]
    rfl

theorem entriesAreData_of_entriesAreDocuments : ∀ entries : List (Value × Value),
    entriesAreDocuments entries = true → entriesAreData entries = true
  | [], _ => rfl
  | (k, v) :: rest, h => by
    obtain ⟨-, hv⟩ := (entriesAreDocuments_iff _).mp h (k, v) List.mem_cons_self
    have hrest : entriesAreDocuments rest = true := (entriesAreDocuments_iff _).mpr fun e he =>
      (entriesAreDocuments_iff _).mp h e (List.mem_cons_of_mem _ he)
    rw [entriesAreData, isData_of_isDocument v hv, entriesAreData_of_entriesAreDocuments rest hrest]
    rfl

end

theorem mem_put {k v : Value} {entries : List (Value × Value)} {e : Value × Value}
    (h : e ∈ put k v entries) : e.2 = v ∧ (e.1 = k ∨ ∃ x ∈ entries, e.1 = x.1) ∨ e ∈ entries := by
  induction entries with
  | nil =>
    rw [List.mem_singleton.mp h]
    exact Or.inl ⟨rfl, Or.inl rfl⟩
  | cons x rest ih =>
    rw [put] at h
    split at h
    · rcases List.mem_cons.mp h with rfl | h
      · exact Or.inl ⟨rfl, Or.inr ⟨x, List.mem_cons_self, rfl⟩⟩
      · exact Or.inr (List.mem_cons_of_mem _ h)
    · rcases List.mem_cons.mp h with rfl | h
      · exact Or.inr List.mem_cons_self
      · rcases ih h with ⟨hv, hk | ⟨y, hy, hk⟩⟩ | he
        · exact Or.inl ⟨hv, Or.inl hk⟩
        · exact Or.inl ⟨hv, Or.inr ⟨y, List.mem_cons_of_mem _ hy, hk⟩⟩
        · exact Or.inr (List.mem_cons_of_mem _ he)

theorem entriesAreDocuments_put {s : String} {v : Value} {entries : List (Value × Value)}
    (hv : v.isDocument = true) (h : entriesAreDocuments entries = true) :
    entriesAreDocuments (put (.text s) v entries) = true := by
  refine (entriesAreDocuments_iff _).mpr fun e he => ?_
  have hentries := (entriesAreDocuments_iff _).mp h
  rcases mem_put he with ⟨he', hk | ⟨x, hx, hk⟩⟩ | he
  · exact ⟨⟨s, hk⟩, he' ▸ hv⟩
  · exact ⟨hk ▸ (hentries x hx).1, he' ▸ hv⟩
  · exact hentries e he

theorem isDocument_of_lookup {k v : Value} {entries : List (Value × Value)}
    (hentries : entriesAreDocuments entries = true) (h : lookup k entries = some v) :
    v.isDocument = true := by
  induction entries with
  | nil => cases h
  | cons e rest ih =>
    have hall := (entriesAreDocuments_iff _).mp hentries
    rw [lookup] at h
    split at h
    · cases h
      exact (hall e List.mem_cons_self).2
    · exact ih ((entriesAreDocuments_iff _).mpr fun x hx => hall x (List.mem_cons_of_mem _ hx)) h

/-- What a document can be taken apart into are documents. -/
theorem isDocument_of_mem_parts {v x : Value} {items : List Value} (hv : v.isDocument = true)
    (h : v.parts? = some items) (hx : x ∈ items) : x.isDocument = true := by
  cases v with
  | list p vs =>
    cases p with
    | none =>
      cases h
      exact (areDocuments_iff _).mp hv x hx
    | some n => cases hv
  | map p es =>
    cases p with
    | none =>
      cases h
      obtain ⟨e, he, rfl⟩ := List.mem_map.mp hx
      obtain ⟨⟨s, hs⟩, -⟩ := (entriesAreDocuments_iff _).mp hv e he
      rw [hs]
      rfl
    | some n => cases hv
  | text s =>
    cases h
    obtain ⟨c, -, rfl⟩ := List.mem_map.mp hx
    rfl
  | bytes data => cases hv
  | component c parts => cases hv
  | _ => cases h

end Value

/-! ### Reading -/

namespace Json

variable {α β : Type} {P : α → Prop} {Q : β → Prop}

/-- Everything that is read has a property. -/
def Yields (P : α → Prop) (w : Read α) : Prop := ∀ cs a rest, w cs = .ok (a, rest) → P a

theorem yields_any (w : Read α) : Yields (fun _ => True) w := fun _ _ _ _ => trivial

theorem yields_pure {a : α} (h : P a) : Yields P (pure a) := by
  intro cs b rest hb
  cases hb
  exact h

theorem yields_refuse : Yields P refuse := fun _ _ _ h => by cases h

theorem Yields.bind {w : Read β} {f : β → Read α} (hw : Yields Q w) (hf : ∀ b, Q b → Yields P (f b)) :
    Yields P (w >>= f) := by
  intro cs a rest h
  obtain ⟨⟨b, r⟩, hb, h⟩ := Except.bind_eq_ok.mp h
  exact hf b (hw cs b r hb) r a rest h

theorem yields_number (negative : Bool) : Yields (fun v => v.isDocument = true) (number negative) := by
  intro cs v rest h
  unfold number at h
  split at h
  · cases h
  · dsimp only at h
    split at h
    · cases h
      rfl
    · split at h
      · cases h
        rfl
      · split at h
        · cases h
        · cases h
          rfl

theorem yields_named : Yields (fun v => v.isDocument = true) named := by
  intro cs v rest h
  unfold named at h
  dsimp only at h
  split at h
  · rename_i hword
    cases h
    have hall : ∀ w ∈ [("null", Value.null), ("true", .bool true), ("false", .bool false),
        ("NaN", .float .nan), ("Infinity", .float (.infinity false)),
        ("-Infinity", .float (.infinity true))], w.2.isDocument = true := by decide
    exact hall _ (List.mem_of_find?_eq_some hword)
  · split at h <;> exact yields_number _ _ _ _ h

/-- The reader of values reads documents, and so do those of items and of entries. -/
theorem yields_document (fuel : Nat) :
    Yields (fun v => v.isDocument = true) (value fuel) ∧
      Yields (fun vs => Value.areDocuments vs = true) (items fuel) ∧
      ∀ seen, Value.entriesAreDocuments seen = true →
        Yields (fun es => Value.entriesAreDocuments es = true) (entries fuel seen) := by
  induction fuel with
  | zero => exact ⟨yields_refuse, yields_refuse, fun _ _ => yields_refuse⟩
  | succ fuel ih =>
    obtain ⟨hvalue, hitems, hentries⟩ := ih
    refine ⟨?_, ?_, fun seen hseen => ?_⟩
    · rw [value]
      refine (yields_any _).bind fun cs _ => ?_
      split
      · refine (yields_any _).bind fun _ _ => (yields_any _).bind fun _ _ => yields_pure rfl
      · refine (yields_any _).bind fun _ _ => (yields_any _).bind fun cs _ => ?_
        split
        · exact (yields_any _).bind fun _ _ => yields_pure rfl
        · exact hitems.bind fun vs hvs => yields_pure hvs
      · refine (yields_any _).bind fun _ _ => (yields_any _).bind fun cs _ => ?_
        split
        · exact (yields_any _).bind fun _ _ => yields_pure rfl
        · exact (hentries [] rfl).bind fun es hes => yields_pure hes
      · exact yields_named
    · rw [items]
      refine hvalue.bind fun v hv => (yields_any _).bind fun _ _ => (yields_any _).bind fun cs _ => ?_
      split
      · refine (yields_any _).bind fun _ _ => yields_pure ?_
        rw [Value.areDocuments, hv]
        rfl
      · refine (yields_any _).bind fun _ _ => hitems.bind fun vs hvs => yields_pure ?_
        rw [Value.areDocuments, hv, hvs]
        rfl
      · exact yields_refuse
    · rw [entries]
      refine (yields_any _).bind fun cs _ => ?_
      split
      · refine (yields_any _).bind fun _ _ => (yields_any _).bind fun key _ =>
          (yields_any _).bind fun _ _ => (yields_any _).bind fun cs _ => ?_
        split
        · refine (yields_any _).bind fun _ _ => hvalue.bind fun v hv =>
            (yields_any _).bind fun _ _ => ?_
          have hput := Value.entriesAreDocuments_put (s := key) hv hseen
          refine (yields_any _).bind fun cs _ => ?_
          split
          · exact (yields_any _).bind fun _ _ => yields_pure hput
          · exact (yields_any _).bind fun _ _ => hentries _ hput
          · exact yields_refuse
        · exact yields_refuse
      · exact yields_refuse

/-- Everything that is read is a document. -/
theorem isDocument_of_read {s : String} {v : Value} (h : read s = .ok v) :
    v.isDocument = true := by
  unfold read at h
  dsimp only at h
  split at h
  · cases h
  · rename_i w rest hread
    split at h
    · cases h
      exact (yields_document _).1 _ _ _ hread
    · cases h

end Json

/-! ### Decoding -/

namespace Snapshot

/-- A part of a document is a document. -/
theorem isDocument_of_part {v x : Value} {key : String} (hv : v.isDocument = true)
    (h : part v key = .ok x) : x.isDocument = true := by
  unfold part at h
  split at h
  · rename_i p entries
    split at h
    · rename_i hfound
      cases h
      cases p with
      | none => exact Value.isDocument_of_lookup hv hfound
      | some n => cases hv
    · cases h
  · cases h

/-- The items of a document are documents. -/
theorem areDocuments_of_itemsOf {v : Value} {items : List Value} (hv : v.isDocument = true)
    (h : itemsOf v = .ok items) : ∀ x ∈ items, x.isDocument = true := by
  unfold itemsOf at h
  split at h
  · rename_i found hfound
    cases h
    exact fun x hx => Value.isDocument_of_mem_parts hv hfound hx
  · cases h

/-- Properties that are read from a document are data. -/
theorem data_of_pairsOf (vs : List Value) : ∀ {seen properties : List (Value × Value)},
    (∀ v ∈ vs, v.isDocument = true) → (∀ e ∈ seen, e.2.isData = true) →
    pairsOf seen vs = .ok properties → ∀ e ∈ properties, e.2.isData = true := by
  induction vs with
  | nil =>
    intro seen properties _ hseen h
    cases h
    exact hseen
  | cons v rest ih =>
    intro seen properties hvs hseen h
    rw [pairsOf] at h
    obtain ⟨⟨k, x⟩, hpair, h⟩ := Except.bind_eq_ok.mp h
    have hx : x.isDocument = true := by
      unfold pairOf at hpair
      obtain ⟨items, hitems, hpair⟩ := Except.bind_eq_ok.mp hpair
      have hall := areDocuments_of_itemsOf (hvs v List.mem_cons_self) hitems
      split at hpair
      · split at hpair
        · cases hpair
          exact hall x (by simp)
        · cases hpair
      · cases hpair
    refine ih (fun w hw => hvs w (List.mem_cons_of_mem _ hw)) (fun e he => ?_) h
    rcases Value.mem_put he with ⟨he', -⟩ | he
    · rw [he']
      exact Value.isData_of_isDocument x hx
    · exact hseen e he

theorem data_of_propertiesOf {v : Value} {properties : List (Value × Value)}
    (hv : v.isDocument = true) (h : propertiesOf v = .ok properties) :
    ∀ e ∈ properties, e.2.isData = true := by
  unfold propertiesOf at h
  split at h
  · cases h
    exact nofun
  · split at h
    · rename_i p entries _
      cases h
      cases p with
      | none =>
        exact fun e he => Value.isData_of_isDocument _
          ((Value.entriesAreDocuments_iff _).mp hv e he).2
      | some n => cases hv
    · obtain ⟨items, hitems, h⟩ := Except.bind_eq_ok.mp h
      exact data_of_pairsOf items (areDocuments_of_itemsOf hv hitems)
        (fun _ he => absurd he List.not_mem_nil) h

/-- An argument that is decoded from a document is data. -/
theorem data_of_decodeArgument {v : Value} {a : Argument} (hv : v.isDocument = true)
    (h : decodeArgument v = .ok a) : a.IsData := by
  unfold decodeArgument at h
  obtain ⟨name, -, h⟩ := Except.bind_eq_ok.mp h
  obtain ⟨kind, -, h⟩ := Except.bind_eq_ok.mp h
  obtain ⟨properties, hproperties, h⟩ := Except.bind_eq_ok.mp h
  obtain ⟨b, -, h⟩ := Except.bind_eq_ok.mp h
  obtain ⟨entries, hentries, h⟩ := Except.bind_eq_ok.mp h
  cases h
  exact data_of_propertiesOf (isDocument_of_part hv hproperties) hentries

/-- A call that is decoded from a document is data. -/
theorem data_of_decodeCall {v : Value} {c : Call} (hv : v.isDocument = true)
    (h : decodeCall v = .ok c) : CallOf.IsData c := by
  unfold decodeCall at h
  obtain ⟨listed, hlisted, h⟩ := Except.bind_eq_ok.mp h
  obtain ⟨items, hitems, h⟩ := Except.bind_eq_ok.mp h
  obtain ⟨arguments, harguments, h⟩ := Except.bind_eq_ok.mp h
  obtain ⟨identifier, -, h⟩ := Except.bind_eq_ok.mp h
  obtain ⟨method, -, h⟩ := Except.bind_eq_ok.mp h
  have hall := areDocuments_of_itemsOf (isDocument_of_part hv hlisted) hitems
  have hargument : ∀ a ∈ arguments, a.IsData := by
    intro a ha
    obtain ⟨x, hx, hdecoded⟩ := Except.exists_of_mem_mapM harguments a ha
    exact data_of_decodeArgument (hall x hx) hdecoded
  have hc : c.arguments = arguments := by
    have hdeclared := Except.mapError_eq_ok.mp h
    unfold CallOf.declare at hdeclared
    split at hdeclared
    · cases hdeclared
    · split at hdeclared
      · cases hdeclared
        rfl
      · split at hdeclared
        · cases hdeclared
        · cases hdeclared
          rfl
  unfold CallOf.IsData
  rw [hc]
  exact hargument

/-- A definition with one more call of data is data. -/
theorem data_addCall {d : Definition} (hd : d.IsData) {c : Call} (hc : CallOf.IsData c) :
    (d.addCall c).IsData := by
  unfold DefinitionOf.addCall
  split
  · refine ⟨fun k hk => ?_, hd.call⟩
    cases hk
    exact hc
  · refine ⟨hd.constructor_call, fun e he => ?_⟩
    rcases OrderedMap.mem_of_mem_put he with rfl | ho
    · exact hc
    · exact hd.call e ho

theorem data_of_decodeCalls (vs : List Value) : ∀ {d x : Definition},
    (∀ v ∈ vs, v.isDocument = true) → d.IsData → decodeCalls d vs = .ok x → x.IsData := by
  induction vs with
  | nil =>
    intro d x _ hd h
    cases h
    exact hd
  | cons v rest ih =>
    intro d x hvs hd h
    rw [decodeCalls] at h
    obtain ⟨c, hc, h⟩ := Except.bind_eq_ok.mp h
    exact ih (fun w hw => hvs w (List.mem_cons_of_mem _ hw))
      (data_addCall hd (data_of_decodeCall (hvs v List.mem_cons_self) hc)) h

/-- A definition that is decoded from a document is data. -/
theorem data_of_decodeDefinition {v : Value} {d : Definition} (hv : v.isDocument = true)
    (h : decodeDefinition v = .ok d) : d.IsData := by
  unfold decodeDefinition at h
  obtain ⟨className, -, h⟩ := Except.bind_eq_ok.mp h
  obtain ⟨identifier, -, h⟩ := Except.bind_eq_ok.mp h
  obtain ⟨interfaces, -, h⟩ := Except.bind_eq_ok.mp h
  obtain ⟨started, hstarted, h⟩ := Except.bind_eq_ok.mp h
  obtain ⟨call, hcall, h⟩ := Except.bind_eq_ok.mp h
  have hdata : started.IsData := by
    unfold DefinitionOf.declare at hstarted
    obtain ⟨c, -, hstarted⟩ := Except.bind_eq_ok.mp hstarted
    obtain ⟨i, -, hstarted⟩ := Except.bind_eq_ok.mp hstarted
    obtain ⟨names, -, hstarted⟩ := Except.bind_eq_ok.mp hstarted
    cases hstarted
    exact ⟨nofun, fun _ he => absurd he List.not_mem_nil⟩
  -- The calls are added to what the constructor, if there is one, was added to.
  have hcalls : ∀ built : Definition, built.IsData →
      (do decodeCalls built (← itemsOf (← part v "calls")) : Except Fault Definition) = .ok d →
      d.IsData := by
    intro built hbuilt h
    obtain ⟨listed, hlisted, h⟩ := Except.bind_eq_ok.mp h
    obtain ⟨items, hitems, h⟩ := Except.bind_eq_ok.mp h
    exact data_of_decodeCalls items
      (areDocuments_of_itemsOf (isDocument_of_part hv hlisted) hitems) hbuilt h
  dsimp only at h
  split at h
  · exact hcalls started hdata h
  · obtain ⟨c, hc, h⟩ := Except.bind_eq_ok.mp h
    exact hcalls _ (data_addCall hdata (data_of_decodeCall (isDocument_of_part hv hcall) hc)) h

theorem data_of_decodeEntries (vs : List Value) : ∀ {c k : Catalogue},
    (∀ v ∈ vs, v.isDocument = true) → (∀ e ∈ c.container.entries, e.2.definition.IsData) →
    decodeEntries c vs = .ok k → ∀ e ∈ k.container.entries, e.2.definition.IsData := by
  induction vs with
  | nil =>
    intro c k _ hc h
    cases h
    exact hc
  | cons v rest ih =>
    intro c k hvs hc h
    rw [decodeEntries] at h
    obtain ⟨interface, -, h⟩ := Except.bind_eq_ok.mp h
    obtain ⟨d, hd, h⟩ := Except.bind_eq_ok.mp h
    obtain ⟨names, -, h⟩ := Except.bind_eq_ok.mp h
    refine ih (fun w hw => hvs w (List.mem_cons_of_mem _ hw)) (fun e he => ?_) h
    obtain ⟨q, x⟩ := e
    rw [Container.mem_entries_iff, Catalogue.add, Container.find?_add] at he
    split at he
    · cases he
      exact data_of_decodeDefinition (hvs v List.mem_cons_self) hd
    · exact hc _ (Container.mem_entries_iff.mpr he)

/-- The definitions that a snapshot file holds are data. -/
theorem data_of_loads {text : String} {k : Catalogue} (h : loads text = .ok k) :
    ∀ e ∈ k.container.entries, e.2.definition.IsData := by
  unfold loads at h
  split at h
  · cases h
  · rename_i v hread
    have hv := Json.isDocument_of_read hread
    unfold decode at h
    split at h
    · dsimp only at h
      split at h
      · cases h
      · split at h
        · cases h
        · obtain ⟨dependencies, hpart, h⟩ := Except.bind_eq_ok.mp (Except.mapError_eq_ok.mp h)
          obtain ⟨items, hitems, h⟩ := Except.bind_eq_ok.mp h
          exact data_of_decodeEntries items
            (areDocuments_of_itemsOf (isDocument_of_part hv hpart) hitems)
            (fun _ he => absurd he List.not_mem_nil) h
    · cases h

end Snapshot

end Wiring
