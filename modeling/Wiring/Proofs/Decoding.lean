import Wiring.Proofs.Overlays
import Wiring.Proofs.WellFormed
import Wiring.Snapshot

/-!
# `Wiring.Proofs.Decoding`: whatever is loaded

A snapshot is text that anybody may have written. Loading it either fails with a snapshot fault or
gives a container that could have been declared (`Snapshot.loads_safe`), and what is accepted bears
the mark and the version of the encoder.

Both halves are proved at once. `Except.Ends F P x` says that `x` is a fault with `F` or an answer
with `P`, and it passes through every way of putting decoders together. So each decoder has one
lemma, about the faults that it may meet and about what it makes. The reader of values refers to
itself three times. Its lemma is by induction on the number of steps.
-/

set_option autoImplicit false

namespace Wiring

/-! ### Faults and answers -/

variable {ε ε' α β : Type} {F : ε → Prop} {P : α → Prop} {Q : β → Prop}

/-- The outcome is a fault of one kind or an answer of one kind. -/
def Ends (F : ε → Prop) (P : α → Prop) : Except ε α → Prop
  | .ok a => P a
  | .error e => F e

/-- What follows from the outcome. -/
theorem Ends.cases {x : Except ε α} (h : Ends F P x) :
    (∃ e, x = .error e ∧ F e) ∨ ∃ a, x = .ok a ∧ P a := by
  cases x with
  | ok a => exact Or.inr ⟨a, rfl, h⟩
  | error e => exact Or.inl ⟨e, rfl, h⟩

/-- What follows from a fault. -/
theorem Ends.of_error {x : Except ε α} (h : Ends F P x) {e : ε} (he : x = .error e) : F e := by
  rw [he] at h
  exact h

/-- What is known of the answers may be shown apart from the faults. -/
theorem Ends.and {x : Except ε α} (h : Ends F (fun _ => True) x) (hP : ∀ a, x = .ok a → P a) :
    Ends F P x := by
  cases x with
  | ok a => exact hP a rfl
  | error e => exact h

theorem Ends.bind {x : Except ε α} {f : α → Except ε β} (hx : Ends F P x)
    (hf : ∀ a, P a → Ends F Q (f a)) : Ends F Q (x >>= f) := by
  cases x with
  | ok a => exact hf a hx
  | error e => exact hx

theorem Ends.map {x : Except ε α} {f : α → β} (hx : Ends F P x) (hf : ∀ a, P a → Q (f a)) :
    Ends F Q (x.map f) := by
  cases x with
  | ok a => exact hf a hx
  | error e => exact hx

/-- Renamed faults. -/
theorem Ends.mapError {G : ε' → Prop} {x : Except ε α} {f : ε → ε'} (hx : Ends F P x)
    (hf : ∀ e, F e → G (f e)) : Ends G P (x.mapError f) := by
  cases x with
  | ok a => exact hx
  | error e => exact hf e hx

theorem Ends.mono {G : ε → Prop} {R : α → Prop} {x : Except ε α} (hx : Ends F P x)
    (hF : ∀ e, F e → G e) (hP : ∀ a, P a → R a) : Ends G R x := by
  cases x with
  | ok a => exact hP a hx
  | error e => exact hF e hx

/-- The parts of a list one by one. -/
theorem ends_mapM {f : α → Except ε β} (hf : ∀ a, Ends F Q (f a)) (l : List α) :
    Ends F (fun rs => ∀ r ∈ rs, Q r) (l.mapM f) := by
  induction l with
  | nil => exact nofun
  | cons a rest ih =>
    rw [List.mapM_cons]
    refine (hf a).bind fun r hr => ih.bind fun rs hrs => ?_
    exact List.forall_mem_cons.mpr ⟨hr, hrs⟩

/-! ### Reading -/

namespace Json

variable {α β : Type}

/-- Whatever the characters are, the only faults tell of a wrong value. -/
def Guarded (w : Read α) : Prop :=
  ∀ cs, Ends (fun kind => Snapshot.isValueKind kind = true) (fun _ => True) (w cs)

theorem guarded_pure (a : α) : Guarded (pure a) := fun _ => trivial

theorem guarded_refuse : Guarded (refuse : Read α) := fun _ => rfl

theorem guarded_get : Guarded get := fun _ => trivial

theorem guarded_set (cs : List Char) : Guarded (set cs) := fun _ => trivial

theorem guarded_blanks : Guarded blanks := fun _ => trivial

theorem Guarded.bind {w : Read β} {f : β → Read α} (hw : Guarded w) (hf : ∀ b, Guarded (f b)) :
    Guarded (w >>= f) :=
  fun cs => (hw cs).bind fun b _ => hf b.1 b.2

theorem guarded_text : Guarded text := by
  intro cs
  unfold text
  split
  · trivial
  · rfl

theorem guarded_number (negative : Bool) : Guarded (number negative) := by
  intro cs
  unfold number
  split
  · rfl
  · dsimp only
    split
    · trivial
    · split
      · trivial
      · split
        · rfl
        · trivial

theorem guarded_named : Guarded named := by
  intro cs
  unfold named
  dsimp only
  split
  · trivial
  · split <;> exact guarded_number _ _

/-- The reader of values is guarded, and so are those of items and of entries. -/
theorem guarded_value (fuel : Nat) :
    Guarded (value fuel) ∧ Guarded (items fuel) ∧ ∀ seen, Guarded (entries fuel seen) := by
  induction fuel with
  | zero => exact ⟨guarded_refuse, guarded_refuse, fun _ => guarded_refuse⟩
  | succ fuel ih =>
    obtain ⟨hvalue, hitems, hentries⟩ := ih
    -- The cases are the branches of each reader, and in each of them every step is guarded.
    refine ⟨?_, ?_, fun seen => ?_⟩
    · rw [value]
      refine guarded_get.bind fun cs => ?_
      split
      · exact (guarded_set _).bind fun _ => guarded_text.bind fun _ => guarded_pure _
      · refine (guarded_set _).bind fun _ => guarded_get.bind fun cs => ?_
        split
        · exact (guarded_set _).bind fun _ => guarded_pure _
        · exact hitems.bind fun _ => guarded_pure _
      · refine (guarded_set _).bind fun _ => guarded_get.bind fun cs => ?_
        split
        · exact (guarded_set _).bind fun _ => guarded_pure _
        · exact (hentries []).bind fun _ => guarded_pure _
      · exact guarded_named
    · rw [items]
      refine hvalue.bind fun _ => guarded_blanks.bind fun _ => guarded_get.bind fun cs => ?_
      split
      · exact (guarded_set _).bind fun _ => guarded_pure _
      · exact (guarded_set _).bind fun _ => hitems.bind fun _ => guarded_pure _
      · exact guarded_refuse
    · rw [entries]
      refine guarded_get.bind fun cs => ?_
      split
      · refine (guarded_set _).bind fun _ => guarded_text.bind fun _ => guarded_blanks.bind fun _ =>
          guarded_get.bind fun cs => ?_
        split
        · refine (guarded_set _).bind fun _ => hvalue.bind fun _ => guarded_blanks.bind fun _ =>
            guarded_get.bind fun cs => ?_
          split
          · exact (guarded_set _).bind fun _ => guarded_pure _
          · exact (guarded_set _).bind fun _ => hentries _
          · exact guarded_refuse
        · exact guarded_refuse
      · exact guarded_refuse

/-- Text that cannot be read is a wrong value. -/
theorem isValueKind_of_read {s : String} {kind : ForeignKind} (h : read s = .error kind) :
    Snapshot.isValueKind kind = true := by
  unfold read at h
  dsimp only at h
  split at h
  · rename_i hvalue
    cases h
    exact ((guarded_value _).1 _).of_error hvalue
  · split at h <;> cases h
    rfl

end Json

namespace Snapshot

/-! ### Parts of a document -/

/-- The fault tells of a wrong document. -/
def Malformed : Fault → Prop
  | .definition _ | .snapshotKey _ => True
  | .foreign kind => isDocumentKind kind = true
  | _ => False

/-- A fault that tells of a wrong document is reported as a snapshot fault. -/
theorem kind_reported {f : Fault} (h : Malformed f) : (reported f).kind = "SnapshotError" := by
  cases f with
  | foreign kind =>
    have hkind : isDocumentKind kind = true := h
    show Fault.kind (if isDocumentKind kind then _ else _) = _
    rw [if_pos hkind]
    rfl
  | definition => rfl
  | snapshotKey => rfl
  | _ => cases h

theorem ends_part (v : Value) (key : String) : Ends Malformed (fun _ => True) (part v key) := by
  unfold part
  split
  · split <;> trivial
  · rfl

theorem ends_itemsOf (v : Value) : Ends Malformed (fun _ => True) (itemsOf v) := by
  unfold itemsOf
  split
  · trivial
  · rfl

theorem ends_pairOf (v : Value) : Ends Malformed (fun _ => True) (pairOf v) := by
  refine (ends_itemsOf v).bind fun items _ => ?_
  split
  · split
    · trivial
    · rfl
  · rfl

theorem ends_pairsOf (vs : List Value) :
    ∀ seen, Ends Malformed (fun _ => True) (pairsOf seen vs) := by
  induction vs with
  | nil => exact fun _ => trivial
  | cons v rest ih => exact fun seen => (ends_pairOf v).bind fun _ _ => ih _

theorem ends_propertiesOf (v : Value) : Ends Malformed (fun _ => True) (propertiesOf v) := by
  unfold propertiesOf
  split
  · trivial
  · split
    · trivial
    · exact (ends_itemsOf v).bind fun items _ => ends_pairsOf items []

/-- What is checked as a part of a declaration has what every answer of the check has. -/
theorem ends_checked {α : Type} {P : α → Prop} {x : Except DefinitionFault α}
    (h : ∀ a, x = .ok a → P a) : Ends Malformed P (x.mapError .definition) := by
  cases x with
  | ok a => exact h a rfl
  | error e => trivial

/-! ### Decoders -/

/-- Decoded arguments have names. -/
theorem ends_decodeArgument (v : Value) :
    Ends Malformed Argument.WellFormed (decodeArgument v) := by
  refine (ends_part v _).bind fun name _ => (ends_part v _).bind fun kind _ =>
    (ends_part v _).bind fun properties _ => ?_
  refine (ends_checked fun a => Argument.wellFormed_of_declare).bind fun a ha => ?_
  exact (ends_propertiesOf properties).bind fun _ _ => ⟨ha.name_ne, ha.kind_ne⟩

/-- Decoded calls are well formed. -/
theorem ends_decodeCall (v : Value) : Ends Malformed CallOf.WellFormed (decodeCall v) := by
  refine (ends_part v _).bind fun listed _ => (ends_itemsOf listed).bind fun items _ =>
    (ends_mapM ends_decodeArgument items).bind fun arguments harguments =>
    (ends_part v _).bind fun identifier _ => (ends_part v _).bind fun method _ => ?_
  refine ends_checked fun c hc => ?_
  obtain ⟨hmethod, hidentifier, hsame⟩ := CallOf.parts_of_declare hc
  exact ⟨hmethod, hidentifier, hsame ▸ harguments⟩

/-- Adding decoded calls keeps a definition well formed. -/
theorem ends_decodeCalls (vs : List Value) : ∀ {d : Definition}, DefinitionOf.WellFormed d →
    Ends Malformed DefinitionOf.WellFormed (decodeCalls d vs) := by
  induction vs with
  | nil => exact id
  | cons v rest ih =>
    exact fun hd => (ends_decodeCall v).bind fun c hc => ih (DefinitionOf.wellFormed_addCall hd hc)

theorem ends_checkInterfaces (className : String) (v : Value) :
    Ends Malformed (fun _ => True) (DefinitionOf.checkInterfaces className v) := by
  unfold DefinitionOf.checkInterfaces
  split
  · trivial
  · split
    · rfl
    · exact ends_checked fun _ _ => trivial

/-- A declaration is well formed. It has no calls yet. -/
theorem ends_declare (className identifier interfaces : Value) :
    Ends Malformed DefinitionOf.WellFormed
      (DefinitionOf.declare className identifier interfaces : Except Fault Definition) := by
  refine Ends.and ?_ fun d hd => ?_
  · exact (ends_checked fun _ _ => trivial).bind fun c _ =>
      (ends_checked fun _ _ => trivial).bind fun i _ =>
      (ends_checkInterfaces c interfaces).bind fun names _ => trivial
  · obtain ⟨hc, hi, hne, hnodup, hconstructor, hcalls⟩ := DefinitionOf.parts_of_declare hd
    refine ⟨hc, hi, hne, hnodup, fun k hk => ?_, fun e he => ?_⟩
    · rw [hconstructor] at hk
      cases hk
    · rw [hcalls] at he
      cases he

/-- Decoded definitions are well formed. -/
theorem ends_decodeDefinition (v : Value) :
    Ends Malformed DefinitionOf.WellFormed (decodeDefinition v) := by
  refine (ends_part v _).bind fun className _ => (ends_part v _).bind fun identifier _ =>
    (ends_part v _).bind fun interfaces _ =>
    (ends_declare className identifier interfaces).bind fun d hd =>
    (ends_part v _).bind fun constructor _ => ?_
  -- The other calls are added to what there is with the constructor, or without one.
  have hcalls : ∀ y : Definition, DefinitionOf.WellFormed y →
      Ends Malformed DefinitionOf.WellFormed (do decodeCalls y (← itemsOf (← part v "calls"))) :=
    fun y hy => (ends_part v _).bind fun listed _ => (ends_itemsOf listed).bind fun items _ =>
      ends_decodeCalls items hy
  split
  · exact hcalls d hd
  · exact (ends_decodeCall _).bind fun c hc => hcalls _ (DefinitionOf.wellFormed_addCall hd hc)

/-- The interfaces of an entry are names. -/
theorem ends_entryInterfaces (v : Value) {d : Definition} (hd : DefinitionOf.WellFormed d) :
    Ends Malformed (fun names => "" ∉ names) (entryInterfaces v d) := by
  unfold entryInterfaces
  split
  · exact DefinitionOf.allInterfaces_ne hd.className_ne hd.interfaces_ne
  · refine (ends_checked fun n => Container.ne_of_checkInterface).map fun n hn => ?_
    rw [List.mem_singleton]
    exact hn.symm

/-- Adding decoded entries keeps a catalogue well formed. -/
theorem ends_decodeEntries (vs : List Value) : ∀ {c : Catalogue}, c.definitions.WellFormed →
    Ends Malformed (fun k : Catalogue => k.definitions.WellFormed) (decodeEntries c vs) := by
  induction vs with
  | nil => exact id
  | cons v rest ih =>
    intro c hc
    -- An entry names its interface itself, and everything else belongs to its definition.
    refine (ends_part v _).bind fun interface _ => (ends_decodeDefinition v).bind fun d hd =>
      (ends_entryInterfaces interface hd).bind fun names hnames => ih ?_
    rw [Catalogue.definitions_add]
    exact Container.wellFormed_add hc hnames hd

/-! ### Documents -/

/-- The document is a mapping with the mark and the version of the encoder. -/
def IsMarked (v : Value) : Prop :=
  ∃ p entries mark number, v = .map p entries ∧
    Value.lookup (.text "format") entries = some mark ∧ mark.equal (.text format) = true ∧
    Value.lookup (.text "version") entries = some number ∧ number.equal (.int version) = true

/-- Null is neither the mark nor the version, so a missing one is refused as well. -/
theorem lookup_of_equal {key : Value} {entries : List (Value × Value)} {w : Value}
    (hw : Value.null.equal w = false) (h : ((Value.lookup key entries).getD .null).equal w = true) :
    ∃ x, Value.lookup key entries = some x ∧ x.equal w = true := by
  cases hlookup : Value.lookup key entries with
  | some x =>
    rw [hlookup] at h
    exact ⟨x, rfl, h⟩
  | none =>
    rw [hlookup, Option.getD_none, hw] at h
    cases h

/-- Decoding any value gives a snapshot fault, or else the value is marked and the container is well
formed. -/
theorem ends_decode (v : Value) :
    Ends (fun f => f.kind = "SnapshotError")
      (fun k : Catalogue => k.definitions.WellFormed ∧ IsMarked v) (decode v) := by
  unfold decode
  cases v with
  | map p entries =>
    dsimp only
    split
    · rfl
    · rename_i hformat
      split
      · rfl
      · rename_i hversion
        rw [Bool.not_eq_true, Bool.not_eq_false'] at hformat hversion
        obtain ⟨mark, hmark, hformat⟩ :=
          lookup_of_equal (by simp [Value.equal, Value.sameScalar, Value.sameNumber]) hformat
        obtain ⟨number, hnumber, hversion⟩ :=
          lookup_of_equal (by simp [Value.equal, Value.sameScalar, Value.sameNumber]) hversion
        have hentries : Ends Malformed (fun k : Catalogue => k.definitions.WellFormed)
            (do decodeEntries .empty (← itemsOf (← part (.map p entries) "dependencies"))) :=
          (ends_part _ _).bind fun listed _ => (ends_itemsOf listed).bind fun items _ =>
            ends_decodeEntries items Container.wellFormed_empty
        refine (hentries.mapError fun f => kind_reported).mono (fun _ => id) fun k hk => ?_
        exact ⟨hk, p, entries, mark, number, rfl, hmark, hformat, hnumber, hversion⟩
  | _ => rfl

/-- Loading any text fails with a snapshot fault, or else it gives a well formed container, and what
was read is a document with the mark and the version of the encoder. -/
theorem loads_safe (text : String) :
    (∃ f, loads text = .error f ∧ f.kind = "SnapshotError") ∨
      ∃ k v, loads text = .ok k ∧ k.definitions.WellFormed ∧
        Json.read text = .ok v ∧ IsMarked v := by
  unfold loads
  cases hread : Json.read text with
  | error kind =>
    -- Text that is no document never gets as far as the decoder.
    refine Or.inl ⟨_, rfl, ?_⟩
    rw [if_pos (Json.isValueKind_of_read hread)]
    rfl
  | ok v =>
    refine (ends_decode v).cases.imp id fun ⟨k, hk, hwell, hmarked⟩ => ?_
    exact ⟨k, v, hk, hwell, rfl, hmarked⟩

end Snapshot

end Wiring
