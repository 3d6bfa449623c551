import Wiring.Proofs.Documents
import Wiring.Proofs.Overlays
import Wiring.Proofs.Placing

/-!
# `Wiring.Proofs.Layering`: the definitions that files can hold

A file spells everything out, so each property of an argument is a text or null, and it stands under
a text that the argument has once. `DefinitionOf.IsPlain` says so of a definition that could have
been declared. A declaration that is read is plain, and what is built from plain declarations over
plain definitions is plain again, whatever extends what.

`Overlay.plain_of_load` collects what follows for the catalogue of an application. Its definitions
look the same in every store (`IsFlat`), and a snapshot of them gives them back as they are
(`Snapshot.loads_dumps_of_plain`).
-/

set_option autoImplicit false

namespace Wiring

open Wiring.Files Wiring.Xml

/-! ### Plain definitions -/

/-- The argument has names, and its properties are texts or null, each under a text of its own. -/
structure Argument.IsPlain (a : Argument) : Prop where
  wellFormed : a.WellFormed
  nodup : (Value.textKeys a.properties).Nodup
  property : ∀ e ∈ a.properties, (∃ s, e.1 = .text s) ∧ (e.2 = .null ∨ ∃ s, e.2 = .text s)

/-- The call could have been declared, and its arguments are plain. -/
structure CallOf.IsPlain (c : Call) : Prop where
  wellFormed : CallOf.WellFormed c
  argument : ∀ a ∈ c.arguments, a.IsPlain

/-- The definition could have been declared, and the arguments of its calls are plain. -/
structure DefinitionOf.IsPlain (d : Definition) : Prop where
  wellFormed : DefinitionOf.WellFormed d
  constructor_call : ∀ c, d.constructor = some c → CallOf.IsPlain c
  call : ∀ e ∈ d.calls.entries, CallOf.IsPlain e.2

/-- A plain argument always looks the same. -/
theorem Argument.IsPlain.flat {a : Argument} (h : a.IsPlain) : a.IsFlat := by
  intro e he
  rcases (h.property e he).2 with hv | ⟨s, hv⟩ <;> rw [hv] <;> rfl

theorem CallOf.IsPlain.flat {c : Call} (h : CallOf.IsPlain c) : CallOf.IsFlat c :=
  fun a ha => (h.argument a ha).flat

theorem DefinitionOf.IsPlain.flat {d : Definition} (h : d.IsPlain) : d.IsFlat :=
  ⟨fun c hc => (h.constructor_call c hc).flat, fun e he => (h.call e he).flat⟩

/-- All arguments of a plain definition are plain. -/
theorem DefinitionOf.IsPlain.argument {d : Definition} (h : d.IsPlain) {a : Argument}
    (ha : a ∈ d.allArguments) : a.IsPlain := by
  obtain ⟨c, hc, ha⟩ := List.mem_flatMap.mp ha
  rcases List.mem_append.mp hc with hc | hc
  · exact (h.constructor_call c (Option.mem_toList.mp hc)).argument a ha
  · obtain ⟨e, he, rfl⟩ := List.mem_map.mp hc
    exact (h.call e he).argument a ha

/-! ### Declarations are plain -/

namespace Value

/-- A written entry is the only new one, and its key is the written one. -/
theorem mem_put_text {s : String} {v : Value} {entries : List (Value × Value)} {e : Value × Value}
    (h : e ∈ put (.text s) v entries) : e = (.text s, v) ∨ e ∈ entries := by
  induction entries with
  | nil => exact Or.inl (List.mem_singleton.mp h)
  | cons x rest ih =>
    obtain ⟨k, w⟩ := x
    rw [put] at h
    split at h
    · rename_i hk
      rcases List.mem_cons.mp h with rfl | h
      · exact Or.inl (by rw [sameScalar_text hk])
      · exact Or.inr (List.mem_cons_of_mem _ h)
    · rcases List.mem_cons.mp h with rfl | h
      · exact Or.inr List.mem_cons_self
      · exact (ih h).imp id (List.mem_cons_of_mem _)

/-- A key that is known keeps its place. -/
theorem textKeys_put_of_mem {s : String} {v : Value} {entries : List (Value × Value)}
    (h : s ∈ textKeys entries) : textKeys (put (.text s) v entries) = textKeys entries := by
  induction entries with
  | nil => cases h
  | cons e rest ih =>
    obtain ⟨k, x⟩ := e
    rw [put]
    split
    · rfl
    · rename_i hk
      -- The first key is another one, so the text is among the later keys.
      have hrest : s ∈ textKeys rest := by
        obtain ⟨e, he, hs⟩ := List.mem_filterMap.mp h
        rcases List.mem_cons.mp he with rfl | he
        · refine absurd ?_ hk
          cases k with
          | text t =>
            cases hs
            exact decide_eq_true rfl
          | _ => cases hs
        · exact List.mem_filterMap.mpr ⟨e, he, hs⟩
      have hsame := ih hrest
      unfold textKeys at hsame ⊢
      rw [List.filterMap_cons, List.filterMap_cons, hsame]

/-- Writing an entry repeats no key. -/
theorem nodup_textKeys_put {s : String} {v : Value} {entries : List (Value × Value)}
    (h : (textKeys entries).Nodup) : (textKeys (put (.text s) v entries)).Nodup := by
  by_cases hs : s ∈ textKeys entries
  · rw [textKeys_put_of_mem hs]
    exact h
  · rw [put_text hs, textKeys_append]
    exact h.append (List.nodup_singleton s) fun t ht ht' =>
      hs (List.mem_singleton.mp ht' ▸ ht)

end Value

/-- An attribute that is not empty is a name. -/
theorem Xml.Element.filled?_ne (e : Element) (name : String) : e.filled? name ≠ some "" := by
  unfold Element.filled?
  split
  · split
    · exact nofun
    · rename_i hne
      exact fun h => hne (Option.some.inj h)
  · exact nofun

/-- A definition with one more plain call is plain. -/
theorem DefinitionOf.plain_addCall {d : Definition} (hd : d.IsPlain) {c : Call}
    (hc : CallOf.IsPlain c) : (d.addCall c).IsPlain := by
  have hwell := wellFormed_addCall hd.wellFormed hc.wellFormed
  unfold addCall at hwell ⊢
  cases hplace : d.placeFor c with
  | constructor =>
    rw [hplace] at hwell
    refine ⟨hwell, fun k hk => ?_, hd.call⟩
    cases hk
    exact hc
  | keyed i =>
    rw [hplace] at hwell
    refine ⟨hwell, hd.constructor_call, fun e he => ?_⟩
    have hkept := (hwell.call e he).2.2
    rcases OrderedMap.mem_of_mem_put he with rfl | ho
    · exact ⟨hkept, hc.argument⟩
    · exact hd.call e ho

namespace Declaration

/-- The names of the declaration are not empty, it has a class unless it extends a definition, and
its calls are plain. -/
structure IsPlain (d : Declaration) : Prop where
  interface_ne : d.interface ≠ some ""
  className_ne : d.className ≠ some ""
  identifier_ne : d.identifier ≠ some ""
  interfaces_ne : "" ∉ d.interfaces
  extending : d.className = none → d.base.isSome = true
  call : ∀ c ∈ d.calls, CallOf.IsPlain c

/-- Properties are texts or null, each under a text of its own. -/
theorem plain_of_readProperties {method source : String} (es : List Element) :
    ∀ {read properties : List (Value × Value)},
      (Value.textKeys read).Nodup →
      (∀ e ∈ read, (∃ s, e.1 = .text s) ∧ (e.2 = .null ∨ ∃ s, e.2 = .text s)) →
      readProperties method source read es = .ok properties →
      (Value.textKeys properties).Nodup ∧
        ∀ e ∈ properties, (∃ s, e.1 = .text s) ∧ (e.2 = .null ∨ ∃ s, e.2 = .text s) := by
  induction es with
  | nil =>
    intro read properties hkeys hread h
    cases h
    exact ⟨hkeys, hread⟩
  | cons e rest ih =>
    intro read properties hkeys hread h
    rw [readProperties] at h
    split at h
    · cases h
    · rename_i name _
      refine ih (Value.nodup_textKeys_put hkeys) ?_ h
      intro x hx
      rcases Value.mem_put_text hx with rfl | hx
      · refine ⟨⟨name, rfl⟩, ?_⟩
        unfold attributeValue
        split
        · exact Or.inr ⟨_, rfl⟩
        · exact Or.inl rfl
      · exact hread x hx

/-- Arguments that are read are plain. -/
theorem plain_of_readArgument {method source : String} {e : Element} {a : Argument}
    (h : readArgument method source e = .ok a) : a.IsPlain := by
  unfold readArgument at h
  split at h
  · cases h
  · rename_i properties hproperties
    have h := Except.mapError_eq_ok.mp h
    have hnone : (Value.textKeys []).Nodup := List.nodup_nil
    obtain ⟨hkeys, hentries⟩ := plain_of_readProperties _ hnone
      (fun _ he => absurd he List.not_mem_nil) hproperties
    refine ⟨Argument.wellFormed_of_declare h, ?_, ?_⟩ <;>
      · unfold Argument.declare at h
        split at h
        · cases h
        · cases h
        · cases h
          assumption

/-- Calls that are read are plain. -/
theorem plain_of_readCall {owner : Option String} {source : String} {e : Element} {c : Call}
    (h : readCall owner source e = .ok c) : CallOf.IsPlain c := by
  unfold readCall at h
  split at h
  · cases h
  · rename_i method hmethod
    obtain ⟨arguments, harguments, h⟩ := Except.bind_eq_ok.mp h
    cases h
    have hplain : ∀ a ∈ arguments, a.IsPlain := by
      intro a ha
      obtain ⟨e, -, he⟩ := Except.exists_of_mem_mapM harguments a ha
      exact plain_of_readArgument he
    refine ⟨⟨?_, e.filled?_ne "id", fun a ha => (hplain a ha).wellFormed⟩, hplain⟩
    rintro rfl
    exact e.filled?_ne "method" hmethod

/-- Declarations that are read are plain. -/
theorem plain_of_readDependency {source : String} {e : Element} {d : Declaration}
    (h : readDependency source e = .ok d) : d.IsPlain := by
  unfold readDependency at h
  -- What remains after the check of what is extended.
  have hrest : (e.filled? "class" = none → (e.filled? "extends").isSome = true) →
      (do
        let interfaces ← (e.childrenTagged "interface").mapM
          (readInterface (e.filled? "class") source)
        let owner := (e.filled? "class").orElse fun _ => e.filled? "interface"
        let calls ← (e.childrenTagged "call").mapM (readCall owner source)
        .ok ⟨e.filled? "interface", e.filled? "class", e.filled? "id", e.filled? "extends",
          interfaces, calls, source⟩ : Except Fault Declaration) = .ok d →
      d.IsPlain := by
    intro hextending h
    obtain ⟨interfaces, hinterfaces, h⟩ := Except.bind_eq_ok.mp h
    obtain ⟨calls, hcalls, h⟩ := Except.bind_eq_ok.mp h
    cases h
    refine ⟨e.filled?_ne _, e.filled?_ne _, e.filled?_ne _, ?_, hextending, ?_⟩
    · intro hn
      obtain ⟨x, -, hx⟩ := Except.exists_of_mem_mapM hinterfaces _ hn
      unfold readInterface at hx
      split at hx
      · cases hx
      · rename_i hname
        cases hx
        exact x.filled?_ne _ hname
    · intro c hc
      obtain ⟨x, -, hx⟩ := Except.exists_of_mem_mapM hcalls c hc
      exact plain_of_readCall hx
  simp only at h
  split at h
  · split at h
    · cases h
    · rename_i hbase
      split at h
      · cases h
      · exact hrest (fun _ => by rw [hbase]; rfl) h
  · rename_i hclass
    refine hrest (fun hnone => ?_) h
    rw [hnone] at hclass
    exact absurd rfl hclass

/-- Declarations in a file are plain. -/
theorem plain_of_ofFile {t : Tree} {p : Path} {ds : List Declaration} (h : ofFile t p = .ok ds) :
    ∀ d ∈ ds, d.IsPlain := by
  unfold ofFile ofContent at h
  split at h
  · cases h
  · cases h
  · split at h
    · intro d hd
      obtain ⟨e, -, he⟩ := Except.exists_of_mem_mapM h d hd
      exact plain_of_readDependency he
    · cases h
    · cases h

/-! ### What plain declarations build -/

/-- What a plain declaration starts from is plain. -/
theorem plain_of_start {d : Declaration} (hd : d.IsPlain) {c : Container Definition}
    (hc : ∀ e ∈ c.entries, e.2.IsPlain) {y : Definition} {interface : Option String}
    (h : d.start c = .ok (y, interface)) : y.IsPlain := by
  cases hbase : d.base with
  | some reference =>
    -- An extended definition is a copy of its base, under another class and identifier.
    obtain ⟨-, -, b, hb, rfl⟩ := extended_eq_ok_iff.mp ((start_eq_ok_of_base hbase).mp h).1
    have hplain := hc _ (Container.mem_entries_iff.mpr hb)
    refine ⟨{ hplain.wellFormed with className_ne := ?_, identifier_ne := hd.identifier_ne },
      hplain.constructor_call, hplain.call⟩
    cases hname : d.className with
    | none => exact hplain.wellFormed.className_ne
    | some n => exact fun he => hd.className_ne (he ▸ hname)
  | none =>
    obtain ⟨hi, -, n, -, hn, rfl⟩ := (start_eq_ok_of_no_base hbase).mp h
    exact ⟨⟨hn, hi, List.not_mem_nil, List.nodup_nil, nofun, nofun⟩, nofun,
      fun e he => absurd he List.not_mem_nil⟩

/-- What is built from a plain declaration over plain definitions is plain. -/
theorem plain_of_define {d : Declaration} (hd : d.IsPlain) {c : Container Definition}
    (hc : ∀ e ∈ c.entries, e.2.IsPlain) {x : Definition} (h : d.define c = .ok x) : x.IsPlain := by
  have hcalls : ∀ (calls : List Call) (y : Definition), (∀ k ∈ calls, CallOf.IsPlain k) →
      y.IsPlain → (calls.foldl DefinitionOf.addCall y).IsPlain := by
    intro calls
    induction calls with
    | nil => exact fun y _ hy => hy
    | cons k rest ih =>
      intro y hcalls hy
      exact ih _ (fun k hk => hcalls k (List.mem_cons_of_mem _ hk))
        (DefinitionOf.plain_addCall hy (hcalls k List.mem_cons_self))
  unfold define at h
  obtain ⟨⟨y, interface⟩, hstart, h⟩ := Except.bind_eq_ok.mp h
  obtain ⟨interfaces, hinterfaces, h⟩ := Except.bind_eq_ok.mp h
  cases h
  have hplain := hcalls d.calls y hd.call (plain_of_start hd hc hstart)
  obtain ⟨hne, hnodup⟩ := DefinitionOf.checkInterfaces_wellFormed hinterfaces
  exact ⟨{ hplain.wellFormed with interfaces_ne := hne, interfaces_nodup := hnodup },
    hplain.constructor_call, hplain.call⟩

end Declaration

/-- A container holds only definitions that it was made of, under keys that name them. -/
theorem Container.mem_of_mem_ofDefinitions {built : List Definition}
    {e : DefinitionKey × Definition} (h : e ∈ (ofDefinitions built).entries) :
    e.2 ∈ built ∧ Targets e.2 e.1 := by
  have hfind := mem_entries_iff.mp (show (e.1, e.2) ∈ _ from h)
  rw [find?_ofDefinitions] at hfind
  have htargets := List.find?_some hfind
  exact ⟨List.mem_reverse.mp (List.mem_of_find?_eq_some hfind), of_decide_eq_true htargets⟩

/-- Plain declarations build plain definitions. -/
theorem Declaration.plain_of_built {ds : List Declaration} {built : List Definition}
    (hds : ∀ d ∈ ds, d.IsPlain) (hlength : built.length = ds.length)
    (hbuilt : ∀ n (hd : n < ds.length) (hb : n < built.length),
      ∃ k, applyAll .empty (ds.take n) = .ok k ∧
        k.definitions = Container.ofDefinitions (built.take n) ∧
        ds[n].define k.definitions = .ok built[n]) :
    ∀ x ∈ built, x.IsPlain := by
  have hall : ∀ n (hn : n < built.length), built[n].IsPlain := by
    intro n
    -- A definition may extend any of those that were built before it.
    induction n using Nat.strongRecOn with
    | ind n ih =>
      intro hn
      obtain ⟨k, -, hview, hx⟩ := hbuilt n (hlength ▸ hn) hn
      rw [hview] at hx
      refine plain_of_define (hds _ (List.getElem_mem (hlength ▸ hn))) ?_ hx
      intro e he
      obtain ⟨m, hm, hx⟩ := List.mem_take_iff_getElem.mp (Container.mem_of_mem_ofDefinitions he).1
      rw [← hx]
      exact ih m (by omega) (by omega)
  intro x hx
  obtain ⟨n, hn, rfl⟩ := List.mem_iff_getElem.mp hx
  exact hall n hn

/-- A container of plain definitions could have been declared. -/
theorem Container.wellFormed_ofDefinitions {built : List Definition}
    (h : ∀ x ∈ built, x.IsPlain) : (ofDefinitions built).WellFormed where
  filled := by
    unfold ofDefinitions
    suffices hfold : ∀ c : Container Definition, c.Filled →
        (built.foldl (fun c x => c.add x.interfaces x.identifier x) c).Filled from
      hfold .empty filled_empty
    induction built with
    | nil => exact fun c hc => hc
    | cons x rest ih =>
      intro c hc
      exact ih (fun y hy => h y (List.mem_cons_of_mem _ hy)) _ (filled_add hc _ _ _)
  entry := by
    intro e he
    obtain ⟨hx, hinterface, hidentifier⟩ := mem_of_mem_ofDefinitions he
    refine ⟨?_, hidentifier, (h _ hx).wellFormed⟩
    exact fun hempty => (h _ hx).wellFormed.interfaces_ne (hempty ▸ hinterface)

/-! ### Catalogues of plain definitions -/

/-- A run of declarations keeps the numbers of a catalogue in order. -/
theorem Catalogue.numbered_applyAll (ds : List Declaration) :
    ∀ {c c' : Catalogue}, c.Numbered → Declaration.applyAll c ds = .ok c' → c'.Numbered := by
  induction ds with
  | nil =>
    intro c c' hc h
    cases h
    exact hc
  | cons d rest ih =>
    intro c c' hc h
    rw [Declaration.applyAll] at h
    split at h
    · cases h
    · rename_i next hnext
      obtain ⟨x, -, rfl⟩ := Declaration.apply_eq_ok_iff.mp hnext
      exact ih (Catalogue.numbered_add hc _ _) h

/-- Files that load give a definition for each declaration, all of them plain, in a catalogue whose
numbers are in order. -/
theorem Overlay.built_of_load {t : Tree} {paths : List Path} {k : Catalogue}
    (h : (load t .empty paths).2 = .ok k) :
    let ds := paths.flatMap (Declaration.inFile t)
    (∀ p ∈ paths, ∃ ds, Declaration.ofFile t p = .ok ds) ∧ k.Numbered ∧
      ∃ built : List Definition, built.length = ds.length ∧ (∀ x ∈ built, x.IsPlain) ∧
        (∀ n (hd : n < ds.length) (hb : n < built.length),
          ∃ k, Declaration.applyAll .empty (ds.take n) = .ok k ∧
            k.definitions = Container.ofDefinitions (built.take n) ∧
            ds[n].define k.definitions = .ok built[n]) ∧
        k.definitions = Container.ofDefinitions built := by
  intro ds
  obtain ⟨hread, happly⟩ := Overlay.load_eq_ok _ _ h
  obtain ⟨built, hlength, hbuilt, hdefinitions⟩ :=
    Declaration.applyAll_eq_ok ds (b := []) rfl happly
  refine ⟨hread, Catalogue.numbered_applyAll ds Catalogue.numbered_empty happly, built, hlength,
    Declaration.plain_of_built ?_ hlength hbuilt, hbuilt, hdefinitions⟩
  intro d hd
  obtain ⟨p, hp, hd⟩ := List.mem_flatMap.mp hd
  obtain ⟨found, hfound⟩ := hread p hp
  rw [Declaration.inFile, hfound] at hd
  exact Declaration.plain_of_ofFile hfound d hd

/-- The definitions of files that load are plain, and could have been declared as they stand in the
catalogue. -/
theorem Overlay.plain_of_load {t : Tree} {paths : List Path} {k : Catalogue}
    (h : (load t .empty paths).2 = .ok k) :
    k.Numbered ∧ k.definitions.WellFormed ∧ ∀ e ∈ k.definitions.entries, e.2.IsPlain := by
  obtain ⟨-, hnumbered, built, -, hplain, -, hdefinitions⟩ := built_of_load h
  rw [hdefinitions]
  exact ⟨hnumbered, Container.wellFormed_ofDefinitions hplain,
    fun e he => hplain _ (Container.mem_of_mem_ofDefinitions he).1⟩

/-- The definitions of an overlay's catalogue are plain. -/
theorem Overlay.plain_of_catalogue {o : Overlay} {b : Browser} {t : Tree} {k : Catalogue}
    (h : o.catalogue b t = .ok k) :
    k.Numbered ∧ k.definitions.WellFormed ∧ ∀ e ∈ k.definitions.entries, e.2.IsPlain := by
  unfold catalogue at h
  split at h
  · cases h
  · exact plain_of_load h

/-! ### Snapshots of plain definitions -/

namespace Snapshot

/-- A record of readable values under different names is readable. -/
theorem isReadable_record {fields : List (String × Value)} (hkeys : (fields.map Prod.fst).Nodup)
    (h : ∀ f ∈ fields, f.2.isReadable = true) : (record fields).isReadable = true := by
  have htexts : Value.textKeys (fields.map fun f => (.text f.1, f.2)) = fields.map Prod.fst := by
    induction fields with
    | nil => rfl
    | cons f rest ih =>
      exact congrArg (f.1 :: ·) (ih (List.nodup_cons.mp hkeys).2
        fun g hg => h g (List.mem_cons_of_mem _ hg))
  have hvalues : Value.entriesAreReadable (fields.map fun f => (.text f.1, f.2)) = true := by
    clear htexts hkeys
    induction fields with
    | nil => rfl
    | cons f rest ih =>
      rw [List.map_cons, Value.entriesAreReadable, h f List.mem_cons_self,
        ih fun g hg => h g (List.mem_cons_of_mem _ hg)]
      rfl
  rw [record, Value.isReadable, htexts, hvalues, decide_eq_true hkeys]
  rfl

/-- A list of readable values is readable. -/
theorem isReadable_list {α : Type} {f : α → Value} {l : List α}
    (h : ∀ a ∈ l, (f a).isReadable = true) : (Value.list none (l.map f)).isReadable = true := by
  rw [Value.isReadable]
  induction l with
  | nil => rfl
  | cons a rest ih =>
    rw [List.map_cons, Value.areReadable, h a List.mem_cons_self,
      ih fun b hb => h b (List.mem_cons_of_mem _ hb)]
    rfl

theorem isReadable_optional (i : Option String) : (Value.optional i).isReadable = true := by
  cases i <;> rfl

/-- The properties of a plain argument can be written. -/
theorem entriesObstacle?_of_isPlain {a : Argument} (h : a.IsPlain) :
    Json.entriesObstacle? [] a.properties = none := by
  have hentries : ∀ entries : List (Value × Value),
      (∀ e ∈ entries, (∃ s, e.1 = .text s) ∧ (e.2 = .null ∨ ∃ s, e.2 = .text s)) →
      Json.entriesObstacle? [] entries = none := by
    intro entries
    induction entries with
    | nil => exact fun _ => rfl
    | cons e rest ih =>
      intro h
      obtain ⟨k, v⟩ := e
      obtain ⟨⟨s, rfl⟩, hv⟩ := h (k, v) List.mem_cons_self
      rw [Json.entriesObstacle?, ih fun e he => h e (List.mem_cons_of_mem _ he)]
      rcases hv with rfl | ⟨t, rfl⟩ <;> rfl
  exact hentries _ h.property

/-- The properties of a plain argument are readable. -/
theorem isReadable_properties {a : Argument} (h : a.IsPlain) :
    (Value.map none a.properties).isReadable = true := by
  have hentries : ∀ entries : List (Value × Value),
      (∀ e ∈ entries, (∃ s, e.1 = .text s) ∧ (e.2 = .null ∨ ∃ s, e.2 = .text s)) →
      Value.entriesAreReadable entries = true := by
    intro entries
    induction entries with
    | nil => exact fun _ => rfl
    | cons e rest ih =>
      intro h
      obtain ⟨k, v⟩ := e
      obtain ⟨⟨s, rfl⟩, hv⟩ := h (k, v) List.mem_cons_self
      rw [Value.entriesAreReadable, ih fun e he => h e (List.mem_cons_of_mem _ he)]
      rcases hv with rfl | ⟨t, rfl⟩ <;> rfl
  rw [Value.isReadable, hentries _ h.property, decide_eq_true h.nodup]
  rfl

theorem isReadable_encodeArgument {a : Argument} (h : a.IsPlain) :
    (encodeArgument a).isReadable = true := by
  refine isReadable_record (by simp) ?_
  simp only [List.forall_mem_cons]
  exact ⟨rfl, rfl, isReadable_properties h, nofun⟩

theorem isReadable_encodeCall {c : Call} (h : CallOf.IsPlain c) :
    (encodeCall c).isReadable = true := by
  have harguments : (Value.list none (c.arguments.map encodeArgument)).isReadable = true :=
    isReadable_list fun a ha => isReadable_encodeArgument (h.argument a ha)
  refine isReadable_record (by simp) ?_
  simp only [List.forall_mem_cons]
  exact ⟨rfl, isReadable_optional _, harguments, nofun⟩

theorem isReadable_encodeEntry {d : Definition} (h : d.IsPlain) (interface : String) :
    (encodeEntry interface d).isReadable = true := by
  have hinterfaces : (Value.list none (d.interfaces.map .text)).isReadable = true :=
    isReadable_list fun _ _ => rfl
  have hconstructor : ((d.constructor.map encodeCall).getD .null).isReadable = true := by
    cases hc : d.constructor with
    | none => rfl
    | some c => exact isReadable_encodeCall (h.constructor_call c hc)
  have hcalls : (Value.list none (d.callList.map encodeCall)).isReadable = true := by
    refine isReadable_list fun c hc => ?_
    obtain ⟨e, he, rfl⟩ := List.mem_map.mp hc
    exact isReadable_encodeCall (h.call e he)
  refine isReadable_record (by simp) ?_
  simp only [List.forall_mem_cons]
  exact ⟨rfl, rfl, isReadable_optional _, hinterfaces, hconstructor, hcalls, nofun⟩

/-- The document of a container with plain definitions is readable. -/
theorem isReadable_encode {c : Container Definition} (h : ∀ e ∈ c.entries, e.2.IsPlain) :
    (encode c).isReadable = true := by
  have hentries : (Value.list none (c.toList.map fun e => encodeEntry e.1 e.2)).isReadable
      = true := by
    refine isReadable_list fun e he => ?_
    obtain ⟨x, hx, rfl⟩ := List.mem_map.mp he
    exact isReadable_encodeEntry (h x hx) _
  have hversion : (Value.int version).isReadable = true := by decide
  refine isReadable_record (by simp) ?_
  simp only [List.forall_mem_cons]
  exact ⟨rfl, hversion, hentries, nofun⟩

/-- Plain arguments hold no places. -/
theorem bare_argument {a : Argument} (h : a.IsPlain) : a.bare = a := by
  unfold Argument.bare
  rw [Value.bareEntries_eq_map, List.map_congr_left (g := id), List.map_id]
  intro e he
  obtain ⟨k, v⟩ := e
  rcases (h.property _ he).2 with hv | ⟨s, hv⟩
  · cases hv
    rfl
  · cases hv
    rfl

theorem bare_call {c : Call} (h : CallOf.IsPlain c) : c.map Argument.bare = c := by
  have hsame : c.arguments.map Argument.bare = c.arguments.map id :=
    List.map_congr_left fun a ha => bare_argument (h.argument a ha)
  unfold CallOf.map
  rw [hsame, List.map_id]

theorem bare_definition {d : Definition} (h : d.IsPlain) :
    d.mapArguments Argument.bare = d := by
  have hconstructor : d.constructor.map (CallOf.map Argument.bare) = d.constructor := by
    cases hc : d.constructor with
    | none => rfl
    | some c => exact congrArg some (bare_call (h.constructor_call c hc))
  have hcalls : d.calls.map (CallOf.map Argument.bare) = d.calls := by
    apply OrderedMap.ext
    show d.calls.entries.map (fun e => (e.1, e.2.map Argument.bare)) = d.calls.entries
    rw [List.map_congr_left (g := id) fun e he => by rw [bare_call (h.call e he)]; rfl, List.map_id]
  unfold DefinitionOf.mapArguments DefinitionOf.map
  rw [hconstructor, hcalls]

/-- A container with plain definitions holds no places. -/
theorem bare_container {c : Container Definition} (h : ∀ e ∈ c.entries, e.2.IsPlain) :
    c.bare = c := by
  unfold Container.bare
  rw [Container.map_congr (g := id) fun e he => bare_definition (h e he), Container.map_id]

/-- What holds of the catalogue without definitions and is kept by every addition holds of a
catalogue that is loaded. -/
theorem loads_induction {P : Catalogue → Prop} (hempty : P .empty)
    (hadd : ∀ c names d, P c → P (c.add names d)) {text : String} {k : Catalogue}
    (h : loads text = .ok k) : P k := by
  -- Along the items of the document.
  have hentries : ∀ (vs : List Value) {c k : Catalogue}, P c → decodeEntries c vs = .ok k → P k := by
    intro vs
    induction vs with
    | nil =>
      intro c k hc h
      cases h
      exact hc
    | cons v rest ih =>
      intro c k hc h
      rw [decodeEntries] at h
      obtain ⟨interface, -, h⟩ := Except.bind_eq_ok.mp h
      obtain ⟨d, -, h⟩ := Except.bind_eq_ok.mp h
      obtain ⟨names, -, h⟩ := Except.bind_eq_ok.mp h
      exact ih (hadd _ _ _ hc) h
  unfold loads decode at h
  split at h
  · cases h
  · split at h
    · dsimp only at h
      split at h
      · cases h
      · split at h
        · cases h
        · obtain ⟨dependencies, -, h⟩ := Except.bind_eq_ok.mp (Except.mapError_eq_ok.mp h)
          obtain ⟨items, -, h⟩ := Except.bind_eq_ok.mp h
          exact hentries items hempty h
    · cases h

/-- A catalogue that is loaded has its numbers in order. -/
theorem numbered_of_loads {text : String} {k : Catalogue} (h : loads text = .ok k) : k.Numbered :=
  loads_induction Catalogue.numbered_empty (fun _ names d hc => Catalogue.numbered_add hc names d) h

/-- The definitions of a catalogue that is loaded stand under their own identifiers. -/
theorem ownKeys_of_loads {text : String} {k : Catalogue} (h : loads text = .ok k) :
    k.definitions.OwnKeys :=
  loads_induction (P := fun c => c.definitions.OwnKeys) nofun
    (fun _ names d hc => Catalogue.ownKeys_add hc names d) h

/-- A snapshot gives a container of plain definitions back as it is. -/
theorem loads_dumps_of_plain {c : Container Definition} (hc : c.WellFormed)
    (hplain : ∀ e ∈ c.entries, e.2.IsPlain) :
    ∃ text k, dumps? c = some text ∧ loads text = .ok k ∧ k.Numbered ∧ k.definitions = c := by
  have hjson : c.HasJsonProperties := by
    intro e he a ha
    have hreadable := isReadable_properties ((hplain e he).argument ha)
    rw [Value.isReadable, Bool.and_eq_true] at hreadable
    exact ⟨Value.entriesAreJson_of_entriesAreReadable _ hreadable.2,
      entriesObstacle?_of_isPlain ((hplain e he).argument ha)⟩
  obtain ⟨text, k, htext, hk, hdefinitions⟩ :=
    loads_of_dumps? hc hjson (Json.undone_of_isReadable (isReadable_encode hplain))
  exact ⟨text, k, htext, hk, numbered_of_loads hk, hdefinitions.trans (bare_container hplain)⟩

end Snapshot

end Wiring
