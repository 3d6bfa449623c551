import Wiring.Proofs.Copying
import Wiring.Proofs.Mirroring
import Wiring.Proofs.Substituting

/-!
# `Wiring.Proofs.Dependencies`: dependencies that are spelled out

A parameter without argument and default is requested by the class that it wants. A declared
argument can make the same request: `Argument.dependency` on the interface of this class. The one is
made while the arguments are bound, the other one before that. `Spelled` says of two lists of
arguments that the second one has such dependencies behind those of the first one, for the first
parameters that would be requested otherwise. As no parameter is passed over, the requests are made
in the same order.

`Work.Coincides` says of two pieces of work that they do the same until a member of a component is
run. `coincides_spelled` says it of what is called with the one arguments and with the other ones.
Where a parameter wants no class, it has no dependency either, and what is called with any of the
two fails (`isOk_of_unwanted`). `conforms_spelled` puts this together for two injectors.
-/

set_option autoImplicit false

namespace Wiring

open Work Store

/-! ### Spelling out -/

/-- The dependency on an interface, and on nothing but it. -/
def Argument.dependency (name interface : String) : Argument :=
  ⟨name, "dependency", [(.text "interface", .text interface)]⟩

/-- Whether a parameter takes a single argument and has neither a declared one nor a default. -/
def Param.bare (declared : List Argument) (q : Param) : Bool :=
  q.single && q.name ∉ declared.map Argument.name && q.default.isNone

/-- The dependencies on what some parameters want. A parameter that wants no class has none. -/
def Registry.dependencies (g : Registry) (p : Program) (resolved : Bool) (wanting : List Param) :
    List Argument :=
  wanting.filterMap fun q =>
    (p.wanted? resolved q.annotation).map fun c => .dependency q.name (g.interfaceName p c)

/-- The second arguments are the first ones, with dependencies behind them on what the first bare
parameters want. In the strict sense each of these wants a class. -/
structure Spelled (strict : Prop) (g : Registry) (p : Program) (params : List Param)
    (declared spelled : List Argument) : Prop where
  names : (params.map Param.name).Nodup
  added : ∃ first, first <+: params.filter (Param.bare declared) ∧
    spelled = declared ++ g.dependencies p (p.resolves params) first ∧
    (strict → ∀ q ∈ first, (p.wanted? (p.resolves params) q.annotation).isSome = true)

theorem Program.fullName_ne_empty (p : Program) (c : ClassRef) : p.fullName c ≠ "" := fun he => by
  have hlength := congrArg String.length he
  simp [fullName, String.length_append] at hlength

/-- An interface is known by some name, unless a class is registered without one. -/
theorem Registry.interfaceName_ne_empty {g : Registry} (h : g.classes.get? "" = none) (p : Program)
    (c : ClassRef) : g.interfaceName p c ≠ "" := by
  unfold interfaceName
  cases hfound : g.classes.entries.find? fun e => e.2 = c with
  | none => exact p.fullName_ne_empty c
  | some e =>
    intro he
    have he : e.1 = "" := he
    have hget := OrderedMap.get?_eq_some_iff.mpr (List.mem_of_find?_eq_some hfound)
    rw [he, h] at hget
    cases hget

/-- No class is registered without a name. -/
theorem Registry.named_register {g : Registry} (h : g.classes.get? "" = none) (p : Program)
    (c : ClassRef) (name : Option String) : (g.register p c name).classes.get? "" = none := by
  have hname : nameOr name (p.fullName c) ≠ "" := by
    unfold nameOr
    split
    · split
      · exact p.fullName_ne_empty c
      · assumption
    · exact p.fullName_ne_empty c
  unfold register
  rw [OrderedMap.get?_insert_of_ne _ _ (Ne.symm hname)]
  exact h

/-! ### Binding in two steps -/

section Found

variable {found vs ws : List (String × Value)} {params first rest : List Param} {q : Param}
  {declared : List Argument}

theorem isNone_lookup (l : List (String × Value)) (n : String) :
    (l.lookup n).isNone = decide (n ∉ l.map Prod.fst) := by
  by_cases h : n ∈ l.map Prod.fst
  · rw [Option.isNone_eq_false_iff.mpr (Registry.isSome_lookup_of_mem h)]
    simp [h]
  · rw [lookup_eq_none_of_not_mem h]
    simp [h]

/-- Where the declared arguments have values, the bare parameters are asked for. -/
theorem Param.asked_eq_bare (h : ∀ n, n ∈ found.map Prod.fst ↔ n ∈ declared.map Argument.name) :
    q.asked found = q.bare declared := by
  unfold asked bare
  rw [isNone_lookup]
  simp only [h]

/-- What has a value among some more is no longer asked for. -/
theorem Param.asked_append :
    q.asked (found ++ vs) = (q.asked found && decide (q.name ∉ vs.map Prod.fst)) := by
  unfold asked
  rw [isNone_lookup, isNone_lookup, List.map_append]
  simp only [List.mem_append, not_or, Bool.decide_and]
  ac_rfl

namespace Registry

section Split

variable (hnames : (params.map Param.name).Nodup)
  (hsplit : params.filter (Param.asked found) = first ++ rest)
  (hvs : vs.map Prod.fst = first.map Param.name)

include hsplit in
theorem asked_of_mem_first (hq : q ∈ first) : q ∈ params ∧ q.asked found = true :=
  List.mem_filter.mp (hsplit ▸ List.mem_append_left _ hq)

include hsplit hvs in
/-- Values of parameters are not left over. -/
theorem leftover_append : leftover (found ++ vs) params = leftover found params := by
  unfold leftover
  rw [List.filter_append]
  refine List.append_right_eq_self.mpr (List.filter_eq_nil_iff.mpr fun e he => ?_)
  have hmem : e.1 ∈ first.map Param.name := hvs ▸ List.mem_map_of_mem he
  obtain ⟨x, hx, hname⟩ := List.mem_map.mp hmem
  obtain ⟨hxp, hasked⟩ := asked_of_mem_first hsplit hx
  have hsingle : x.single = true := by
    by_contra hx
    rw [asked_of_collector (Bool.eq_false_iff.mpr hx)] at hasked
    cases hasked
  have hany : (params.any fun q => q.single && q.name = e.1) = true :=
    List.any_eq_true.mpr ⟨x, hxp, by simp [hsingle, hname]⟩
  simp [hany]

include hnames hsplit hvs

/-- The parameters that are still asked for when the first ones have values. -/
theorem filter_asked_append : params.filter (Param.asked (found ++ vs)) = rest := by
  have hnodup : ((first ++ rest).map Param.name).Nodup :=
    hsplit ▸ hnames.sublist (List.filter_sublist.map Param.name)
  rw [List.map_append] at hnodup
  have hsame : params.filter (Param.asked (found ++ vs))
      = (params.filter (Param.asked found)).filter fun q => q.name ∉ first.map Param.name := by
    rw [List.filter_filter]
    refine List.filter_congr fun q _ => ?_
    rw [Param.asked_append, hvs, Bool.and_comm]
  rw [hsame, hsplit, List.filter_append, List.filter_eq_nil_iff.mpr, List.nil_append,
    List.filter_eq_self.mpr]
  · intro q hq
    exact decide_eq_true fun hmem =>
      List.disjoint_of_nodup_append hnodup hmem (List.mem_map_of_mem hq)
  · intro q hq
    simpa using ⟨q, hq, rfl⟩

/-- A parameter gets the same value, whether it was found before the binding or during it. -/
theorem filling_append (hq : q ∈ params) :
    q.filling (found ++ vs) ws = q.filling found (vs ++ ws) := by
  unfold Param.filling
  split
  · rename_i hsingle
    rw [List.lookup_append, List.lookup_append]
    cases hv : found.lookup q.name with
    | some v => rfl
    | none =>
      rw [Option.none_or]
      by_cases hdefault : q.default.isSome = true
      · -- A parameter with a default was not asked for.
        have hmissing : vs.lookup q.name = none := by
          refine lookup_eq_none_of_not_mem fun hmem => ?_
          rw [hvs] at hmem
          obtain ⟨x, hx, hname⟩ := List.mem_map.mp hmem
          obtain ⟨hxp, hasked⟩ := asked_of_mem_first hsplit hx
          obtain rfl := List.inj_on_of_nodup_map hnames hxp hq hname
          unfold Param.asked at hasked
          rw [Option.isNone_eq_false_iff.mpr hdefault, Bool.and_false] at hasked
          cases hasked
        rw [hmissing, Option.none_or, if_pos hdefault]
      · cases hw : vs.lookup q.name with
        | some w => simp [hdefault]
        | none => simp [hdefault]
  · rfl

end Split

/-- What binding passes, once it has the values of the parameters that it asks for. -/
def packed (p : Program) (c : Callable) (params : List Param)
    (arguments found : List (String × Value)) : Work Failure Passed :=
  if (leftover arguments params).isEmpty || params.any (fun q => q.kind = .options) then
    pure ⟨(passing arguments found params).positional,
      (passing arguments found params).named ++ leftover arguments params⟩
  else throw (.plain (.definition (.argumentsUnknown ((leftover arguments params).map Prod.fst)
    (c.name p))))

theorem bind_eq_packed (g : Registry) {p : Program} {c : Callable}
    (hparams : c.params? p = some params) (hnames : (params.map Param.name).Nodup)
    (arguments : List (String × Value)) (inject : Option Injection) :
    g.bind p c arguments inject
      = (params.filter (Param.asked arguments)).mapM
          (g.askFor p (p.resolves params) (c.name p) inject) >>= packed p c params arguments :=
  g.bind_eq p hparams hnames arguments inject

/-- The values of some parameters may be found before the binding, if they are those that are asked
for first. -/
theorem bind_eq_append (g : Registry) {p : Program} {c : Callable}
    (hparams : c.params? p = some params) (hnames : (params.map Param.name).Nodup)
    (hsplit : params.filter (Param.asked found) = first ++ rest)
    (hvs : vs.map Prod.fst = first.map Param.name) (inject : Option Injection) :
    g.bind p c (found ++ vs) inject
      = rest.mapM (g.askFor p (p.resolves params) (c.name p) inject) >>= fun ws =>
        packed p c params found (vs ++ ws) := by
  rw [g.bind_eq_packed hparams hnames, filter_asked_append hnames hsplit hvs]
  refine bind_congr fun ws => ?_
  unfold packed
  rw [leftover_append hsplit hvs,
    passing_congr fun q hq => filling_append hnames hsplit hvs hq]

end Registry

/-- A parameter that wants no class stays bare where the others have their dependencies. -/
theorem bare_dependencies {g : Registry} {p : Program} {resolved : Bool}
    (hnames : (params.map Param.name).Nodup)
    (hfirst : first <+: params.filter (Param.bare declared)) (hq : q ∈ first)
    (hunwanted : p.wanted? resolved q.annotation = none) :
    q.bare (declared ++ g.dependencies p resolved first) = true := by
  obtain ⟨hqp, hbare⟩ := List.mem_filter.mp (hfirst.subset hq)
  have hfresh : q.name ∉ (g.dependencies p resolved first).map Argument.name := by
    intro hmem
    obtain ⟨a, ha, hname⟩ := List.mem_map.mp hmem
    obtain ⟨x, hx, hxa⟩ := List.mem_filterMap.mp ha
    obtain ⟨k, hk, rfl⟩ := Option.map_eq_some_iff.mp hxa
    obtain rfl :=
      List.inj_on_of_nodup_map hnames (List.mem_filter.mp (hfirst.subset hx)).1 hqp hname
    rw [hk] at hunwanted
    cases hunwanted
  unfold Param.bare at hbare ⊢
  rw [List.map_append]
  simp only [List.mem_append, not_or, hfresh, not_false_eq_true, and_true]
  exact hbare

/-- Either each of the parameters whose dependencies are spelled out wants a class, or one that
wants none stays bare. -/
theorem Spelled.cases {strict : Prop} {g : Registry} {p : Program} {spelled : List Argument}
    (h : Spelled strict g p params declared spelled) :
    (∃ first, first <+: params.filter (Param.bare declared) ∧
      spelled = declared ++ g.dependencies p (p.resolves params) first ∧
      ∀ q ∈ first, (p.wanted? (p.resolves params) q.annotation).isSome = true) ∨
    (¬strict ∧ ∃ q ∈ params, q.bare declared = true ∧ q.bare spelled = true ∧
      p.wanted? (p.resolves params) q.annotation = none) := by
  obtain ⟨hnames, first, hfirst, rfl, hstrict⟩ := h
  by_cases hall : ∀ q ∈ first, (p.wanted? (p.resolves params) q.annotation).isSome = true
  · exact .inl ⟨first, hfirst, rfl, hall⟩
  · obtain ⟨q, hq, hunwanted⟩ : ∃ q ∈ first,
        p.wanted? (p.resolves params) q.annotation = none := by
      simpa using hall
    obtain ⟨hqp, hbare⟩ := List.mem_filter.mp (hfirst.subset hq)
    exact .inr ⟨fun hs => hall (hstrict hs), q, hqp, hbare,
      bare_dependencies hnames hfirst hq hunwanted, hunwanted⟩

/-- Cells that hold the dependencies on what some parameters want, one for each of them. -/
theorem forall₂_dependencies {s : Store} {g : Registry} {p : Program} {resolved : Bool}
    {added : List (Ref Argument)}
    (hall : ∀ q ∈ first, (p.wanted? resolved q.annotation).isSome = true)
    (hheld : ∀ a ∈ added, s.arguments.Holds a)
    (h : added.map s.arguments.get = g.dependencies p resolved first) :
    List.Forall₂ (fun q a => s.arguments.Holds a ∧ ∃ k, p.wanted? resolved q.annotation = some k ∧
      s.arguments.get a = .dependency q.name (g.interfaceName p k)) first added := by
  induction first generalizing added with
  | nil =>
    cases List.map_eq_nil_iff.mp h
    exact .nil
  | cons q first ih =>
    obtain ⟨hq, hall⟩ := List.forall_mem_cons.mp hall
    obtain ⟨k, hk⟩ := Option.isSome_iff_exists.mp hq
    have hcons : g.dependencies p resolved (q :: first)
        = .dependency q.name (g.interfaceName p k) :: g.dependencies p resolved first := by
      unfold Registry.dependencies
      rw [List.filterMap_cons, hk]
      rfl
    cases added with
    | nil =>
      rw [hcons] at h
      cases h
    | cons a added =>
      rw [hcons, List.map_cons] at h
      obtain ⟨ha, hrest⟩ := List.cons.inj h
      obtain ⟨hheld, hmore⟩ := List.forall_mem_cons.mp hheld
      exact .cons ⟨hheld, k, hk, ha⟩ (ih hall hmore hrest)

end Found

/-! ### Work that does the same -/

namespace Work

variable {ε α β : Type} [Telling ε] {s₀ : Store} {O : List DefinitionKey}

/-- Two pieces of work that do the same from every store that grew from a given one, until a member
of a component is run. -/
structure Coincides (s₀ : Store) (O : List DefinitionKey) (w v : Work ε α) : Prop where
  there : Agrees s₀.Grows O w v
  back : Agrees s₀.Grows O v w

variable {w v : Work ε α}

/-- Work that does the same from such stores in any case. -/
theorem coincides_of_run (hw : Agrees s₀.Grows O w w)
    (hd : Conforms (.same True) (fun _ => False) O O v v)
    (h : ∀ s, s₀.Grows s → v.run s = w.run s) : Coincides s₀ O w v :=
  ⟨hw.of_run fun _ _ hs => h _ { hs with }, .of_left hw hd h⟩

/-- Work may be replaced by other work that does the same from such stores. -/
theorem Coincides.of_left {u : Work ε α} (h : Coincides s₀ O w v)
    (hd : Conforms (.same True) (fun _ => False) O O u u)
    (hrun : ∀ s, s₀.Grows s → u.run s = w.run s) : Coincides s₀ O u v :=
  ⟨.of_left h.there hd hrun, h.back.of_run fun _ _ hs => hrun _ { hs with }⟩

theorem Coincides.symm (h : Coincides s₀ O w v) : Coincides s₀ O v w := ⟨h.back, h.there⟩

/-- One piece of work, and then two others that do the same after it. -/
theorem coincides_bind {f g : α → Work ε β} (hw : Agrees s₀.Grows O w w)
    (hf : ∀ a, Conforms (.same True) (fun _ => False) O O (f a) (f a))
    (hg : ∀ a, Conforms (.same True) (fun _ => False) O O (g a) (g a))
    (h : ∀ s a t, s₀.Grows s → underConstruction s.journal = O → w.run s = (.ok a, t) →
      Undisturbed t.journal → s₀.Grows t → Coincides s₀ O (f a) (g a)) :
    Coincides s₀ O (w >>= f) (w >>= g) :=
  ⟨hw.bind_from hf fun s a t hs hO hrun hu ht =>
      ⟨_, ht, fun _ h => h, (h s a t hs hO hrun hu ht).there⟩,
    hw.bind_from hg fun s a t hs hO hrun hu ht =>
      ⟨_, ht, fun _ h => h, (h s a t hs hO hrun hu ht).back⟩⟩

/-- What conforms to other work may be replaced by what it agrees with. -/
theorem Conforms.after {strict : Prop} {w' : Work ε α} (hw : Agrees s₀.Grows O w v)
    (h : Conforms (.unnumbered strict) s₀.Grows O O v w') :
    Conforms (.unnumbered strict) s₀.Grows O O w w' := by
  refine ⟨hw.disturbed, fun s j hs halike hO hu hcounts => ?_⟩
  obtain ⟨hsame, -⟩ := hw.agrees s hs hO hu
  rw [← hsame] at hu hcounts ⊢
  exact h.conforms s j hs halike hO hu hcounts

section Failing

variable {ε α β : Type} {w : Work ε α} {f : α → Work ε β} {s : Store}

theorem isOk_bind (h : (w.run s).1.isOk = false) : ((w >>= f).run s).1.isOk = false := by
  cases hrun : w.run s with
  | mk result t =>
    rw [hrun] at h
    cases result with
    | ok a => cases h
    | error e =>
      rw [run_bind_error hrun]
      rfl

/-- One piece of work that never succeeds is enough for many to fail. -/
theorem isOk_mapM {g : α → Work ε β} {l : List α} {a : α} (ha : a ∈ l)
    (hg : ∀ s, ((g a).run s).1.isOk = false) (s : Store) : ((l.mapM g).run s).1.isOk = false := by
  induction l generalizing s with
  | nil => cases ha
  | cons x rest ih =>
    rw [List.mapM_cons]
    rcases List.mem_cons.mp ha with rfl | ha
    · exact isOk_bind (hg s)
    · cases hrun : (g x).run s with
      | mk result t =>
        cases result with
        | error e =>
          rw [run_bind_error hrun]
          rfl
        | ok b =>
          rw [run_bind_ok hrun]
          exact isOk_bind (ih ha t)

end Failing

end Work

/-! ### Requests of arguments and of parameters -/

/-- The registry of an injector. -/
def Store.registryOf (s : Store) (r : Ref Injector) : Registry :=
  s.registries.get (s.injectors.get r).registry

/-- An injector whose registry knows no class by an empty name (`Registry.named_register`), and that
finds the values of dependencies. -/
structure Store.Injecting (s : Store) (r : Ref Injector) : Prop where
  held : s.injectors.Holds r
  registered : s.registries.Holds (s.injectors.get r).registry
  named : (s.registryOf r).classes.get? "" = none
  parser : ∃ own, (s.injectors.get r).parsers.get? "dependency" = some (.dependency own)

section Injecting

variable {s₀ s t : Store} {r : Ref Injector} {answer : Answering} {b : Exclusions}
  {O : List DefinitionKey}

/-- Growth leaves the registry of an injector as it was. -/
theorem Store.Injecting.registryOf (h : s₀.Injecting r) (hs : s₀.Grows s) :
    s.registryOf r = s₀.registryOf r := by
  unfold Store.registryOf
  rw [hs.injectors.get h.held, hs.registries.get h.registered]

theorem Store.Injecting.grown (h : s₀.Injecting r) (hs : s₀.Grows s) : s.Injecting r := by
  have hr := hs.injectors.get h.held
  refine ⟨hs.injectors.holds h.held, ?_, by rw [h.registryOf hs]; exact h.named, ?_⟩
  · rw [hr]
    exact hs.registries.holds h.registered
  · rw [hr]
    exact h.parser

/-- A dependency on an interface makes the request that a parameter makes. -/
theorem run_argumentValue_dependency (h : s₀.Injecting r) {a : Ref Argument}
    {name interface : String} (ha : s₀.arguments.Holds a)
    (hcell : s₀.arguments.get a = .dependency name interface) (hinterface : interface ≠ "")
    (hs : s₀.Grows s) : (argumentValue answer r a b).run s
      = (answer r ⟨.text interface, .null, b, b⟩ none).run s := by
  obtain ⟨own, hparser⟩ := h.parser
  have hget : s.arguments.get a = .dependency name interface := by
    rw [hs.arguments.get ha, hcell]
  have hargument : s.argument a = .dependency name interface := by
    unfold Store.argument
    rw [hget]
    rfl
  have hproperty :
      (Argument.dependency name interface).property "interface" = .text interface := rfl
  have hid : (Argument.dependency name interface).property "id" = .null := rfl
  have htruthy : (Value.text interface).truthy = true := by simpa [Value.truthy] using hinterface
  have hidentifier : (argumentIdentifier r own (.dependency name interface)).run s
      = (.ok .null, s) := by
    unfold argumentIdentifier
    rw [run_bind_ok (run_configFor s r own), hid]
    rfl
  have hfound : (s.injectors.get r).parsers.get? (s.arguments.get a).kind
      = some (.dependency own) := by
    rw [hget, hs.injectors.get h.held]
    exact hparser
  rw [run_argumentValue_by hfound, valueBy, hargument, dependencyValue_eq, hproperty, htruthy,
    if_pos rfl]
  unfold argumentRequest
  rw [run_bind_ok hidentifier]
  rfl

variable (hself : Conforming (.same True) s₀.Grows O b answer answer r r)

include hself

/-- The values of declared arguments stand under their names. -/
theorem mem_keys_of_argumentValues {cells : List (Ref Argument)}
    (hcells : ∀ a ∈ cells, s₀.arguments.Holds a) :
    ∀ {found values : List (String × Value)} {s t : Store}, s₀.Grows s →
      underConstruction s.journal = O →
      (argumentValues answer r b found cells).run s = (.ok values, t) → Undisturbed t.journal →
      ∀ n, n ∈ values.map Prod.fst ↔
        n ∈ found.map Prod.fst ∨ n ∈ (cells.map s₀.arguments.get).map Argument.name := by
  induction cells with
  | nil =>
    intro found values s t _ _ h _ n
    cases h
    simp
  | cons a rest ih =>
    intro found values s t hs hO h hu n
    obtain ⟨ha, hrest⟩ := List.forall_mem_cons.mp hcells
    have hname : ((Stored.cells s).get a).name = (s₀.arguments.get a).name :=
      congrArg Argument.name (hs.arguments.get ha)
    rw [argumentValues, run_bind_ok (run_read a s), hname] at h
    have hfirst : Agrees s₀.Grows O
        (Work.mapFault (Failure.mk (some (s₀.arguments.get a).name)) (argumentValue answer r a b))
        (Work.mapFault (Failure.mk (some (s₀.arguments.get a).name))
          (argumentValue answer r a b)) :=
      (conforms_argumentValue hself (argumentTwins_refl a)).mapFault fun _ => rfl
    have hrefl : ∀ found, Agrees s₀.Grows O (argumentValues answer r b found rest)
        (argumentValues answer r b found rest) := fun found =>
      conforms_argumentValues hself found (List.forall₂_same.mpr fun _ _ => argumentTwins_refl _)
    obtain ⟨v, u, hv, hmore⟩ := Work.bind_eq_ok h
    have hcalm : Undisturbed u.journal := by
      by_contra hdisturbed
      have hlater :=
        (hrefl (OrderedMap.put (s₀.arguments.get a).name v found)).disturbed u hdisturbed
      rw [hmore] at hlater
      exact hlater hu
    obtain ⟨-, hgrows, hopen⟩ := hfirst.agrees s hs hO (by rw [hv]; exact hcalm)
    rw [hv] at hgrows hopen
    rw [ih hrest hgrows (hopen v rfl) hmore hu n, OrderedMap.mem_keys_put, List.map_cons,
      List.map_cons, List.mem_cons]
    tauto

end Injecting

/-! ### What is called -/

section Calling

variable {s₀ s t : Store} {r r' : Ref Injector} {answer answer' : Answering} {b : Exclusions}
  {O : List DefinitionKey} {α : Type} {c : Callable} {params : List Param}
  {w w' : List (String × Value) → Work Failure α} {finish finish' : Passed → Work Failure α}

/-- Work with arguments that were found: it binds them to the parameters of something that can be
called and goes on with what is passed. The registry is one that does not change. -/
structure Binds (s₀ : Store) (g : Registry) (r : Ref Injector) (answer : Answering) (b : Exclusions)
    (c : Callable) (w : List (String × Value) → Work Failure α)
    (finish : Passed → Work Failure α) : Prop where
  run : ∀ found s, s₀.Grows s → (w found).run s
    = (g.bind s₀.program c found (some (injection answer r b)) >>= finish).run s
  disturbed : ∀ found s, ¬ Undisturbed s.journal → ¬ Undisturbed ((w found).run s).2.journal

theorem Binds.disturbance (h : Binds s₀ (s₀.registryOf r) r answer b c w finish)
    (found : List (String × Value)) :
    Conforms (.same True) (fun _ => False) O O (w found) (w found) :=
  ⟨h.disturbed found, fun _ _ hs => hs.elim⟩

section One

variable (hr : s₀.Injecting r) (hself : Conforming (.same True) s₀.Grows O b answer answer r r)

include hr hself

/-- Declared dependencies make the requests of the parameters that they stand for. -/
theorem coincides_dependencies {resolved : Bool} {callable : String} {first : List Param}
    {added : List (Ref Argument)}
    (hadded : List.Forall₂ (fun q a => s₀.arguments.Holds a ∧ ∃ k,
      s₀.program.wanted? resolved q.annotation = some k ∧ s₀.arguments.get a
        = .dependency q.name ((s₀.registryOf r).interfaceName s₀.program k)) first added)
    (hnames : (first.map Param.name).Nodup) {f : List (String × Value) → Work Failure α}
    (hf : ∀ found, Conforms (.same True) (fun _ => False) O O (f found) (f found)) :
    ∀ {found : List (String × Value)} {v : List (String × Value) → Work Failure α},
      (∀ q ∈ first, q.name ∉ found.map Prod.fst) →
      (∀ vs, vs.map Prod.fst = first.map Param.name → Coincides s₀ O (f (found ++ vs)) (v vs)) →
      Coincides s₀ O (argumentValues answer r b found added >>= f)
        (first.mapM ((s₀.registryOf r).askFor s₀.program resolved callable
          (some (injection answer r b))) >>= v) := by
  induction hadded with
  | nil =>
    intro found v _ h
    have hdone := h [] rfl
    rw [List.append_nil] at hdone
    rw [argumentValues, pure_bind, List.mapM_nil, pure_bind]
    exact hdone
  | @cons q a first added hq _ ih =>
    intro found v hfresh h
    obtain ⟨ha, k, hwanted, hcell⟩ := hq
    obtain ⟨hname, hnames⟩ := List.nodup_cons.mp hnames
    obtain ⟨hqfresh, hfresh⟩ := List.forall_mem_cons.mp hfresh
    set interface := (s₀.registryOf r).interfaceName s₀.program k with hinterface
    -- Both begin with the same request.
    have hsecond : (q :: first).mapM ((s₀.registryOf r).askFor s₀.program resolved callable
          (some (injection answer r b))) >>= v
        = injection answer r b q.name interface >>= fun x =>
          first.mapM ((s₀.registryOf r).askFor s₀.program resolved callable
            (some (injection answer r b))) >>= fun vs => v ((q.name, x) :: vs) := by
      rw [List.mapM_cons, Registry.askFor_of_wants (Program.wanted?_eq_some_iff.mp hwanted)]
      simp only [bind_assoc, pure_bind, hinterface]
    have hmore : Coincides s₀ O
        (injection answer r b q.name interface >>= fun x =>
          argumentValues answer r b (found ++ [(q.name, x)]) added >>= f)
        (injection answer r b q.name interface >>= fun x =>
          first.mapM ((s₀.registryOf r).askFor s₀.program resolved callable
            (some (injection answer r b))) >>= fun vs => v ((q.name, x) :: vs)) := by
      have hrest : ∀ x, Coincides s₀ O
          (argumentValues answer r b (found ++ [(q.name, x)]) added >>= f)
          (first.mapM ((s₀.registryOf r).askFor s₀.program resolved callable
            (some (injection answer r b))) >>= fun vs => v ((q.name, x) :: vs)) := by
        refine fun x => ih hnames (fun y hy hmem => ?_) fun vs hvs => ?_
        · rw [List.map_append, List.mem_append] at hmem
          refine hmem.elim (hfresh y hy) fun hmem => hname ?_
          rw [List.map_cons, List.map_nil, List.mem_singleton] at hmem
          exact List.mem_map.mpr ⟨y, hy, hmem⟩
        · rw [List.append_assoc]
          exact h ((q.name, x) :: vs) (by rw [List.map_cons, List.map_cons, hvs])
      exact coincides_bind (conforms_injection hself q.name interface)
        (fun x => (hrest x).there.disturbance) (fun x => (hrest x).back.disturbance)
        fun _ x _ _ _ _ _ _ => hrest x
    rw [hsecond]
    refine hmore.of_left ?_ fun s hs => ?_
    · exact (conforms_argumentValues hself.disturbance found
        (List.forall₂_same.mpr fun _ _ => argumentTwins_refl _)).bind hf
    · have hread : ((Stored.cells s).get a).name = q.name := by
        have hread := congrArg Argument.name ((hs.arguments.get ha).trans hcell)
        exact hread
      rw [argumentValues, bind_assoc, run_bind_ok (run_read a s), hread, bind_assoc, run_bind,
        run_bind]
      have hrequest : (Work.mapFault (Failure.mk (some q.name)) (argumentValue answer r a b)).run s
          = (injection answer r b q.name interface).run s := by
        unfold injection
        rw [run_mapFault, run_mapFault, run_argumentValue_dependency hr ha hcell
          (Registry.interfaceName_ne_empty hr.named _ _) hs]
      rw [hrequest]
      cases (injection answer r b q.name interface).run s with
      | mk result u =>
        cases result with
        | error e => rfl
        | ok x =>
          dsimp only
          rw [OrderedMap.put_of_not_mem hqfresh]

variable (hw : Binds s₀ (s₀.registryOf r) r answer b c w finish)
  (hfinish : ∀ passed, Agrees s₀.Grows O (finish passed) (finish passed))
  (hparams : c.params? s₀.program = some params) (hnames : (params.map Param.name).Nodup)

include hw hfinish hparams hnames

/-- Dependencies on what the first bare parameters want may be declared or left to the binding. -/
theorem coincides_spelled {first : List Param} {cells added : List (Ref Argument)}
    (hcells : ∀ a ∈ cells, s₀.arguments.Holds a)
    (hfirst : first <+: params.filter (Param.bare (cells.map s₀.arguments.get)))
    (hadded : List.Forall₂ (fun q a => s₀.arguments.Holds a ∧ ∃ k,
      s₀.program.wanted? (s₀.program.resolves params) q.annotation = some k ∧ s₀.arguments.get a
        = .dependency q.name ((s₀.registryOf r).interfaceName s₀.program k)) first added) :
    Coincides s₀ O (argumentValues answer r b [] (cells ++ added) >>= w)
      (argumentValues answer r b [] cells >>= w) := by
  have hvalues : ∀ {found : List (String × Value)} {cells : List (Ref Argument)},
      Agrees s₀.Grows O (argumentValues answer r b found cells)
        (argumentValues answer r b found cells) :=
    conforms_argumentValues hself _ (List.forall₂_same.mpr fun _ _ => argumentTwins_refl _)
  rw [argumentValues_append, bind_assoc]
  refine coincides_bind hvalues (fun found => hvalues.disturbance.bind hw.disturbance)
    hw.disturbance fun s found t hs hO hrun hu ht => ?_
  have hbare : params.filter (Param.asked found)
      = params.filter (Param.bare (cells.map s₀.arguments.get)) := by
    refine List.filter_congr fun q _ => Param.asked_eq_bare fun n => ?_
    rw [mem_keys_of_argumentValues hself hcells hs hO hrun hu n]
    simp
  obtain ⟨rest, hsplit⟩ := hfirst
  have hsplit : params.filter (Param.asked found) = first ++ rest := hbare.trans hsplit.symm
  -- What is called with values, told without the store.
  have hbound : ∀ values, Agrees s₀.Grows O
      ((s₀.registryOf r).bind s₀.program c values (some (injection answer r b)) >>= finish)
      ((s₀.registryOf r).bind s₀.program c values (some (injection answer r b)) >>= finish) :=
    fun values => (conforms_bind (conforms_injection hself) _ _ c values).bind hfinish
  have hcalled : Coincides s₀ O (argumentValues answer r b found added >>= w)
      ((s₀.registryOf r).bind s₀.program c found (some (injection answer r b)) >>= finish) := by
    rw [Registry.bind_eq_packed _ hparams hnames, hsplit, List.mapM_append]
    simp only [bind_assoc, pure_bind]
    refine coincides_dependencies hr hself hadded ?_ hw.disturbance (fun q hq hmem => ?_)
      fun vs hvs => ?_
    · have hsub : ((first ++ rest).map Param.name).Nodup :=
        hsplit ▸ hnames.sublist (List.filter_sublist.map Param.name)
      rw [List.map_append] at hsub
      exact hsub.of_append_left
    · have hasked := (Registry.asked_of_mem_first hsplit hq).2
      unfold Param.asked at hasked
      rw [isNone_lookup] at hasked
      simp [hmem] at hasked
    · have hsame := Registry.bind_eq_append (s₀.registryOf r) hparams hnames hsplit hvs
        (some (injection answer r b))
      rw [← bind_assoc, ← hsame]
      exact (coincides_of_run (hbound _) (hw.disturbance _) (hw.run _)).symm
  exact (hcalled.symm.of_left (hw.disturbance found) (hw.run found)).symm

omit hr hfinish in
/-- A bare parameter that wants no class ends the binding. -/
theorem isOk_of_unwanted {q : Param} {cells : List (Ref Argument)}
    (hcells : ∀ a ∈ cells, s₀.arguments.Holds a) (hq : q ∈ params)
    (hbare : q.bare (cells.map s₀.arguments.get) = true)
    (hunwanted : s₀.program.wanted? (s₀.program.resolves params) q.annotation = none)
    (hs : s₀.Grows s) (hO : underConstruction s.journal = O)
    (hu : Undisturbed ((argumentValues answer r b [] cells >>= w).run s).2.journal) :
    ((argumentValues answer r b [] cells >>= w).run s).1.isOk = false := by
  cases hrun : (argumentValues answer r b [] cells).run s with
  | mk result t =>
  cases result with
  | error e =>
    rw [run_bind_error hrun]
    rfl
  | ok found =>
    rw [run_bind_ok hrun] at hu ⊢
    have hcalm : Undisturbed t.journal := by
      by_contra hdisturbed
      exact hw.disturbed found t hdisturbed hu
    have hvalues : Agrees s₀.Grows O (argumentValues answer r b [] cells)
        (argumentValues answer r b [] cells) :=
      conforms_argumentValues hself _ (List.forall₂_same.mpr fun _ _ => argumentTwins_refl _)
    have hgrows := (hvalues.agrees s hs hO (by rwa [hrun])).2.1
    rw [hrun] at hgrows
    have hasked : q ∈ params.filter (Param.asked found) := by
      refine List.mem_filter.mpr ⟨hq, ?_⟩
      rw [Param.asked_eq_bare fun n => ?_]
      · exact hbare
      · rw [mem_keys_of_argumentValues hself hcells hs hO hrun hcalm n]
        simp
    rw [hw.run found t hgrows, Registry.bind_eq_packed _ hparams hnames, bind_assoc]
    refine isOk_bind (isOk_mapM hasked (fun u => ?_) t)
    rw [Registry.askFor_of_not_wants fun k hk => ?_]
    · rfl
    · rw [Program.wanted?_eq_some_iff.mpr hk] at hunwanted
      cases hunwanted

end One

/-! ### Two injectors -/

/-- Cells that hold the same argument are twins. -/
theorem forall₂_argumentTwins {cells cells' : List (Ref Argument)}
    (hcells : ∀ a ∈ cells, s₀.arguments.Holds a) (hcells' : ∀ a ∈ cells', s₀.arguments.Holds a)
    (h : cells.map s₀.arguments.get = cells'.map s₀.arguments.get) :
    List.Forall₂ (ArgumentTwins s₀.Grows) cells cells' := by
  refine List.forall₂_of_map h fun a ha a' ha' hsame s hs => ?_
  unfold Store.argument
  rw [hs.arguments.get (hcells a ha), hs.arguments.get (hcells' a' ha'), hsame]

variable {strict : Prop}
  (ha : Conforming (.unnumbered strict) s₀.Grows O b answer answer' r r')
  (hw : Binds s₀ (s₀.registryOf r) r answer b c w finish)
  (hw' : Binds s₀ (s₀.registryOf r) r' answer' b c w' finish')
  (hfinish : ∀ passed, Conforms (.unnumbered strict) s₀.Grows O O (finish passed) (finish' passed))

include ha hw hw' hfinish

/-- What is called with arguments that cells hold is called alike with those of their twins. -/
theorem conforms_binds {cells cells' : List (Ref Argument)}
    (hcells : List.Forall₂ (ArgumentTwins s₀.Grows) cells cells') :
    Conforms (.unnumbered strict) s₀.Grows O O (argumentValues answer r b [] cells >>= w)
      (argumentValues answer' r' b [] cells' >>= w') := by
  refine (conforms_argumentValues ha [] hcells).bind fun found => ?_
  have hbound := (conforms_bind (conforms_injection ha) (s₀.registryOf r) s₀.program c found).bind
    hfinish
  exact (hbound.of_run fun _ _ hs => hw'.run found _ { hs with }).of_left
    ⟨hw.disturbed found, fun _ _ hs => hs.elim⟩ (hw.run found)

/-- What is called with declared arguments is called alike where dependencies of its parameters are
spelled out, and where they no longer are. -/
theorem conforms_spelled (hr : s₀.Injecting r)
    (hself : Conforming (.same True) s₀.Grows O b answer answer r r)
    (hagrees : ∀ passed, Agrees s₀.Grows O (finish passed) (finish passed))
    (hparams : c.params? s₀.program = some params) {cells cells' : List (Ref Argument)}
    (hcells : ∀ a ∈ cells, s₀.arguments.Holds a) (hcells' : ∀ a ∈ cells', s₀.arguments.Holds a)
    (h : Spelled strict (s₀.registryOf r) s₀.program params (cells.map s₀.arguments.get)
        (cells'.map s₀.arguments.get) ∨
      Spelled strict (s₀.registryOf r) s₀.program params (cells'.map s₀.arguments.get)
        (cells.map s₀.arguments.get)) :
    Conforms (.unnumbered strict) s₀.Grows O O (argumentValues answer r b [] cells >>= w)
      (argumentValues answer' r' b [] cells' >>= w') := by
  have hdisturbed : Conforms (.unnumbered strict) (fun _ => False) O O
      (argumentValues answer r b [] cells >>= w) (argumentValues answer r b [] cells >>= w) :=
    (conforms_argumentValues ha.disturbance [] (List.forall₂_same.mpr fun _ _ =>
      argumentTwins_refl _)).bind fun found => ⟨hw.disturbed found, fun _ _ hs => hs.elim⟩
  -- Either way, a bare parameter that wants no class has both of them fail.
  have hfailing : (params.map Param.name).Nodup → ¬strict → ∀ q ∈ params,
      q.bare (cells.map s₀.arguments.get) = true →
      s₀.program.wanted? (s₀.program.resolves params) q.annotation = none →
      Conforms (.unnumbered strict) s₀.Grows O O (argumentValues answer r b [] cells >>= w)
        (argumentValues answer' r' b [] cells' >>= w') :=
    fun hnames hF q hq hbare hunwanted => .of_failing hF hdisturbed fun s hs hO hu =>
      isOk_of_unwanted hself hw hparams hnames hcells hq hbare hunwanted hs hO hu
  rcases h with h | h
  · obtain ⟨first, hfirst, hspelled, hall⟩ | ⟨hF, q, hq, hbare, -, hunwanted⟩ := h.cases
    · obtain ⟨kept, added, rfl, hkept, hadded⟩ := List.map_eq_append_iff.mp hspelled
      obtain ⟨hkept', hadded'⟩ := List.forall_mem_append.mp hcells'
      have hsame := coincides_spelled hr hself hw hagrees hparams h.names hcells hfirst
        (forall₂_dependencies hall hadded' hadded)
      have htwins : List.Forall₂ (ArgumentTwins s₀.Grows) (cells ++ added) (kept ++ added) :=
        List.rel_append (forall₂_argumentTwins hcells hkept' hkept.symm)
          (List.forall₂_same.mpr fun _ _ => argumentTwins_refl _)
      exact hsame.back.after (conforms_binds ha hw hw' hfinish htwins)
    · exact hfailing h.names hF q hq hbare hunwanted
  · obtain ⟨first, hfirst, hspelled, hall⟩ | ⟨hF, q, hq, -, hbare, hunwanted⟩ := h.cases
    · obtain ⟨kept, added, rfl, hkept, hadded⟩ := List.map_eq_append_iff.mp hspelled
      obtain ⟨hkept', hadded'⟩ := List.forall_mem_append.mp hcells
      have hsame := coincides_spelled hr hself hw hagrees hparams h.names hkept'
        (hkept.symm ▸ hfirst) (forall₂_dependencies hall hadded' hadded)
      exact hsame.there.after (conforms_binds ha hw hw' hfinish
        (forall₂_argumentTwins hkept' hcells' hkept))
    · exact hfailing h.names hF q hq hbare hunwanted

end Calling

end Wiring
