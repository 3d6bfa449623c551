import Wiring.Host.Binding
import Wiring.Proofs.Documents
import Wiring.Proofs.Work
import Wiring.Resolution.Filling

/-!
# `Wiring.Proofs.Binding`: what is asked for and passed when something is called

Binding goes through the parameters and decides for each one at a time. `bind_eq` turns this around
and says what it comes to as a whole: the parameters that have neither an argument nor a default are
asked for, in order, then `passing` tells what is passed, and the arguments in `leftover` are
collected or refused.

Two facts follow. `bind_requests` says what is asked for, and under which interface. `bind_faithful`
says that what is passed binds to the parameters of the same names. A parameter that takes arguments
by position only, and keeps its default, is passed over. If another one of this kind gets a value
behind it, that value moves to its place (`bind_moved`), so such signatures are left out.
-/

set_option autoImplicit false

namespace Wiring

open Work

/-! ### Parameters -/

/-- The annotation wants a class: directly, by a text that names it, where all texts of the
signature can be resolved, or by its absence. -/
inductive Annotation.Wants (p : Program) (resolved : Bool) : Annotation → ClassRef → Prop
  | named {c : ClassRef} : p.moduleOf c ≠ "builtins" → Wants p resolved (.named c) c
  | textual {text : String} {c : ClassRef} : resolved = true →
      p.resolveText? text = some (.named c) → p.moduleOf c ≠ "builtins" →
      Wants p resolved (.textual text) c
  | absent : Wants p resolved .absent .unannotated

theorem Program.wanted?_eq_some_iff {p : Program} {resolved : Bool} {a : Annotation}
    {c : ClassRef} : p.wanted? resolved a = some c ↔ a.Wants p resolved c := by
  constructor
  · intro h
    cases a with
    | absent =>
      cases h
      exact .absent
    | other => cases h
    | named d =>
      rw [wanted?, Option.ite_none_left_eq_some] at h
      obtain ⟨hmodule, hd⟩ := h
      cases hd
      exact .named hmodule
    -- An annotation that is text counts only as far as it was resolved.
    | textual text =>
      unfold wanted? at h
      dsimp only at h
      split at h
      · rename_i d htext
        rw [Option.ite_none_left_eq_some] at h
        obtain ⟨hmodule, hd⟩ := h
        cases hd
        rw [Option.ite_none_right_eq_some] at htext
        exact .textual htext.1 htext.2 hmodule
      · cases h
  · intro h
    cases h with
    | absent => rfl
    | named hmodule => simp [wanted?, hmodule]
    | textual hresolved htext hmodule => simp [wanted?, hresolved, htext, hmodule]

namespace Param

/-- Whether the parameter takes a single argument. The others collect what is left over. -/
def single (q : Param) : Bool := q.kind ≠ .rest && q.kind ≠ .options

/-- Whether the parameter has neither an argument nor a default. -/
def asked (arguments : List (String × Value)) (q : Param) : Bool :=
  q.single && (arguments.lookup q.name).isNone && q.default.isNone

/-- Whether the parameter has no argument and keeps its default. -/
def kept (arguments : List (String × Value)) (q : Param) : Bool :=
  q.single && (arguments.lookup q.name).isNone && q.default.isSome

/-- The value that is passed to a parameter, where some values were found for those that were asked
for. A parameter that keeps its default is not passed. -/
def filling (arguments found : List (String × Value)) (q : Param) : Option Value :=
  if q.single then
    match arguments.lookup q.name with
    | some v => some v
    | none => if q.default.isSome then none else found.lookup q.name
  else none

/-- The value that a parameter gets: its argument, or else its default, or else what was found for
it. The parameters that collect get nothing by position, and by name what is collected. -/
def receives (arguments found collected : List (String × Value)) (q : Param) : Option Value :=
  match q.kind with
  | .rest => some (.list none [])
  | .options => some (.map none (collected.map fun a => (.text a.1, a.2)))
  | _ => (arguments.lookup q.name).or (q.default.or (found.lookup q.name))

end Param

namespace Registry

variable {arguments found : List (String × Value)} {q : Param} {params : List Param}

/-- What is passed to parameters. -/
def passing (arguments found : List (String × Value)) (params : List Param) : Passed where
  positional := params.filterMap fun q =>
    if q.kind = .positional then q.filling arguments found else none
  named := params.filterMap fun q =>
    if q.kind = .positional then none else (q.filling arguments found).map (q.name, ·)

/-- The arguments that no parameter takes as its single one. -/
def leftover (arguments : List (String × Value)) (params : List Param) : List (String × Value) :=
  arguments.filter fun a => !params.any fun q => q.single && q.name = a.1

/-! ### One parameter at a time -/

theorem lookup_without_of_ne {name n : String} (h : n ≠ name) :
    (without name arguments).lookup n = arguments.lookup n := by
  unfold without
  induction arguments with
  | nil => rfl
  | cons a rest ih =>
    by_cases ha : a.1 = name
    · have hn : (n == a.1) = false := by simpa [ha] using h
      rw [List.filter_cons_of_neg (by simpa using ha), ih, List.lookup_cons, hn]
    · rw [List.filter_cons_of_pos (by simpa using ha), List.lookup_cons, List.lookup_cons, ih]

/-- What is taken out for one parameter does not matter to the others. -/
theorem asked_without {name : String} (h : q.name ≠ name) :
    q.asked (without name arguments) = q.asked arguments := by
  unfold Param.asked
  rw [lookup_without_of_ne h]

theorem filling_without {name : String} (h : q.name ≠ name) :
    q.filling (without name arguments) found = q.filling arguments found := by
  unfold Param.filling
  rw [lookup_without_of_ne h]

/-- What was found for one parameter does not matter to the others. -/
theorem filling_found_cons {name : String} {v : Value} (h : q.name ≠ name) :
    q.filling arguments ((name, v) :: found) = q.filling arguments found := by
  unfold Param.filling
  have hname : (q.name == name) = false := by simpa using h
  rw [List.lookup_cons, hname]

theorem passing_congr {arguments' found' : List (String × Value)}
    (h : ∀ q ∈ params, q.filling arguments' found' = q.filling arguments found) :
    passing arguments' found' params = passing arguments found params := by
  unfold passing
  congr 1
  · exact List.filterMap_congr fun q hq => by rw [h q hq]
  · exact List.filterMap_congr fun q hq => by rw [h q hq]

/-- A parameter that is filled is passed before the others. -/
theorem passing_cons_of_some {v : Value} (h : q.filling arguments found = some v) :
    passing arguments found (q :: params) = pass q v (passing arguments found params) := by
  unfold passing pass
  by_cases hk : q.kind = .positional
  · simp [hk, h]
  · simp [hk, h]

theorem passing_cons_of_none (h : q.filling arguments found = none) :
    passing arguments found (q :: params) = passing arguments found params := by
  unfold passing
  simp [h]

/-- A parameter that collects is neither asked for nor filled. -/
theorem asked_of_collector (hq : q.single = false) : q.asked arguments = false := by
  simp [Param.asked, hq]

theorem filling_of_collector (hq : q.single = false) : q.filling arguments found = none := by
  simp [Param.filling, hq]

theorem leftover_cons_of_single (hq : q.single = true) :
    leftover arguments (q :: params) = leftover (without q.name arguments) params := by
  unfold leftover without
  rw [List.filter_filter]
  refine List.filter_congr fun a _ => ?_
  by_cases ha : q.name = a.1
  · simp [hq, ha]
  · have ha' : ¬ a.1 = q.name := fun h => ha h.symm
    simp [hq, ha, ha']

theorem without_of_lookup_none {name : String} (h : arguments.lookup name = none) :
    without name arguments = arguments := by
  refine List.filter_eq_self.mpr fun a ha => decide_eq_true fun he => ?_
  have hne := List.lookup_eq_none_iff.mp h a ha
  simp [he] at hne

theorem leftover_cons_of_collector (hq : q.single = false) :
    leftover arguments (q :: params) = leftover arguments params := by
  unfold leftover
  simp [hq]

/-! ### All parameters -/

variable (r : Registry) (p : Program)

/-- Asks for the value of a parameter, by its name. -/
def askFor (resolved : Bool) (callable : String) (inject : Option Injection) (q : Param) :
    Work Failure (String × Value) := do
  pure (q.name, ← r.request p resolved callable inject q)

/-- Filling parameters one after the other asks for those that need it, and passes all of them. -/
theorem fill_eq (resolved : Bool) (callable : String) (inject : Option Injection)
    (hnames : (params.map Param.name).Nodup) (arguments : List (String × Value)) :
    r.fill p resolved callable inject params arguments = (do
      let found ← (params.filter (Param.asked arguments)).mapM
        (r.askFor p resolved callable inject)
      pure (passing arguments found params, leftover arguments params,
        params.any fun q => q.kind = .options)) := by
  induction params generalizing arguments with
  | nil => simp [fill, passing, leftover, Passed.nothing]
  | cons q rest ih =>
    rw [List.map_cons, List.nodup_cons] at hnames
    obtain ⟨hfresh, hrest⟩ := hnames
    have hne : ∀ x ∈ rest, x.name ≠ q.name := fun x hx he =>
      hfresh (he ▸ List.mem_map_of_mem hx)
    rw [fill]
    split
    · rename_i hkind
      have hsingle : q.single = false := by simp [Param.single, hkind]
      simp [ih hrest, asked_of_collector hsingle, leftover_cons_of_collector hsingle, hkind,
        passing_cons_of_none (filling_of_collector hsingle)]
    · rename_i hkind
      have hsingle : q.single = false := by simp [Param.single, hkind]
      simp [ih hrest, asked_of_collector hsingle, leftover_cons_of_collector hsingle, hkind,
        passing_cons_of_none (filling_of_collector hsingle)]
    · -- A parameter that takes a single argument: it is declared, or keeps a default, or is asked for.
      rename_i hoptions hcollects
      have hkind : ¬ q.kind = .options := hoptions
      have hsingle : q.single = true := by
        have hrestkind : ¬ q.kind = .rest := hcollects
        simp [Param.single, hkind, hrestkind]
      rw [leftover_cons_of_single hsingle]
      split
      · rename_i v hv
        have hasked : q.asked arguments = false := by simp [Param.asked, hv]
        have hfilling : ∀ found, q.filling arguments found = some v := fun found => by
          simp [Param.filling, hsingle, hv]
        have hsame : rest.filter (Param.asked (without q.name arguments))
            = rest.filter (Param.asked arguments) :=
          List.filter_congr fun x hx => asked_without (hne x hx)
        have hpassing : ∀ found, passing (without q.name arguments) found rest
            = passing arguments found rest := fun found =>
          passing_congr fun x hx => filling_without (hne x hx)
        -- The later parameters have other names, so they do not see that this argument is used up.
        simp [ih hrest, hsame, hpassing, hasked, hkind, passing_cons_of_some (hfilling _)]
      · rename_i hv
        rw [without_of_lookup_none hv]
        split
        · rename_i hdefault
          have hasked : q.asked arguments = false := by
            unfold Param.asked
            rw [Option.isNone_eq_false_iff.mpr hdefault, Bool.and_false]
          have hfilling : ∀ found, q.filling arguments found = none := fun found => by
            simp [Param.filling, hv, hdefault]
          simp [ih hrest, hasked, hkind, passing_cons_of_none (hfilling _)]
        · rename_i hdefault
          have hasked : q.asked arguments = true := by
            simpa [Param.asked, hsingle, hv] using hdefault
          have hfilling : ∀ v found, q.filling arguments ((q.name, v) :: found) = some v :=
            fun v found => by simp [Param.filling, hsingle, hv, hdefault]
          have hpassing : ∀ v found, passing arguments ((q.name, v) :: found) rest
              = passing arguments found rest := fun v found =>
            passing_congr fun x hx => filling_found_cons (hne x hx)
          simp [ih hrest, hasked, hkind, askFor, hpassing, passing_cons_of_some (hfilling _ _)]

/-- Binding asks for the parameters that need it, and then passes what it has, unless arguments are
left over and nothing collects them. -/
theorem bind_eq {c : Callable} (hparams : c.params? p = some params)
    (hnames : (params.map Param.name).Nodup) (arguments : List (String × Value))
    (inject : Option Injection) :
    r.bind p c arguments inject = (do
      let found ← (params.filter (Param.asked arguments)).mapM
        (r.askFor p (p.resolves params) (c.name p) inject)
      if (leftover arguments params).isEmpty || params.any (fun q => q.kind = .options) then
        pure ⟨(passing arguments found params).positional,
          (passing arguments found params).named ++ leftover arguments params⟩
      else throw (.plain (.definition (.argumentsUnknown ((leftover arguments params).map Prod.fst)
        (c.name p))))) := by
  unfold bind
  rw [hparams]
  dsimp only
  rw [fill_eq r p _ _ _ hnames, bind_assoc]
  refine bind_congr fun found => ?_
  rw [pure_bind]
  dsimp only
  cases hleft : leftover arguments params with
  | nil => simp
  | cons a more => cases params.any fun q => decide (q.kind = .options) <;> rfl

/-! ### What is asked for -/

variable {r p}

/-- A parameter that wants a class is asked for by the interface of this class. -/
theorem askFor_of_wants {resolved : Bool} {callable : String} {inject : Injection} {d : ClassRef}
    (h : q.annotation.Wants p resolved d) :
    r.askFor p resolved callable (some inject) q = (do
      pure (q.name, ← inject q.name (r.interfaceName p d))) := by
  unfold askFor request
  rw [Program.wanted?_eq_some_iff.mpr h]

/-- A parameter that wants no class is not asked for. -/
theorem askFor_of_not_wants {resolved : Bool} {callable : String} {inject : Option Injection}
    (h : ∀ d, ¬ q.annotation.Wants p resolved d) :
    r.askFor p resolved callable inject q
      = throw (.plain (.definition (.parameterUnfilled q.name callable))) := by
  have hnone : p.wanted? resolved q.annotation = none := by
    rw [Option.eq_none_iff_forall_ne_some]
    exact fun d hd => h d (Program.wanted?_eq_some_iff.mp hd)
  unfold askFor request
  rw [hnone]
  rfl

/-- The parameters with neither an argument nor a default are asked for, once each and in order, by
the interface of the class that they want. The first one that wants none ends the binding, and so do
arguments that are left over where no parameter collects them. -/
theorem bind_requests {c : Callable} (hparams : c.params? p = some params)
    (hnames : (params.map Param.name).Nodup) (arguments : List (String × Value))
    (inject : Injection) :
    r.bind p c arguments (some inject) = (do
      let found ← (params.filter (Param.asked arguments)).mapM
        (r.askFor p (p.resolves params) (c.name p) (some inject))
      if (leftover arguments params).isEmpty || params.any (fun q => q.kind = .options) then
        pure ⟨(passing arguments found params).positional,
          (passing arguments found params).named ++ leftover arguments params⟩
      else throw (.plain (.definition (.argumentsUnknown ((leftover arguments params).map Prod.fst)
        (c.name p))))) ∧
    ∀ q ∈ params,
      (∀ d, q.annotation.Wants p (p.resolves params) d →
        r.askFor p (p.resolves params) (c.name p) (some inject) q = (do
          pure (q.name, ← inject q.name (r.interfaceName p d)))) ∧
      ((∀ d, ¬ q.annotation.Wants p (p.resolves params) d) →
        r.askFor p (p.resolves params) (c.name p) (some inject) q
          = throw (.plain (.definition (.parameterUnfilled q.name (c.name p))))) :=
  ⟨bind_eq r p hparams hnames arguments (some inject),
    fun _ _ => ⟨fun _ h => askFor_of_wants h, askFor_of_not_wants⟩⟩

/-- A function that takes a path, a limit, something without annotation, and options. -/
def opener : Function :=
  ⟨"app", "open", ⟨[⟨"path", .normal, none, .named (.builtin .path)⟩,
    ⟨"limit", .normal, some (.int 10), .absent⟩, ⟨"target", .keyword, none, .absent⟩,
    ⟨"options", .options, none, .absent⟩], none, .self⟩⟩

/-- Answers a request with what is requested. -/
def echo : Injection := fun name interface => pure (.list none [.text name, .text interface])

theorem bind_requests_opener :
    Callable.params? ⟨[], []⟩ (.function opener) = some opener.routine.params ∧
    (opener.routine.params.map Param.name).Nodup ∧
    ∀ s, ((Registry.empty.bind ⟨[], []⟩ (.function opener) [("mode", .text "r")]
        (some echo)).run s).1.map Passed.named
      = .ok [("path", .list none [.text "path", .text "pathlib.PosixPath"]),
          ("target", .list none [.text "target", .text "inspect._empty"]),
          ("mode", .text "r")] := by
  refine ⟨rfl, by decide, fun s => ?_⟩
  have hrequests := bind_requests (r := Registry.empty) (p := ⟨[], []⟩) (c := .function opener) rfl
    (by decide) [("mode", .text "r")] echo
  rw [hrequests.1]
  rfl

/-- A function with one parameter, which has no annotation. -/
def taker : Function :=
  ⟨"app", "take", ⟨[⟨"target", .normal, none, .absent⟩], none, .self⟩⟩

/-- A parameter without annotation is not refused: it is asked for like any other. -/
theorem bind_unannotated :
    ((Registry.empty.bind ⟨[], []⟩ (.function taker) [] (some echo)).run
        (Store.empty ⟨[], []⟩)).1.map Passed.named
      = .ok [("target", .list none [.text "target", .text "inspect._empty"])] := rfl

/-! ### What is passed binds -/

/-- The parameters that take their argument by position only come before all others. -/
def Leading (params : List Param) : Prop :=
  params.Pairwise fun q q' => q'.kind = .positional → q.kind = .positional

/-- Behind a parameter that takes its argument by position only, and keeps its default, the others
of this kind keep theirs. -/
def Settling (arguments : List (String × Value)) (params : List Param) : Prop :=
  params.Pairwise fun q q' => q.kind = .positional → q'.kind = .positional →
    q.kept arguments = true → q'.kept arguments = true

theorem filling_of_kept (h : q.kept arguments = true) : q.filling arguments found = none := by
  unfold Param.kept at h
  rw [Bool.and_eq_true, Bool.and_eq_true] at h
  obtain ⟨⟨-, hnone⟩, hdefault⟩ := h
  unfold Param.filling
  rw [Option.isNone_iff_eq_none.mp hnone]
  simp [hdefault]

/-- A parameter that is not filled keeps its default, when all that were asked for were found. -/
theorem kept_of_filling (hfound : q.asked arguments = true → (found.lookup q.name).isSome = true)
    (hsingle : q.single = true) (h : q.filling arguments found = none) :
    q.kept arguments = true := by
  unfold Param.filling at h
  unfold Param.asked at hfound
  unfold Param.kept
  cases hv : arguments.lookup q.name with
  | some v => simp [hv, hsingle] at h
  | none =>
    cases hd : q.default with
    | some v => simp [hsingle]
    | none =>
      have hmissing : found.lookup q.name = none := by simpa [hsingle, hv, hd] using h
      simp [hsingle, hv, hd, hmissing] at hfound

theorem receives_of_single (hsingle : q.single = true) (collected : List (String × Value)) :
    q.receives arguments found collected
      = (arguments.lookup q.name).or (q.default.or (found.lookup q.name)) := by
  unfold Param.receives
  unfold Param.single at hsingle
  cases hk : q.kind <;> simp [hk] at hsingle ⊢

theorem single_of_filling {v : Value} (h : q.filling arguments found = some v) :
    q.single = true := by
  by_contra hq
  rw [filling_of_collector (Bool.eq_false_iff.mpr hq)] at h
  cases h

theorem receives_of_filling {v : Value} (h : q.filling arguments found = some v)
    (collected : List (String × Value)) : q.receives arguments found collected = some v := by
  have hsingle := single_of_filling h
  rw [receives_of_single hsingle]
  unfold Param.filling at h
  cases hv : arguments.lookup q.name with
  | some w => simpa [hsingle, hv] using h
  | none => cases hd : q.default <;> simp_all

theorem receives_of_kept (h : q.kept arguments = true) (collected : List (String × Value)) :
    q.receives arguments found collected = q.default := by
  unfold Param.kept at h
  rw [Bool.and_eq_true, Bool.and_eq_true] at h
  obtain ⟨⟨hsingle, hnone⟩, hdefault⟩ := h
  obtain ⟨v, hv⟩ := Option.isSome_iff_exists.mp hdefault
  rw [receives_of_single hsingle, Option.isNone_iff_eq_none.mp hnone, hv]
  rfl

theorem single_of_byName (h : q.byName = true) : q.single = true := by
  unfold Param.byName at h
  unfold Param.single
  cases hk : q.kind <;> simp [hk] at h ⊢

theorem byName_of_single (h : q.single = true) (hk : q.kind ≠ .positional) :
    q.byName = true := by
  unfold Param.single at h
  unfold Param.byName
  cases hkind : q.kind <;> simp_all

/-- Nothing is passed by position where each parameter of this kind keeps its default. -/
theorem positional_passing_eq_nil
    (h : ∀ q ∈ params, q.kind = .positional → q.kept arguments = true) :
    (passing arguments found params).positional = [] := by
  refine List.filterMap_eq_nil_iff.mpr fun q hq => ?_
  split
  · rename_i hk
    exact filling_of_kept (h q hq hk)
  · rfl

/-- A parameter that takes a single argument takes it by position, or by name, or has its
default. -/
theorem bindFrom_cons_of_single {all : List Param} (hsingle : q.single = true)
    (positional : List Value) (named : List (String × Value)) :
    Param.bindFrom all (q :: params) positional named
      = (match (if q.byPosition then positional else []),
            (if q.byName then named.lookup q.name else none) with
        | v :: more, none => (Param.bindFrom all params more named).map ((q.name, v) :: ·)
        | _ :: _, some _ => none
        | [], some v => (Param.bindFrom all params positional named).map ((q.name, v) :: ·)
        | [], none =>
          match q.default with
          | some v => (Param.bindFrom all params positional named).map ((q.name, v) :: ·)
          | none => none) := by
  unfold Param.single at hsingle
  rw [Param.bindFrom]
  cases hk : q.kind <;> simp [hk] at hsingle ⊢ <;> rfl

/-- The entries of distinct names are the names and values themselves. -/
theorem entriesOf_of_nodup {pairs : List (String × Value)} (h : (pairs.map Prod.fst).Nodup) :
    Value.entriesOf pairs = pairs.map fun a => (.text a.1, a.2) := by
  unfold Value.entriesOf
  induction pairs using List.reverseRecOn with
  | nil => rfl
  | append_singleton front a ih =>
    rw [List.map_append, List.nodup_append] at h
    rw [List.foldl_append, ih h.1, List.map_append]
    refine Value.put_text fun hm => ?_
    obtain ⟨e, he, hs⟩ := List.mem_filterMap.mp hm
    obtain ⟨b, hb, rfl⟩ := List.mem_map.mp he
    have hname : b.1 = a.1 := by simpa using hs
    exact h.2.2 b.1 (List.mem_map_of_mem hb) a.1 (List.mem_singleton_self _) hname

/-- A parameter with a value, and the parameters behind it. -/
theorem forall₂_cons_of_map {R : Param → String × Value → Prop} {v : Value}
    {x : Option (List (String × Value))} (hv : R q (q.name, v))
    (h : ∃ bound, x = some bound ∧ List.Forall₂ R params bound) :
    ∃ bound, x.map ((q.name, v) :: ·) = some bound ∧ List.Forall₂ R (q :: params) bound := by
  obtain ⟨bound, rfl, hbound⟩ := h
  exact ⟨(q.name, v) :: bound, rfl, .cons hv hbound⟩

/-- Parameters take what is passed to them. The induction goes along the parameters, while the
arguments by name stay as they are: `hnamed` and `hcollected` say what they hold. -/
theorem bindFrom_passing {all : List Param} {named collected : List (String × Value)}
    (hcollected : named.filter (fun a => !all.any fun q => q.byName && q.name = a.1) = collected)
    (hdistinct : (collected.map Prod.fst).Nodup)
    (hnamed : ∀ q ∈ params, q.byName = true → named.lookup q.name = q.filling arguments found)
    (hfound : ∀ q ∈ params, q.asked arguments = true → (found.lookup q.name).isSome = true)
    (hleading : Leading params) (hsettling : Settling arguments params) :
    ∃ bound,
      Param.bindFrom all params (passing arguments found params).positional named = some bound ∧
      List.Forall₂ (fun q b => b.1 = q.name ∧ q.receives arguments found collected = some b.2)
        params bound := by
  induction params with
  | nil => exact ⟨[], rfl, .nil⟩
  | cons q rest ih =>
    obtain ⟨hfirst, hrest⟩ := List.pairwise_cons.mp hleading
    obtain ⟨hsettled, hsettling⟩ := List.pairwise_cons.mp hsettling
    have hgo := ih (fun x hx => hnamed x (List.mem_cons_of_mem _ hx))
      (fun x hx => hfound x (List.mem_cons_of_mem _ hx)) hrest hsettling
    -- Behind a parameter of another kind, and behind a default, nothing is left by position.
    have hnothing : q.kind ≠ .positional ∨ q.kept arguments = true →
        (passing arguments found rest).positional = [] := by
      intro h
      refine positional_passing_eq_nil fun x hx hk => ?_
      have hq : q.kind = .positional := hfirst x hx hk
      exact hsettled x hx hq hk (h.resolve_left fun hne => hne hq)
    have hskip : q.kind ≠ .positional → (passing arguments found (q :: rest)).positional = [] := by
      intro hk
      have h := hnothing (.inl hk)
      unfold passing at h ⊢
      simpa [hk] using h
    by_cases hsingle : q.single = true
    · rw [bindFrom_cons_of_single hsingle]
      cases hv : q.filling arguments found with
      | some v =>
        have htakes : q.name = q.name ∧ q.receives arguments found collected = some v :=
          ⟨rfl, receives_of_filling hv collected⟩
        by_cases hk : q.kind = .positional
        · have hpositional : (passing arguments found (q :: rest)).positional
              = v :: (passing arguments found rest).positional := by
            rw [passing_cons_of_some hv, pass, if_pos hk]
          rw [hpositional]
          simp only [Param.byPosition, Param.byName, hk]
          exact forall₂_cons_of_map htakes hgo
        · have hgiven : named.lookup q.name = some v := by
            rw [hnamed q List.mem_cons_self (byName_of_single hsingle hk), hv]
          rw [hnothing (.inl hk)] at hgo
          rw [hskip hk, byName_of_single hsingle hk, if_pos rfl, hgiven, ite_self]
          exact forall₂_cons_of_map htakes hgo
      | none =>
        have hkept : q.kept arguments = true :=
          kept_of_filling (hfound q List.mem_cons_self) hsingle hv
        obtain ⟨v, hdefault⟩ : ∃ v, q.default = some v := by
          unfold Param.kept at hkept
          rw [Bool.and_eq_true] at hkept
          exact Option.isSome_iff_exists.mp hkept.2
        have hgiven : (if q.byName then named.lookup q.name else none) = none := by
          split
          · rename_i hname
            rw [hnamed q List.mem_cons_self hname, hv]
          · rfl
        rw [hnothing (.inr hkept)] at hgo
        rw [passing_cons_of_none hv, hnothing (.inr hkept), hgiven, ite_self, hdefault]
        exact forall₂_cons_of_map ⟨rfl, (receives_of_kept hkept collected).trans hdefault⟩ hgo
    · have hkind : q.kind = .rest ∨ q.kind = .options := by
        unfold Param.single at hsingle
        cases hkind : q.kind <;> simp_all
      have hk : q.kind ≠ .positional := by
        rcases hkind with h | h <;> simp [h]
      rw [hnothing (.inl hk)] at hgo
      rw [hskip hk]
      rcases hkind with h | h
      · rw [Param.bindFrom]
        simp only [h]
        exact forall₂_cons_of_map ⟨rfl, by simp [Param.receives, h]⟩ hgo
      · rw [Param.bindFrom]
        simp only [h, hcollected, entriesOf_of_nodup hdistinct]
        exact forall₂_cons_of_map ⟨rfl, by simp [Param.receives, h]⟩ hgo

/-- Each found value is found under the name of the parameter that was asked for. -/
theorem map_fst_of_askFor {resolved : Bool} {callable : String} {inject : Option Injection}
    {s t : Store}
    (h : (params.mapM (r.askFor p resolved callable inject)).run s = (.ok found, t)) :
    found.map Prod.fst = params.map Param.name := by
  induction params generalizing found s with
  | nil =>
    cases h
    rfl
  | cons q rest ih =>
    rw [List.mapM_cons] at h
    obtain ⟨b, u, hask, h⟩ := Work.bind_eq_ok h
    obtain ⟨more, w, hmore, h⟩ := Work.bind_eq_ok h
    obtain ⟨v, w', -, hv⟩ := Work.bind_eq_ok hask
    cases hv
    cases h
    rw [List.map_cons, List.map_cons, ih hmore]

theorem isSome_lookup_of_mem {name : String} (h : name ∈ found.map Prod.fst) :
    (found.lookup name).isSome = true := by
  rw [Option.isSome_iff_ne_none]
  intro hnone
  obtain ⟨b, hb, rfl⟩ := List.mem_map.mp h
  have hne := List.lookup_eq_none_iff.mp hnone b hb
  simp at hne

/-- Parameters of distinct names are passed under their own names. -/
theorem lookup_passing (hnames : (params.map Param.name).Nodup) (hq : q ∈ params)
    (hkind : q.kind ≠ .positional) :
    (passing arguments found params).named.lookup q.name = q.filling arguments found := by
  unfold passing
  induction params with
  | nil => cases hq
  | cons x rest ih =>
    rw [List.map_cons, List.nodup_cons] at hnames
    obtain ⟨hfresh, hrest⟩ := hnames
    rcases List.mem_cons.mp hq with rfl | hmem
    · -- No later parameter has the name, so the value is there if and only if it is passed here.
      have hlater : (rest.filterMap fun y =>
          if y.kind = .positional then none
          else (y.filling arguments found).map (y.name, ·)).lookup q.name = none := by
        refine List.lookup_eq_none_iff.mpr fun b hb => ?_
        obtain ⟨y, hy, hpassed⟩ := List.mem_filterMap.mp hb
        rw [Option.ite_none_left_eq_some] at hpassed
        obtain ⟨v, -, rfl⟩ := Option.map_eq_some_iff.mp hpassed.2
        have hne : ¬ q.name = y.name := fun he => hfresh (he ▸ List.mem_map_of_mem hy)
        simpa using hne
      cases hv : q.filling arguments found with
      | none => simpa [List.filterMap_cons, hkind, hv] using hlater
      | some v => simp [hkind, hv]
    · have hne : (q.name == x.name) = false := by
        have h : ¬ q.name = x.name := fun he => hfresh (he ▸ List.mem_map_of_mem hmem)
        simpa using h
      rw [← ih hrest hmem]
      by_cases hx : x.kind = .positional
      · simp [hx]
      · cases hv : x.filling arguments found with
        | none => simp [hx, hv]
        | some v => simp [hx, hv, List.lookup_cons, hne]

/-- What is passed by name is passed to a parameter that takes it by its name. -/
theorem byName_of_mem_passing {a : String × Value}
    (h : a ∈ (passing arguments found params).named) :
    ∃ q ∈ params, q.byName = true ∧ q.name = a.1 := by
  obtain ⟨q, hq, hpassed⟩ := List.mem_filterMap.mp h
  rw [Option.ite_none_left_eq_some] at hpassed
  obtain ⟨v, hv, rfl⟩ := Option.map_eq_some_iff.mp hpassed.2
  exact ⟨q, hq, byName_of_single (single_of_filling hv) hpassed.1, rfl⟩

/-- No parameter takes an argument that is left over. -/
theorem single_of_mem_leftover {a : String × Value} (h : a ∈ leftover arguments params)
    (hq : q ∈ params) (hname : q.name = a.1) : q.single = false := by
  obtain ⟨-, hleft⟩ := List.mem_filter.mp h
  rw [Bool.not_eq_true', List.any_eq_false] at hleft
  simpa [hname] using hleft q hq

/-- The arguments that are collected are those that are left over. -/
theorem filter_passing :
    ((passing arguments found params).named ++ leftover arguments params).filter
        (fun a => !params.any fun q => q.byName && q.name = a.1)
      = leftover arguments params := by
  have hpassed : (passing arguments found params).named.filter
      (fun a => !params.any fun q => q.byName && q.name = a.1) = [] := by
    refine List.filter_eq_nil_iff.mpr fun a ha hnot => ?_
    obtain ⟨q, hq, hbyName, hname⟩ := byName_of_mem_passing ha
    rw [Bool.not_eq_true', List.any_eq_false] at hnot
    simpa [hbyName, hname] using hnot q hq
  have hleft : (leftover arguments params).filter
      (fun a => !params.any fun q => q.byName && q.name = a.1) = leftover arguments params := by
    refine List.filter_eq_self.mpr fun a ha => ?_
    rw [Bool.not_eq_true', List.any_eq_false]
    intro q hq htakes
    rw [Bool.and_eq_true, decide_eq_true_eq] at htakes
    have hsingle := single_of_mem_leftover ha hq htakes.2
    rw [single_of_byName htakes.1] at hsingle
    cases hsingle
  rw [List.filter_append, hpassed, hleft, List.nil_append]

/-- A parameter finds by its name what is passed to it. -/
theorem lookup_passing_append (hnames : (params.map Param.name).Nodup) (hq : q ∈ params)
    (hbyName : q.byName = true) :
    ((passing arguments found params).named ++ leftover arguments params).lookup q.name
      = q.filling arguments found := by
  have hkind : q.kind ≠ .positional := by
    intro hk
    simp [Param.byName, hk] at hbyName
  have hleft : (leftover arguments params).lookup q.name = none := by
    refine List.lookup_eq_none_iff.mpr fun a ha => ?_
    by_contra hname
    have hname : q.name = a.1 := by simpa using hname
    have hsingle := single_of_mem_leftover ha hq hname
    rw [single_of_byName hbyName] at hsingle
    cases hsingle
  rw [List.lookup_append, lookup_passing hnames hq hkind, hleft, Option.or_none]

/-- What is passed binds. Where the parameters that take their argument by position only come first,
and none that keeps its default is followed by another one that gets a value, each parameter gets
the argument of its name, or else its default, or else what was found for it. -/
theorem bind_faithful {c : Callable} (hparams : c.params? p = some params)
    (hnames : (params.map Param.name).Nodup) (hleading : Leading params)
    (hsettling : Settling arguments params) (hdistinct : (arguments.map Prod.fst).Nodup)
    {inject : Option Injection} {passed : Passed} {s t : Store}
    (hrun : (r.bind p c arguments inject).run s = (.ok passed, t)) :
    ∃ found bound,
      ((params.filter (Param.asked arguments)).mapM
        (r.askFor p (p.resolves params) (c.name p) inject)).run s = (.ok found, t) ∧
      found.map Prod.fst = (params.filter (Param.asked arguments)).map Param.name ∧
      Param.bind? params passed = some bound ∧
      List.Forall₂ (fun q b => b.1 = q.name ∧
        q.receives arguments found (leftover arguments params) = some b.2) params bound ∧
      (leftover arguments params ≠ [] → ∃ q ∈ params, q.kind = .options) := by
  rw [bind_eq r p hparams hnames] at hrun
  obtain ⟨found, u, hfound, hrun⟩ := Work.bind_eq_ok hrun
  have hkeys := map_fst_of_askFor hfound
  split at hrun
  · rename_i hcollects
    cases hrun
    -- Each parameter that was asked for has a found value, as the found names are those of the
    -- asked.
    have hasked : ∀ q ∈ params, q.asked arguments = true → (found.lookup q.name).isSome = true := by
      intro q hq hasked
      refine isSome_lookup_of_mem ?_
      rw [hkeys]
      exact List.mem_map_of_mem (List.mem_filter.mpr ⟨hq, hasked⟩)
    have hleft : ((leftover arguments params).map Prod.fst).Nodup :=
      hdistinct.sublist (List.filter_sublist.map Prod.fst)
    obtain ⟨bound, hbound, hreceives⟩ := bindFrom_passing filter_passing hleft
      (fun q hq hbyName => lookup_passing_append hnames hq hbyName) hasked hleading hsettling
    rw [Bool.or_eq_true, List.isEmpty_iff] at hcollects
    refine ⟨found, bound, hfound, hkeys, ?_, hreceives, fun hmore => ?_⟩
    -- Every named argument has a parameter of its name, or the options collect it.
    · have hfits : (((passing arguments found params).named ++ leftover arguments params).all
          (fun a => params.any fun q => q.byName && q.name = a.1) ||
          params.any fun q => q.kind = .options) = true := by
        rcases hcollects with hnone | hoptions
        · rw [hnone, List.append_nil, Bool.or_eq_true, List.all_eq_true]
          refine .inl fun a ha => List.any_eq_true.mpr ?_
          obtain ⟨q, hq, hbyName, hname⟩ := byName_of_mem_passing ha
          exact ⟨q, hq, by simp [hbyName, hname]⟩
        · rw [hoptions, Bool.or_true]
      unfold Param.bind?
      rw [if_pos hfits]
      exact hbound
    · obtain ⟨q, hq, hoptions⟩ := List.any_eq_true.mp (hcollects.resolve_left hmore)
      exact ⟨q, hq, of_decide_eq_true hoptions⟩
  · cases hrun

/-- A function that takes a limit and a depth by position, a name, more by position, a target, and
options. -/
def reader : Function :=
  ⟨"app", "read", ⟨[⟨"limit", .positional, some (.int 10), .absent⟩,
    ⟨"depth", .positional, some (.int 1), .absent⟩, ⟨"name", .normal, none, .absent⟩,
    ⟨"more", .rest, none, .absent⟩, ⟨"target", .keyword, some .null, .absent⟩,
    ⟨"options", .options, none, .absent⟩], none, .self⟩⟩

/-- The limit is passed by position, and the depth behind it keeps its default. -/
theorem bind_faithful_reader :
    Leading reader.routine.params ∧
    Settling [("limit", .int 5), ("mode", .text "r")] reader.routine.params ∧
    (Registry.empty.bind ⟨[], []⟩ (.function reader) [("limit", .int 5), ("mode", .text "r")]
        (some echo)).run (Store.empty ⟨[], []⟩)
      = (.ok ⟨[.int 5], [("name", .list none [.text "name", .text "inspect._empty"]),
          ("mode", .text "r")]⟩, Store.empty ⟨[], []⟩) ∧
    ∃ found bound,
      Param.bind? reader.routine.params
          ⟨[.int 5], [("name", .list none [.text "name", .text "inspect._empty"]),
            ("mode", .text "r")]⟩ = some bound ∧
      List.Forall₂ (fun q b => b.1 = q.name ∧
        q.receives [("limit", .int 5), ("mode", .text "r")] found [("mode", .text "r")] = some b.2)
        reader.routine.params bound := by
  have hleading : Leading reader.routine.params := by
    unfold Leading
    decide
  have hsettling : Settling [("limit", .int 5), ("mode", .text "r")] reader.routine.params := by
    unfold Settling
    decide
  have hrun : (Registry.empty.bind ⟨[], []⟩ (.function reader)
      [("limit", .int 5), ("mode", .text "r")] (some echo)).run (Store.empty ⟨[], []⟩)
      = (.ok ⟨[.int 5], [("name", .list none [.text "name", .text "inspect._empty"]),
          ("mode", .text "r")]⟩, Store.empty ⟨[], []⟩) := rfl
  obtain ⟨found, bound, -, -, hbound, hreceives, -⟩ :=
    bind_faithful rfl (by decide) hleading hsettling (by decide) hrun
  exact ⟨hleading, hsettling, hrun, found, bound, hbound, hreceives⟩

/-- A function that takes two numbers by position. -/
def pairTaker : Function :=
  ⟨"app", "pair", ⟨[⟨"a", .positional, some (.int 1), .absent⟩,
    ⟨"b", .positional, some (.int 2), .absent⟩], none, .self⟩⟩

/-- The second number moves to the first parameter when the first one keeps its default. -/
theorem bind_moved :
    ((Registry.empty.bind ⟨[], []⟩ (.function pairTaker) [("b", .int 5)] none).run
        (Store.empty ⟨[], []⟩)).1.map (Param.bind? pairTaker.routine.params)
      = .ok (some [("a", .int 5), ("b", .int 2)]) := rfl

end Registry

end Wiring
