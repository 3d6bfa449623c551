import Wiring.Proofs.Growth
import Wiring.Store.Objects

/-!
# `Wiring.Proofs.Keeping`: making things keeps what is there

The lemmas go through the operations of the store in the order of its modules, up to the making of
objects and components of all classes. Each says that an operation keeps what was there in a store
`s₀`. A definition and an injector are changed while they are made, which is fine since they were
not there before.
-/

set_option autoImplicit false

namespace Wiring

open Wiring.Files

namespace Store

open Work

variable {ε : Type} [Telling ε] {I : Store → Prop} {s₀ : Store}

/-! ### Values -/

theorem keeps_look (v : Value) : Keeps I (look v : Work ε Value) :=
  keeps_get_bind (fun s j => by rw [current_withJournal]) fun _ => keeps_pure _

theorem keeps_allocate (hI : ∀ s c, I s → I { s with collections := s.collections ++ [c] })
    (c : Collection) : Keeps I (allocate c : Work ε Nat) :=
  keeps_modifyGet (fun s hs => hI s c hs) fun _ _ => rfl

mutual

/-- Settling a value only makes collections. -/
theorem keeps_settle_of (hI : ∀ s c, I s → I { s with collections := s.collections ++ [c] }) :
    ∀ v : Value, Keeps I (settle v : Work ε Value)
  | .list none items => by
    rw [settle]
    exact (keeps_settleItems_of hI items).bind fun _ => (keeps_allocate hI _).bind fun _ =>
      keeps_pure _
  | .map none entries => by
    rw [settle]
    exact (keeps_settleEntries_of hI entries).bind fun _ => (keeps_allocate hI _).bind fun _ =>
      keeps_pure _
  | .list (some _) _ | .map (some _) _ | .null | .bool _ | .int _ | .float _ | .text _ | .bytes _
  | .object _ | .component _ _ | .path _ | .parser _ | .other _ => keeps_pure _

/-- Settling items only makes collections. -/
theorem keeps_settleItems_of
    (hI : ∀ s c, I s → I { s with collections := s.collections ++ [c] }) :
    ∀ vs : List Value, Keeps I (settleItems vs : Work ε (List Value))
  | [] => keeps_pure _
  | v :: rest => by
    rw [settleItems]
    exact (keeps_settle_of hI v).bind fun _ => (keeps_settleItems_of hI rest).bind fun _ =>
      keeps_pure _

/-- Settling entries only makes collections. -/
theorem keeps_settleEntries_of
    (hI : ∀ s c, I s → I { s with collections := s.collections ++ [c] }) :
    ∀ es : List (Value × Value), Keeps I (settleEntries es : Work ε (List (Value × Value)))
  | [] => keeps_pure _
  | (_, v) :: rest => by
    rw [settleEntries]
    exact (keeps_settle_of hI v).bind fun _ => (keeps_settleEntries_of hI rest).bind fun _ =>
      keeps_pure _

end

theorem keeps_settle (v : Value) : Keeps s₀.Grows (settle v : Work ε Value) :=
  keeps_settle_of (fun _ _ hs => { hs with }) v

theorem keeps_settleEntries (es : List (Value × Value)) :
    Keeps s₀.Grows (settleEntries es : Work ε (List (Value × Value))) :=
  keeps_settleEntries_of (fun _ _ hs => { hs with }) es

theorem keeps_settleAll (vs : List (String × Value)) :
    Keeps s₀.Grows (settleAll vs : Work ε (List (String × Value))) := by
  induction vs with
  | nil => exact keeps_pure _
  | cons e rest ih =>
    rw [settleAll]
    exact (keeps_settle _).bind fun _ => ih.bind fun _ => keeps_pure _

theorem keeps_amend (place : Nat) (f : Collection → Collection) :
    Keeps s₀.Grows (amend place f : Work ε Unit) :=
  keeps_modify (fun _ hs => { hs with }) fun _ _ => rfl

theorem keeps_addObject (o : Object) : Keeps s₀.Grows (addObject o : Work ε Nat) := by
  refine keeps_modifyGet (fun s hs => { hs with objects := ?_ }) fun _ _ => rfl
  rw [List.map_append]
  exact hs.objects.trans (List.prefix_append _ _)

/-- A change of what an object records leaves what it is. -/
theorem keeps_changeObject {f : Object → Object} (hf : ∀ o, (f o).kept = o.kept) (id : Nat) :
    Keeps s₀.Grows (changeObject id f : Work ε Unit) := by
  refine keeps_modify (fun s hs => { hs with objects := ?_ }) fun _ _ => rfl
  rw [map_modify_of_eq hf]
  exact hs.objects

/-! ### Copies -/

/-- Copies stand behind everything that was there. -/
theorem grows_withCopies (s : Store) (found : List Node) : s.Grows (s.withCopies found) where
  program := rfl
  arguments := List.prefix_append _ _
  calls := List.prefix_append _ _
  definitions := List.prefix_append _ _
  containers := List.prefix_append _ _
  configs := List.prefix_append _ _
  registries := List.prefix_append _ _
  sources := List.prefix_append _ _
  contexts := List.prefix_append _ _
  injectors := List.prefix_append _ _
  settings := List.prefix_append _ _
  cores := List.prefix_append _ _
  objects := by
    show _ <+: List.map _ (_ ++ _)
    rw [List.map_append]
    exact List.prefix_append _ _
  browsers := (List.prefix_append _ _).map Browser.reset

theorem reachedIn_withJournal (s : Store) (j : List JournalEntry) (n : Nat) (found : List Node) :
    (s.withJournal j).reachedIn n found = s.reachedIn n found := by
  induction n generalizing found with
  | zero => rfl
  | succ n ih =>
    rw [reachedIn, reachedIn, ih]
    rfl

theorem keeps_copyReached (start : List Node) : Keeps s₀.Grows (copyReached start) := by
  refine keeps_of_run (f := fun s =>
    let found := s.reachedIn s.reach start.eraseDups
    if (componentsIn .cachedSource found).isEmpty then (.ok (s.newName found), s.withCopies found)
    else (.error (.foreign .type), s)) (fun s => ?_) (fun s hs => ?_) (fun s => ?_) fun s j => ?_
  · unfold copyReached
    rw [run_bind_ok (run_get s)]
    dsimp only
    split
    · rw [run_bind_ok (run_set s _), run_pure]
    · rw [run_foreign]
  · dsimp only
    split
    · exact hs.trans (grows_withCopies s _)
    · exact hs
  · dsimp only
    split
    · exact direct_ok _
    · exact direct_error rfl
  · dsimp only
    rw [reachedIn_withJournal]
    show (if (componentsIn .cachedSource (s.reachedIn s.reach start.eraseDups)).isEmpty = true
      then _ else _) = _
    split
    · rfl
    · rfl

theorem keeps_duplicate (v : Value) : Keeps s₀.Grows (duplicate v) :=
  (keeps_copyReached _).bind fun _ => keeps_settle _

/-! ### Declarations -/

theorem keeps_declareArgument (name kind : Value) (properties : List (Value × Value)) :
    Keeps s₀.Grows (declareArgument name kind properties) :=
  (keeps_lift_mapError (fun _ => rfl) _).bind fun _ => keeps_make _

theorem keeps_declareCall (method identifier : Value) (arguments : List (Ref Argument)) :
    Keeps s₀.Grows (declareCall method identifier arguments) :=
  (keeps_lift_mapError (fun _ => rfl) _).bind fun _ => keeps_make _

theorem keeps_declareDefinition (className identifier interfaces : Value) :
    Keeps s₀.Grows (declareDefinition className identifier interfaces) :=
  (keeps_lift (direct_declare _ _ _)).bind fun _ => keeps_make _

theorem returns_declareDefinition (className identifier interfaces : Value) :
    Returns s₀.Grows (fun r => ¬ s₀.definitions.Holds r)
      (declareDefinition className identifier interfaces) :=
  Returns.bind (keeps_lift (direct_declare _ _ _)) fun d => returns_make_definition d

theorem keeps_placeArgument (a : Argument) : Keeps s₀.Grows (placeArgument a) :=
  (keeps_settleEntries _).bind fun _ => keeps_make _

theorem keeps_placeCall (c : Call) : Keeps s₀.Grows (placeCall c) :=
  (keeps_mapM keeps_placeArgument _).bind fun _ => keeps_make _

theorem keeps_placeCalls (t : OrderedMap String (Ref CallCell)) (cs : List (String × Call)) :
    Keeps s₀.Grows (placeCalls t cs) := by
  induction cs generalizing t with
  | nil => exact keeps_pure _
  | cons e rest ih => exact (keeps_placeCall _).bind fun _ => ih _

theorem keeps_place (d : Definition) : Keeps s₀.Grows (place d) :=
  (keeps_mapM? keeps_placeCall _).bind fun _ => (keeps_placeCalls _ _).bind fun _ =>
    keeps_make _

/-! ### Containers -/

theorem keeps_placeEntries (c : ContainerCell) (known : List (Nat × Ref DefinitionCell))
    (es : List (DefinitionKey × Entry)) : Keeps s₀.Grows (placeEntries c known es) := by
  induction es generalizing c known with
  | nil => exact keeps_pure _
  | cons e rest ih =>
    rw [placeEntries]
    split
    · exact ih _ _
    · exact (keeps_place _).bind fun _ => ih _ _

theorem keeps_install (c : Catalogue) : Keeps s₀.Grows (install c) :=
  (keeps_placeEntries _ _ _).bind fun _ => keeps_make _

/-! ### Sources -/

theorem keeps_onFiles {α : Type} (f : Tree → Except Trouble α) : Keeps I (onFiles f) :=
  keeps_get_bind (fun _ _ => rfl) fun _ => keeps_lift_mapError (fun _ => rfl) _

theorem keeps_makeBrowser (application modules : Value) :
    Keeps s₀.Grows (makeBrowser application modules) := by
  unfold makeBrowser
  split <;> split <;>
    repeat' first
      | exact keeps_make _
      | exact keeps_lift (direct_directories _)
      | exact (keeps_lift (direct_directory _)).map _
      | exact keeps_pure _
      | refine Keeps.bind ?_ fun _ => ?_

/-- Asking a browser changes only what it remembers. -/
theorem reset_looked (b : Browser) (t : Tree) (refresh : Bool) :
    (b.looked t refresh).reset = b.reset := by
  unfold Browser.looked
  split <;> rfl

theorem keeps_includes [Looking I] (r : Ref Browser) (refresh : Bool) :
    Keeps I (includes r refresh) := by
  unfold includes
  refine keeps_get_bind (fun _ _ => rfl) fun s => ?_
  dsimp only
  have hlooked : Keeps I (change r fun b => b.looked s.files refresh : Action Unit) :=
    keeps_change_browser r fun b => reset_looked b s.files refresh
  split
  · exact (keeps_report _).bind fun _ => (keeps_onFiles _).bind fun _ =>
      hlooked.bind fun _ => keeps_pure _
  · exact (keeps_onFiles _).bind fun _ => hlooked.bind fun _ => keeps_pure _

theorem keeps_soughtName [Looking I] (r : Ref Browser) (name : Value) :
    Keeps I (soughtName r name) := by
  unfold soughtName
  refine (keeps_throw _ rfl).guarding ((keeps_includes _ _).bind fun directories => ?_)
  split
  · exact keeps_pure _
  · split
    · exact keeps_pure _
    · exact keeps_foreign _

theorem keeps_filesNamed [Looking I] (r : Ref Browser) (name : Value) :
    Keeps I (filesNamed r name) := by
  refine (keeps_soughtName _ _).bind fun found => ?_
  cases found with
  | some n => exact (keeps_read _).bind fun _ => keeps_onFiles _
  | none => exact keeps_pure _

theorem keeps_overlayFiles [Looking I] (r : Ref Browser) (o : Overlay) :
    Keeps I (overlayFiles r o) :=
  (keeps_mapM (fun _ => keeps_filesNamed r _) _).bind fun _ => keeps_pure _

theorem keeps_load (r : Ref Browser) (o : Overlay) : Keeps s₀.Grows (load r o) :=
  (keeps_overlayFiles r o).bind fun _ => keeps_get_bind (fun _ _ => rfl) fun _ =>
    (keeps_report _).bind fun _ => (keeps_lift (direct_load _ _ _)).bind fun _ => keeps_install _

theorem keeps_readCache (p : Path) : Keeps s₀.Grows (readCache p) :=
  keeps_get_bind (fun _ _ => rfl) fun _ => (keeps_lift (direct_readSnapshot _ _)).bind fun _ =>
    (keeps_report _).bind fun _ =>
    keeps_mapM? keeps_install _

theorem keeps_writeCache (p : Path) (r : Ref ContainerCell) :
    Keeps s₀.Grows (writeCache p r) := by
  refine keeps_of_run (f := fun s =>
    let answer := Cache.write s.files p (s.container r)
    (.ok answer.2.1, { s with files := answer.1, log := s.log ++ answer.2.2 })) (fun s => ?_)
    (fun _ hs => { hs with }) (fun _ => direct_ok _) fun s j => ?_
  · rfl
  · dsimp only
    rw [container_withJournal]
    rfl

theorem keeps_produce (x : Source) : Keeps s₀.Grows (produce x) := by
  induction x with
  | files r o => exact keeps_load r o
  | counting r => exact (keeps_change _ _).bind fun _ => (keeps_read _).bind fun _ => keeps_pure _
  | cached inner p ih =>
    rw [produce]
    refine (keeps_readCache p).bind fun first => ?_
    cases first with
    | some c => exact keeps_pure _
    | none =>
      refine (keeps_readCache p).bind fun second => ?_
      cases second with
      | some c => exact keeps_pure _
      | none => exact ih.bind fun _ => (keeps_writeCache _ _).bind fun _ => keeps_pure _

theorem keeps_containerFrom (r : Ref Source) : Keeps s₀.Grows (containerFrom r) :=
  (keeps_read _).bind fun x => keeps_produce x

/-! ### Injectors -/

theorem keeps_orNew {α : Type} [Stored α] [Growing α] {w : Action α} (hw : Keeps s₀.Grows w)
    (given : Option (Ref α)) : Keeps s₀.Grows (orNew given w) := by
  cases given with
  | some r => exact keeps_pure r
  | none => exact hw.bind fun _ => keeps_make _

theorem keeps_makeInjector (container : Option (Ref ContainerCell))
    (registry : Option (Ref Registry)) (config : Option (Ref Config)) :
    Keeps s₀.Grows (makeInjector container registry config) :=
  (keeps_orNew (keeps_pure _) _).bind fun _ => (keeps_orNew (keeps_pure _) _).bind fun _ =>
    keeps_make _

theorem returns_makeInjector (container : Option (Ref ContainerCell))
    (registry : Option (Ref Registry)) (config : Option (Ref Config)) :
    Returns s₀.Grows (fun r => ¬ s₀.injectors.Holds r)
      (makeInjector container registry config) :=
  Returns.bind (keeps_orNew (keeps_pure _) _) fun _ =>
    Returns.bind (keeps_orNew (keeps_pure _) _) fun _ => returns_make_injector _

theorem keeps_setParser {r : Ref Injector} (hr : ¬ s₀.injectors.Holds r) (kind : Value)
    (parser : Option (Parser (Ref Config))) : Keeps s₀.Grows (setParser r kind parser) := by
  unfold setParser
  cases kind.name? with
  | none => exact keeps_throw _ rfl
  | some k => exact keeps_change_injector hr _

theorem keeps_interfaceFor (r : Ref Injector) (value interface : Value) :
    Keeps I (interfaceFor r value interface) := by
  unfold interfaceFor
  split
  · exact keeps_get_bind (fun _ _ => rfl) fun _ => keeps_pure _
  · split
    · exact keeps_pure _
    · exact keeps_throw _ rfl

theorem keeps_setInstance {r : Ref Injector} (hr : ¬ s₀.injectors.Holds r)
    (value interface identifier : Value) :
    Keeps s₀.Grows (setInstance r value interface identifier) := by
  refine (keeps_interfaceFor r value interface).bind fun name =>
    (keeps_lift (direct_soughtIdentifier _)).bind fun found => ?_
  split
  · exact keeps_change_injector hr _
  · exact keeps_pure _

/-! ### Configurations -/

theorem keeps_mapping (v : Value) : Keeps I (mapping v) := by
  refine keeps_get_bind (fun s j => by rw [content_withJournal]) fun s => ?_
  split
  · exact keeps_pure _
  · split
    · exact keeps_foreign _
    · exact keeps_pure _

theorem sectioned_withJournal (s : Store) (j : List JournalEntry) (n : Nat) :
    (s.withJournal j).sectioned n = s.sectioned n := by
  induction n with
  | zero => rfl
  | succ n ih =>
    funext v
    rw [sectioned, sectioned, content_withJournal, ih]
    simp only [content_withJournal]

theorem setting_withJournal (s : Store) (j : List JournalEntry) :
    (s.withJournal j).setting = s.setting := by
  funext v
  exact congrFun (sectioned_withJournal s j _) v

theorem keeps_makeConfig (values : Value) : Keeps s₀.Grows (makeConfig values) :=
  (keeps_mapping _).bind fun _ => keeps_get_bind (fun s j => by
    rw [setting_withJournal]
    simp only [content_withJournal]) fun _ =>
    (keeps_lift (direct_setAll _ _)).bind fun _ => keeps_make _

theorem keeps_configValue (r : Ref Config) (key default : Value) :
    Keeps s₀.Grows (configValue r key default) := by
  refine keeps_get_bind (fun s j => by rw [content_withJournal]) fun _ =>
    (keeps_lift (direct_checkKey _)).bind fun _ => (keeps_read _).bind fun _ => ?_
  split
  · exact keeps_look _
  · exact keeps_duplicate _
  · exact keeps_pure _

/-! ### Cores -/

theorem keeps_heldSettings (r : Ref Settings) : Keeps I (heldSettings r) :=
  (keeps_read _).bind fun _ => (keeps_look _).bind fun _ => (keeps_look _).bind fun _ =>
    (keeps_look _).bind fun _ => (keeps_look _).bind fun _ => (keeps_look _).bind fun _ =>
      keeps_pure _

theorem keeps_makeCore (settings : Option (Ref Settings)) (config : Option (Ref Config))
    (registry : Option (Ref Registry)) (source : Option (Ref Source)) (surroundings : Variables) :
    Keeps s₀.Grows (makeCore settings config registry source surroundings) :=
  (keeps_orNew (keeps_lift (direct_settings _ _)) _).bind fun _ =>
    (keeps_orNew (keeps_pure _) _).bind fun _ => (keeps_orNew (keeps_pure _) _).bind fun _ =>
      (keeps_heldSettings _).bind fun _ => (keeps_makeBrowser _ _).bind fun _ =>
        (keeps_orNew (keeps_lift (direct_sourceOf _ _)) _).bind fun _ =>
          (keeps_containerFrom _).bind fun _ =>
            (keeps_makeInjector _ _ _).bind_of (returns_makeInjector _ _ _) fun _ hr =>
              (keeps_forM (fun _ => keeps_setParser hr _ _) _).bind fun _ =>
                (keeps_make (α := Core) _).bind fun _ =>
                  (keeps_forM (fun _ => keeps_setInstance hr _ _ _) _).bind fun _ => keeps_pure _

theorem keeps_openInjector (r : Ref Core) : Keeps I (openInjector r) := by
  refine (keeps_read _).bind fun c => ?_
  split
  · exact (keeps_throw _ rfl).bind fun _ => keeps_pure _
  · exact keeps_pure _

/-! ### References in values -/

theorem keeps_refIn {α : Type} (kind : ComponentKind) (v : Value) :
    Keeps I (refIn kind v : Action (Ref α)) := by
  refine keeps_get_bind (fun _ _ => rfl) fun s => ?_
  split
  · split
    · exact keeps_pure _
    · exact keeps_foreign _
  · exact keeps_foreign _

theorem keeps_refIn? {α : Type} (kind : ComponentKind) (v : Value) :
    Keeps I (refIn? kind v : Action (Option (Ref α))) := by
  unfold refIn?
  split
  · exact keeps_pure _
  · exact (keeps_refIn _ _).bind fun _ => keeps_pure _

theorem keeps_sourceIn (v : Value) : Keeps I (sourceIn v) := by
  refine keeps_get_bind (fun _ _ => rfl) fun s => ?_
  split
  · exact keeps_pure _
  · exact keeps_pure _
  · exact keeps_pure _
  · exact keeps_foreign _

theorem keeps_sourceIn? (v : Value) : Keeps I (sourceIn? v) := by
  unfold sourceIn?
  split
  · exact keeps_pure _
  · exact (keeps_sourceIn _).bind fun _ => keeps_pure _

theorem keeps_itemsOf (v : Value) : Keeps I (itemsOf v) := by
  refine keeps_get_bind (fun s j => by rw [content_withJournal]) fun s => ?_
  split
  · exact keeps_pure _
  · exact keeps_foreign _

/-! ### Making values and components -/

theorem keeps_makeText (named : List (String × Value)) : Keeps I (makeText named) := by
  unfold makeText
  refine (keeps_foreign _).guarding ?_
  split
  · exact keeps_pure _
  · refine (keeps_look _).bind fun v => ?_
    split
    · split
      · split
        · exact keeps_pure _
        · exact keeps_foreign _
      · exact keeps_pure _
    · split
      · exact keeps_foreign _
      · exact keeps_pure _

theorem keeps_constructBuiltin (b : BuiltinClass) (passed : Passed) :
    Keeps s₀.Grows (constructBuiltin b passed) := by
  unfold constructBuiltin
  split
  · exact keeps_settle _
  · exact keeps_makeText _
  · exact (keeps_itemsOf _).bind fun _ => keeps_settle _
  · exact keeps_settle _
  · exact keeps_pure _
  · exact keeps_pure _
  · exact keeps_pure _
  · exact keeps_pure _
  · exact keeps_pure _
  · exact keeps_pure _
  · exact (keeps_addObject _).bind fun _ => keeps_pure _
  · exact keeps_foreign _

theorem keeps_bound (params : List Param) (passed : Passed) :
    Keeps s₀.Grows (bound params passed) := by
  unfold bound
  split
  · exact keeps_settleAll _
  · exact keeps_foreign _

theorem keeps_lookAll (b : Bindings) : Keeps I (lookAll b) :=
  keeps_get_bind (fun s j => by rw [currentAll_withJournal]) fun _ => keeps_pure _

theorem keeps_makeComponent (kind : ComponentKind) (arg : String → Value) :
    Keeps s₀.Grows (makeComponent kind arg) := by
  cases kind with
  | argument =>
    exact keeps_get_bind (fun s j => by rw [content_withJournal]) fun _ =>
      (keeps_lift (direct_propertiesOf _)).bind fun _ =>
        (keeps_declareArgument _ _ _).bind fun _ => keeps_pure _
  | call =>
    have hrest : ∀ items : List Value, Keeps s₀.Grows (do
        let cells ← items.mapM (refIn .argument)
        pure (Component.mk .call
          (← declareCall (arg "method_name") (arg "call_id") cells).index).value : Action Value) :=
      fun _ => (keeps_mapM (fun _ => keeps_refIn _ _) _).bind fun _ =>
        (keeps_declareCall _ _ _).bind fun _ => keeps_pure _
    unfold makeComponent
    dsimp only
    split
    · exact (keeps_itemsOf _).bind hrest
    · exact (keeps_pure _).bind hrest
  | definition =>
    refine (keeps_declareDefinition _ _ _).bind_of (returns_declareDefinition _ _ _) fun d hd =>
      (keeps_refIn? _ _).bind fun c => ?_
    cases c with
    | some c => exact (keeps_change_definition hd _).bind fun _ => keeps_pure _
    | none => exact keeps_pure _
  | container => exact (keeps_make (α := ContainerCell) _).bind fun _ => keeps_pure _
  | xmlSource => exact (keeps_refIn _ _).bind fun _ => (keeps_make _).bind fun _ => keeps_pure _
  | cachedSource =>
    exact (keeps_lift (direct_directory _)).bind fun _ => (keeps_sourceIn _).bind fun _ =>
      (keeps_read _).bind fun _ => (keeps_make _).bind fun _ => keeps_pure _
  | countingSource =>
    exact (keeps_refIn _ _).bind fun _ => (keeps_make (α := Counter) _).bind fun _ =>
      (keeps_make _).bind fun _ => keeps_pure _
  | browser => exact (keeps_makeBrowser _ _).bind fun _ => keeps_pure _
  | config => exact (keeps_makeConfig _).bind fun _ => keeps_pure _
  | factory => exact (keeps_make (α := Registry) _).bind fun _ => keeps_pure _
  | context => exact (keeps_make (α := Exclusions) _).bind fun _ => keeps_pure _
  | injector =>
    exact (keeps_refIn? _ _).bind fun _ => (keeps_refIn? _ _).bind fun _ =>
      (keeps_refIn? _ _).bind fun _ => (keeps_makeInjector _ _ _).bind fun _ => keeps_pure _
  | settings =>
    exact (keeps_lift (direct_settings _ _)).bind fun _ => (keeps_make (α := Settings) _).bind
      fun _ => keeps_pure _
  | core =>
    exact (keeps_refIn? _ _).bind fun _ => (keeps_refIn? _ _).bind fun _ =>
      (keeps_refIn? _ _).bind fun _ => (keeps_sourceIn? _).bind fun _ =>
        (keeps_makeCore _ _ _ _ _).bind fun _ => keeps_pure _
  | cacheControl =>
    exact (keeps_refIn _ _).bind fun _ => (keeps_make (α := CacheControl) _).bind fun _ =>
      keeps_pure _

theorem keeps_constructComponent (kind : ComponentKind) (passed : Passed) :
    Keeps s₀.Grows (constructComponent kind passed) :=
  (keeps_bound _ _).bind fun _ => (keeps_lookAll _).bind fun _ => keeps_makeComponent _ _

/-! ### Making objects -/

theorem keeps_raising (r : Routine) : Keeps I (raising r) := by
  unfold raising
  split
  · split
    · exact keeps_foreign _
    · exact keeps_throw _ rfl
  · exact keeps_pure _

theorem keeps_unmadePart (base : ClassRef) (passed : Passed) :
    Keeps s₀.Grows (unmadePart base passed) := by
  unfold unmadePart
  split
  · exact (keeps_settle _).bind fun _ => keeps_pure _
  · exact (keeps_settle _).bind fun _ => keeps_pure _
  · exact keeps_pure _
  · exact (keeps_constructBuiltin _ _).bind fun _ => keeps_pure _
  · exact keeps_pure _

theorem keeps_inheritedPart (base : ClassRef) (passed : Passed) :
    Keeps s₀.Grows (inheritedPart base passed) := by
  unfold inheritedPart
  split
  · exact (keeps_bound _ _).bind fun _ => keeps_pure _
  · exact (keeps_constructBuiltin _ _).bind fun _ => keeps_pure _
  · exact (keeps_constructComponent _ _).bind fun _ => keeps_pure _
  · exact keeps_foreign _

theorem keeps_construct (c : ClassRef) (passed : Passed) :
    Keeps s₀.Grows (construct c passed) := by
  refine keeps_get_bind (fun _ _ => rfl) fun s => ?_
  cases c with
  | builtin b => exact keeps_constructBuiltin b passed
  | component k => exact keeps_constructComponent k passed
  | outside m n => exact keeps_foreign _
  | declared i =>
    dsimp only
    split
    · exact (keeps_unmadePart _ _).bind fun _ => (keeps_bound _ _).bind fun _ =>
        (keeps_raising _).bind fun _ => (keeps_addObject _).bind fun _ => keeps_pure _
    · exact (keeps_inheritedPart _ _).bind fun _ => (keeps_addObject _).bind fun _ => keeps_pure _

/-! ### Literals -/

theorem keeps_slotValue (name : String) : Keeps I (slotValue name) := by
  refine keeps_get_bind (fun _ _ => rfl) fun s => ?_
  split
  · exact keeps_look _
  · exact keeps_throw _ rfl

theorem keeps_makeNan : Keeps s₀.Grows makeNan :=
  keeps_modifyGet (fun _ hs => { hs with }) fun _ _ => rfl

mutual

theorem keeps_evaluate : ∀ l : Literal, Keeps s₀.Grows (evaluate l)
  | .value v => by
    rw [evaluate]
    exact keeps_settle v
  | .slot name => by
    rw [evaluate]
    exact keeps_slotValue name
  | .notANumber => by
    rw [evaluate]
    exact keeps_makeNan
  | .list items => by
    rw [evaluate]
    exact (keeps_evaluateItems items).bind fun _ => keeps_settle _
  | .map entries => by
    rw [evaluate]
    exact (keeps_evaluateEntries entries).bind fun _ => keeps_settle _
  | .fresh c arguments => by
    rw [evaluate]
    exact (keeps_evaluateEntries arguments).bind fun _ => keeps_construct c _

theorem keeps_evaluateItems : ∀ ls : List Literal, Keeps s₀.Grows (evaluateItems ls)
  | [] => by
    rw [evaluateItems]
    exact keeps_pure _
  | l :: rest => by
    rw [evaluateItems]
    exact (keeps_evaluate l).bind fun _ => (keeps_evaluateItems rest).bind fun _ => keeps_pure _

theorem keeps_evaluateEntries : ∀ ls : List (String × Literal),
    Keeps s₀.Grows (evaluateEntries ls)
  | [] => by
    rw [evaluateEntries]
    exact keeps_pure _
  | (_, l) :: rest => by
    rw [evaluateEntries]
    exact (keeps_evaluate l).bind fun _ => (keeps_evaluateEntries rest).bind fun _ =>
      keeps_pure _

end

end Store

end Wiring
