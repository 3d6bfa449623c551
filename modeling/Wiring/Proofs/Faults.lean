import Wiring.Proofs.Work
import Wiring.Store.Cores

/-!
# `Wiring.Proofs.Faults`: faults that tell of no build

A resolution fault tells of a definition that could not be built, and the reason behind it may tell
of another one that was being built inside. `Fault.builds` lists the definitions that a fault tells
of. Only the resolution reports such faults. This module shows it for what can be told without the
store: an outcome is `Direct` if its fault, where it has one, tells of no build.
-/

set_option autoImplicit false

namespace Wiring

/-- The keys of the definitions that a fault tells of, the innermost one first. -/
def Fault.builds : Fault → List DefinitionKey
  | .resolution site reason => reason.builds ++ [⟨site.interface, site.identifier⟩]
  | _ => []

/-- Faults that may tell of builds. -/
class Telling (ε : Type) where
  builds : ε → List DefinitionKey

instance : Telling Fault := ⟨Fault.builds⟩

export Telling (builds)

variable {ε ε' α β : Type} [Telling ε]

/-- An outcome whose fault tells of no build. -/
def Direct (x : Except ε α) : Prop := ∀ e, x = .error e → builds e = []

theorem direct_ok (a : α) : Direct (.ok a : Except ε α) := fun _ h => by cases h

theorem direct_error {e : ε} (h : builds e = []) : Direct (.error e : Except ε α) :=
  fun _ he => by cases he; exact h

theorem Direct.bind {x : Except ε α} {f : α → Except ε β} (hx : Direct x)
    (hf : ∀ a, Direct (f a)) : Direct (x >>= f) := by
  cases x with
  | ok a => exact hf a
  | error e => exact fun e' h => hx e' (by cases h; rfl)

theorem Direct.map {x : Except ε α} (hx : Direct x) (f : α → β) : Direct (x.map f) := by
  cases x with
  | ok a => exact direct_ok _
  | error e => exact fun e' h => hx e' (by cases h; rfl)

/-- A fault that is renamed to one that tells of no build. -/
theorem direct_mapError {f : ε' → ε} (hf : ∀ e, builds (f e) = []) (x : Except ε' α) :
    Direct (x.mapError f) := by
  cases x with
  | ok a => exact direct_ok _
  | error e => exact direct_error (hf e)

/-- A fault that keeps telling of no build. -/
theorem Direct.mapError [Telling ε'] {f : ε → ε'} (hf : ∀ e, builds e = [] → builds (f e) = [])
    {x : Except ε α} (hx : Direct x) : Direct (x.mapError f) := by
  cases x with
  | ok a => exact direct_ok _
  | error e => exact direct_error (hf e (hx e rfl))

theorem direct_mapM {f : α → Except ε β} (hf : ∀ a, Direct (f a)) (xs : List α) :
    Direct (xs.mapM f) := by
  induction xs with
  | nil => exact direct_ok _
  | cons x rest ih =>
    rw [List.mapM_cons]
    exact (hf x).bind fun _ => ih.bind fun _ => direct_ok _

open Wiring.Files

/-! ### Configurations and registries -/

theorem direct_checkKey (v : Value) : Direct (Config.checkKey v) := by
  unfold Config.checkKey
  split
  · exact direct_ok _
  · exact direct_error rfl

theorem direct_setAll (c : Config) (entries : List (Value × Value)) :
    Direct (c.setAll entries) := by
  induction entries generalizing c with
  | nil => exact direct_ok _
  | cons e rest ih =>
    unfold Config.setAll
    split
    · rename_i fault hfault
      exact direct_error (direct_checkKey _ fault hfault)
    · exact ih _

theorem direct_class? (g : Registry) (name : Value) : Direct (g.class? name) := by
  unfold Registry.class?
  split
  · split
    · exact direct_ok _
    · exact direct_error rfl
  · exact direct_error rfl
  · exact direct_error rfl

theorem direct_function? (g : Registry) (name : Value) : Direct (g.function? name) := by
  unfold Registry.function?
  split
  · split
    · exact direct_ok _
    · exact direct_error rfl
  · split
    · exact direct_error rfl
    · exact direct_error rfl

/-! ### Declarations -/

theorem direct_checkInterfaces (className : String) (v : Value) :
    Direct (DefinitionOf.checkInterfaces className v) := by
  unfold DefinitionOf.checkInterfaces
  split
  · exact direct_ok _
  · split
    · exact direct_error rfl
    · exact direct_mapError (fun _ => rfl) _

theorem direct_declare {γ : Type} (className identifier interfaces : Value) :
    Direct (DefinitionOf.declare className identifier interfaces : Except Fault (DefinitionOf γ)) :=
  (direct_mapError (fun _ => rfl) _).bind fun _ => (direct_mapError (fun _ => rfl) _).bind fun _ =>
    (direct_checkInterfaces _ _).bind fun _ => direct_ok _

theorem direct_soughtIdentifier (v : Value) : Direct (Store.soughtIdentifier v) := by
  unfold Store.soughtIdentifier
  split
  · exact direct_ok _
  · exact direct_ok _
  · split
    · exact direct_ok _
    · exact direct_error rfl

/-! ### Definition files -/

theorem direct_readProperties (method source : String) (read : List (Value × Value))
    (es : List Xml.Element) : Direct (Declaration.readProperties method source read es) := by
  induction es generalizing read with
  | nil => exact direct_ok _
  | cons e rest ih =>
    unfold Declaration.readProperties
    split
    · exact direct_error rfl
    · exact ih _

theorem direct_readArgument (method source : String) (e : Xml.Element) :
    Direct (Declaration.readArgument method source e) := by
  unfold Declaration.readArgument
  split
  · rename_i fault hfault
    exact direct_error (direct_readProperties _ _ _ _ fault hfault)
  · exact direct_mapError (fun _ => rfl) _

theorem direct_readCall (owner : Option String) (source : String) (e : Xml.Element) :
    Direct (Declaration.readCall owner source e) := by
  unfold Declaration.readCall
  split
  · exact direct_error rfl
  · exact (direct_mapM (fun _ => direct_readArgument _ _ _) _).bind fun _ => direct_ok _

theorem direct_readDependency (source : String) (e : Xml.Element) :
    Direct (Declaration.readDependency source e) := by
  have hinterface : ∀ (className : Option String) (x : Xml.Element),
      Direct (Declaration.readInterface className source x) := by
    intro className x
    unfold Declaration.readInterface
    split
    · exact direct_error rfl
    · exact direct_ok _
  have hrest := (direct_mapM (hinterface (e.filled? "class")) (e.childrenTagged "interface")).bind
    fun interfaces => (direct_mapM (direct_readCall ((e.filled? "class").orElse fun _ =>
        e.filled? "interface") source) (e.childrenTagged "call")).bind fun calls =>
      direct_ok (⟨e.filled? "interface", e.filled? "class", e.filled? "id", e.filled? "extends",
        interfaces, calls, source⟩ : Declaration)
  unfold Declaration.readDependency
  dsimp only
  split
  · split
    · exact (direct_error rfl).bind fun _ => hrest
    · split
      · exact (direct_error rfl).bind fun _ => hrest
      · exact hrest
  · exact hrest

theorem direct_ofContent (source : String) (x : Except Trouble ByteArray) :
    Direct (Declaration.ofContent source x) := by
  unfold Declaration.ofContent
  repeat' split
  all_goals first
    | exact direct_error rfl
    | exact direct_mapM (direct_readDependency source) _

theorem direct_apply (d : Declaration) (c : Catalogue) : Direct (d.apply c) := by
  have hclass : ∀ b, Direct (d.classOver b) := by
    intro b
    unfold Declaration.classOver
    split
    · exact direct_ok _
    · exact direct_mapError (fun _ => rfl) _
  have hextended : ∀ k, Direct (d.extended c.definitions k) := by
    intro k
    unfold Declaration.extended
    split
    · exact direct_error rfl
    · exact (direct_mapError (fun _ => rfl) _).bind fun _ => (hclass _).bind fun _ => direct_ok _
  have hstart : Direct (d.start c.definitions) := by
    unfold Declaration.start
    split
    · split
      exact (hextended _).map _
    · exact (direct_declare _ _ _).map _
  have hdefine : Direct (d.define c.definitions) := by
    unfold Declaration.define
    exact hstart.bind fun _ => (direct_checkInterfaces _ _).bind fun _ => direct_ok _
  exact hdefine.bind fun _ => (direct_mapError (fun _ => rfl) _).bind fun _ => direct_ok _

theorem direct_applyAll (c : Catalogue) (ds : List Declaration) :
    Direct (Declaration.applyAll c ds) := by
  induction ds generalizing c with
  | nil => exact direct_ok _
  | cons d rest ih =>
    unfold Declaration.applyAll
    split
    · rename_i fault hfault
      exact direct_error (direct_apply _ _ fault hfault)
    · exact ih _

theorem direct_load (t : Tree) (c : Catalogue) (paths : List Path) :
    Direct (Overlay.load t c paths).2 := by
  induction paths generalizing c with
  | nil => exact direct_ok _
  | cons p rest ih =>
    unfold Overlay.load
    split
    · rename_i fault hfault
      have hread : Direct ((Declaration.ofFile t p).bind (Declaration.applyAll c)) :=
        (direct_ofContent _ _).bind fun _ => direct_applyAll _ _
      exact direct_error (hread fault hfault)
    · exact ih _

/-! ### Snapshots -/

theorem direct_itemsOf (v : Value) : Direct (Snapshot.itemsOf v) := by
  unfold Snapshot.itemsOf
  split
  · exact direct_ok _
  · exact direct_error rfl

theorem direct_pairsOf (seen : List (Value × Value)) (vs : List Value) :
    Direct (Snapshot.pairsOf seen vs) := by
  induction vs generalizing seen with
  | nil => exact direct_ok _
  | cons v rest ih =>
    have hpair : Direct (Snapshot.pairOf v) := by
      refine (direct_itemsOf v).bind fun items => ?_
      repeat' split
      all_goals first
        | exact direct_error rfl
        | exact direct_ok _
    exact hpair.bind fun _ => ih _

theorem direct_propertiesOf (v : Value) : Direct (Snapshot.propertiesOf v) := by
  unfold Snapshot.propertiesOf
  split
  · exact direct_ok _
  · split
    · exact direct_ok _
    · exact (direct_itemsOf _).bind fun _ => direct_pairsOf _ _

theorem direct_readSnapshot (t : Tree) (p : Path) : Direct (Cache.read t p) := by
  unfold Cache.read
  repeat' split
  all_goals first
    | exact direct_error rfl
    | exact direct_ok _

theorem direct_clear (t : Tree) (p : Path) : Direct (Cache.clear t p) := by
  unfold Cache.clear
  split
  · exact direct_ok _
  · exact direct_ok _
  · exact direct_error rfl

/-! ### Settings -/

theorem direct_directory (v : Value) : Direct (Settings.directory v) := by
  unfold Settings.directory
  split
  · exact direct_ok _
  · exact direct_error rfl

theorem direct_directories (v : Value) : Direct (Settings.directories v) := by
  unfold Settings.directories
  split
  · exact direct_mapM direct_directory _
  · exact direct_error rfl

theorem direct_settings (g : GivenSettings) (vs : Variables) : Direct (Settings.of g vs) := by
  refine (direct_directory _).bind fun _ => (direct_directories _).bind fun _ => ?_
  dsimp only
  split
  · exact (direct_ok _).bind fun _ => direct_ok _
  · exact (direct_directory _).bind fun _ => direct_ok _

theorem direct_cacheFile (x : Settings) : Direct x.cacheFile := by
  unfold Settings.cacheFile
  split
  · exact direct_ok _
  · exact direct_error rfl

theorem direct_sourceOf (x : Settings) (b : Ref Browser) : Direct (Store.sourceOf x b) := by
  unfold Store.sourceOf
  dsimp only
  split
  · exact (direct_cacheFile x).map _
  · exact direct_ok _

end Wiring
