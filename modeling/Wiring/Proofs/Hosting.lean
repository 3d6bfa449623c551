import Wiring.Proofs.Keeping
import Wiring.Resolution.Invocation

/-!
# `Wiring.Proofs.Hosting`: what code of the program leaves alone

Running code of the program keeps what requests are answered from, however it binds its arguments,
fails and answers. The same holds for the members of values of the language, which may change
collections and files. Only the members of components can do more.
-/

set_option autoImplicit false

namespace Wiring

/-- Whether something that can be called is a member of a component or of its class. Such a member
may change declarations and may ask for objects. -/
def Callable.isOwn : Callable → Bool
  | .member _ _ _ | .fromFiles _ => true
  | _ => false

namespace Store

open Work

variable {I : Store → Prop} {s₀ : Store}

/-! ### Members of values of the language -/

theorem keeps_reply (r : Host.Reply) : Keeps s₀.Grows (reply r) :=
  (keeps_lift_mapError (fun _ => rfl) _).bind fun _ => keeps_settle _

theorem keeps_silently {a : Action Unit} (ha : Keeps I a) : Keeps I (silently a) :=
  ha.bind fun _ => keeps_pure _

theorem keeps_changeFiles (f : Files.Tree → Except Files.Trouble Files.Tree) :
    Keeps s₀.Grows (changeFiles f) :=
  (keeps_onFiles _).bind fun _ => keeps_modify (fun _ hs => { hs with }) fun _ _ => rfl

theorem keeps_fileText (p : Files.Path) : Keeps I (fileText p) := by
  refine (keeps_onFiles _).bind fun content => ?_
  split
  · exact keeps_pure _
  · exact keeps_foreign _

theorem keeps_pathMethod (p : Files.Path) (method : String) :
    Keeps s₀.Grows (pathMethod p method) := by
  unfold pathMethod
  split
  · exact (keeps_onFiles _).bind fun _ => keeps_pure _
  · exact (keeps_onFiles _).bind fun _ => keeps_pure _
  · exact (keeps_onFiles _).bind fun _ => (keeps_onFiles _).bind fun _ => keeps_pure _
  · exact (keeps_fileText _).bind fun _ => keeps_pure _
  · exact (keeps_onFiles _).bind fun _ => keeps_pure _
  · exact keeps_pure _
  · exact keeps_pure _
  · exact keeps_pure _
  · exact keeps_pure _
  · exact keeps_pure _
  · exact keeps_silently (keeps_changeFiles _)
  · exact keeps_pure _

theorem keeps_placeOf (size : Nat) (i : Int) : Keeps I (placeOf size i) := by
  unfold placeOf
  dsimp only
  split
  · split
    · exact keeps_pure _
    · exact keeps_foreign _
  · split
    · exact keeps_pure _
    · exact keeps_foreign _

theorem keeps_sorted (reverse : Bool) (items : List Value) : Keeps I (sorted reverse items) := by
  unfold sorted
  dsimp only
  split
  · exact keeps_pure _
  · exact keeps_foreign _

theorem keeps_intArgument (default : Int) (v : Value) : Keeps I (intArgument default v) :=
  keeps_lift_mapError (fun _ => rfl) _

theorem keeps_itemsArgument (v : Value) : Keeps I (itemsArgument v) := keeps_itemsOf v

theorem keeps_changeItems (place : Nat) (items : List Value) :
    Keeps s₀.Grows (silently (changeItems place fun _ => items)) :=
  keeps_silently (keeps_amend _ _)

theorem keeps_changeEntries (place : Nat) (entries : List (Value × Value)) :
    Keeps s₀.Grows (silently (changeEntries place fun _ => entries)) :=
  keeps_silently (keeps_amend _ _)

theorem keeps_putEntry (place : Nat) (key value : Value) :
    Keeps s₀.Grows (putEntry place key value : Action Unit) := keeps_amend _ _

/-- Each member of a list looks at its arguments, and then fails, answers or changes the items. -/
theorem keeps_listMethod (place : Nat) (items : List Value) (method : String)
    (arg : String → Value) : Keeps s₀.Grows (listMethod place items method arg) := by
  unfold listMethod
  dsimp only
  split
  all_goals
    repeat' with_reducible first
      | exact keeps_changeItems _ _
      | exact keeps_pure _
      | exact keeps_foreign _
      | exact keeps_settle _
      | exact keeps_lift_mapError (fun _ => rfl) _
      | exact keeps_intArgument _ _
      | exact keeps_itemsArgument _
      | exact keeps_placeOf _ _
      | exact keeps_sorted _ _
      | refine Keeps.bind ?_ fun _ => ?_
      | split

/-- Each member of a mapping looks at its arguments, and then fails, answers or changes the
entries. -/
theorem keeps_mapMethod (place : Nat) (entries : List (Value × Value)) (method : String)
    (arg : String → Value) (named : List (String × Value)) :
    Keeps s₀.Grows (mapMethod place entries method arg named) := by
  unfold mapMethod
  dsimp only
  split
  all_goals
    repeat' with_reducible first
      | exact keeps_changeEntries _ _
      | exact keeps_putEntry _ _ _
      | exact keeps_silently (keeps_putEntry _ _ _)
      | exact keeps_pure _
      | exact keeps_foreign _
      | exact keeps_settle _
      | exact keeps_itemsArgument _
      | refine Keeps.bind ?_ fun _ => ?_
      | split

theorem keeps_objectMethod (self : Value) (method : String) (arg : String → Value)
    (named : List (String × Value)) : Keeps s₀.Grows (objectMethod self method arg named) := by
  unfold objectMethod
  split
  all_goals
    repeat' with_reducible first
      | exact keeps_pure _
      | exact keeps_foreign _
      | exact keeps_settle _
      | split

theorem keeps_answerBuiltin (v : Value) (m : BuiltinMember) (arg : String → Value)
    (named : List (String × Value)) : Keeps s₀.Grows (answerBuiltin v m arg named) := by
  unfold answerBuiltin
  split
  · exact keeps_objectMethod _ _ _ _
  · split
    all_goals
      repeat' with_reducible first
        | exact keeps_objectMethod _ _ _ _
        | exact keeps_reply _
        | exact keeps_listMethod _ _ _ _
        | exact keeps_mapMethod _ _ _ _ _
        | exact keeps_pathMethod _ _
        | split

theorem keeps_builtinArguments (m : BuiltinMember) (passed : Passed) :
    Keeps s₀.Grows (builtinArguments m passed) := by
  unfold builtinArguments
  split
  · exact (keeps_bound _ _).bind fun _ => (keeps_lookAll _).bind fun _ => keeps_pure _
  · dsimp only
    split
    · exact keeps_pure _
    · exact keeps_foreign _

theorem keeps_runBuiltin (self : Value) (m : BuiltinMember) (passed : Passed) :
    Keeps s₀.Grows (runBuiltin self m passed) :=
  (keeps_builtinArguments _ _).bind fun _ => (keeps_look _).bind fun _ =>
    keeps_answerBuiltin _ _ _ _

/-! ### Attributes -/

theorem builtinAttribute_withJournal (s : Store) (j : List JournalEntry) (v : Value)
    (b : BuiltinClass) (name : String) :
    (s.withJournal j).builtinAttribute v b name = s.builtinAttribute v b name := by
  unfold builtinAttribute
  rw [content_withJournal]
  rfl

theorem keeps_componentAttribute (v : Value) (kind : ComponentKind) (name : String) :
    Keeps I (componentAttribute v kind name) := by
  refine keeps_get_bind (fun s j => ?_) fun s => ?_
  · rw [builtinAttribute_withJournal]
    rfl
  dsimp only
  split
  · exact keeps_pure _
  · split
    · exact keeps_pure _
    · split
      · exact keeps_pure _
      · split
        · exact keeps_pure _
        · split
          · exact (keeps_openInjector _).bind fun _ => keeps_pure _
          · exact keeps_pure _

theorem keeps_valueAttribute (v : Value) (name : String) : Keeps I (valueAttribute v name) := by
  refine keeps_get_bind (fun s j => ?_) fun s => ?_
  · simp only [builtinAttribute_withJournal]
    rfl
  dsimp only
  split
  · exact keeps_pure _
  · exact keeps_pure _
  · exact keeps_pure _
  · split
    · exact keeps_pure _
    · split
      · exact keeps_componentAttribute _ _ _
      · exact keeps_pure _
      · exact keeps_pure _
      · exact keeps_pure _

/-! ### Code of the program -/

theorem keeps_answerOf (object : Option Nat) (a : Answer) :
    Keeps s₀.Grows (answerOf object a) := by
  cases a with
  | literal l => exact keeps_evaluate l
  | self => exact keeps_pure _
  | recorded name =>
    cases object with
    | none => exact keeps_foreign _
    | some id =>
      refine keeps_get_bind (fun _ _ => rfl) fun s => ?_
      split
      · exact keeps_look _
      · exact keeps_pure _

theorem keeps_runDetached (r : Routine) (passed : Passed) :
    Keeps s₀.Grows (runDetached r passed) :=
  (keeps_bound _ _).bind fun _ => (keeps_raising _).bind fun _ => keeps_answerOf _ _

/-- What is no member of a component keeps what requests are answered from. -/
theorem keeps_perform {c : Callable} (hc : c.isOwn = false) (answer : Answering)
    (passed : Passed) : Keeps s₀.Grows (perform answer c passed) := by
  refine keeps_get_bind (fun _ _ => rfl) fun s => ?_
  cases c with
  | function f => exact keeps_runDetached _ _
  | construct c => exact keeps_construct _ _
  | detached owner m => exact keeps_runDetached _ _
  | unbound owner name params => exact keeps_foreign _
  | method id owner m =>
    refine (keeps_bound _ _).bind fun b => (keeps_changeObject ?_ _).bind fun _ =>
      (keeps_raising _).bind fun _ => keeps_answerOf _ _
    exact fun _ => rfl
  | initializer id owner r =>
    refine (keeps_bound _ _).bind fun b => (keeps_changeObject ?_ _).bind fun _ =>
      (keeps_raising _).bind fun _ => keeps_pure _
    exact fun _ => rfl
  | member self kind m => cases hc
  | fromFiles c => cases hc
  | builtin self className m => exact keeps_runBuiltin _ _ _
  | ofClass c name =>
    refine (keeps_bound _ _).bind fun _ => ?_
    split
    · exact keeps_settle _
    · exact keeps_settle _
    · exact keeps_pure _

end Store

end Wiring
