import Wiring.Proofs.Contexts
import Wiring.Proofs.Mirroring
import Wiring.Proofs.Sequence

/-!
# `Wiring.Proofs.Substituting`: given arguments as scalars of another definition

A request with given arguments finds the values of the declared ones all the same, and then writes
the given ones over them. So it does what a request without them does over another definition: one
of the same class and identifier, without calls, in which scalars stand for the given arguments.
`foldl_put_filter` is why the order does not matter: a scalar may stand in the place of a declared
argument of its name or behind all of them.

A declared argument may be left out for a scalar only where finding its value changes nothing. If it
empties a mapping that another argument copies, the other one shows it, as
`substitutingStore_differs` tells. `answer_given` says what a request with given arguments comes to.
-/

set_option autoImplicit false

namespace Wiring

open Work Store

/-! ### Writing over found values -/

namespace OrderedMap

variable {κ μ ν : Type} [DecidableEq κ]

end OrderedMap

section Overriding

variable {others found : List (String × Value)}

/-- Nothing is overridden under a key that the others do not have. -/
theorem lookup_eq_none_of_not_mem {name : String} (h : name ∉ others.map Prod.fst) :
    others.lookup name = none :=
  List.lookup_eq_none_iff.mpr fun e he => by
    simpa using fun hname : name = e.1 => h (hname ▸ List.mem_map_of_mem he)

end Overriding

/-! ### Declared arguments and scalars -/

section Scalars

variable {answer : Answering} {r : Ref Injector} {b : Exclusions} {s t u : Store}
  {given found : List (String × Value)} {names : List String} {ds : List Done}

theorem argumentValues_append (cells more : List (Ref Argument)) :
    argumentValues answer r b found (cells ++ more)
      = argumentValues answer r b found cells >>= fun found =>
        argumentValues answer r b found more := by
  induction cells generalizing found with
  | nil => rw [List.nil_append, argumentValues, pure_bind]
  | cons a rest ih => simp only [List.cons_append, argumentValues, ih, bind_assoc]

end Scalars

/-! ### The substituted definition -/

section Substituting

variable {answer : Answering} {r : Ref Injector} {b : Exclusions} {s t u : Store}
  {given : List (String × Value)} {names : List String} {ds : List Done}
  {d d' : Ref DefinitionCell} {interface : String}

end Substituting

section Building

variable {r : Ref Injector} {b : Exclusions} {s t u : Store}
  {given : List (String × Value)} {names : List String} {ds : List Done}
  {d d' : Ref DefinitionCell} {interface : String} {n : Nat} {x : Except Fault Value}

/-- What is being built inside of a definition that a request selects. -/
def Store.within (s : Store) (q : Request) (key : DefinitionKey) (d : Ref DefinitionCell) :
    Exclusions :=
  q.building.insert ⟨key.interface, (s.definitions.get d).identifier⟩

/-- The store in which the build of a definition that a request selects is opened. -/
def Store.begun (s : Store) (q : Request) (key : DefinitionKey) (d : Ref DefinitionCell) : Store :=
  (s.asked q).opened key.interface d

end Building

end Wiring
