import Wiring.Value

/-!
# `Wiring.Resolution.Exclusion`: what may not be selected

A definition is asked for by its interface and its identifier, and the definition without identifier
is the default one of its interface. An exclusion set holds such keys. It is kept as a list without
repetition, and `listed` brings it into the order in which it is shown.
-/

set_option autoImplicit false

namespace Wiring

/-- The place of a definition in a container. -/
structure DefinitionKey where
  interface : String
  identifier : Option String
  deriving DecidableEq, Inhabited

/-- A set of keys. -/
structure Exclusions where
  keys : List DefinitionKey
  deriving DecidableEq, Inhabited

namespace Exclusions

/-- The set without keys. -/
def empty : Exclusions := ⟨[]⟩

/-- Adds a key. -/
def insert (e : Exclusions) (k : DefinitionKey) : Exclusions :=
  if k ∈ e.keys then e else ⟨e.keys ++ [k]⟩

/-- The set of the keys of a list. -/
def ofList (ks : List DefinitionKey) : Exclusions := ks.foldl insert empty

/-- Whether a key belongs to the set. -/
def contains (e : Exclusions) (k : DefinitionKey) : Bool := decide (k ∈ e.keys)

/-- Whether the set has no keys. -/
def isEmpty (e : Exclusions) : Bool := e.keys.isEmpty

/-- The order in which keys are shown: by interface, then the default one, then by identifier. -/
def precedes (a b : DefinitionKey) : Bool :=
  if a.interface = b.interface then
    match a.identifier, b.identifier with
    | none, _ => true
    | some _, none => false
    | some x, some y => decide (x ≤ y)
  else decide (a.interface ≤ b.interface)

/-- The keys in the order in which they are shown. -/
def listed (e : Exclusions) : List DefinitionKey := e.keys.mergeSort precedes

/-- A key as it stands in messages. -/
def keyText (k : DefinitionKey) : String := k.interface ++ "#" ++ Value.displayName k.identifier

/-- The set as it stands in messages. -/
def text (e : Exclusions) : String :=
  "ResolutionContext(exclude=[" ++ ", ".intercalate (e.listed.map keyText) ++ "])"

theorem mem_insert {e : Exclusions} {k k' : DefinitionKey} :
    k' ∈ (e.insert k).keys ↔ k' = k ∨ k' ∈ e.keys := by
  unfold insert
  split
  · rename_i h
    exact ⟨Or.inr, fun hk => hk.elim (fun he => he ▸ h) id⟩
  · simp [or_comm]

end Exclusions

end Wiring
