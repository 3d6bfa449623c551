import Mathlib.Data.List.Basic
import Wiring.Proofs.OrderedMaps
import Wiring.Registry

/-!
# `Wiring.Proofs.Registering`: which of its names a class is known by

A registry lists a name where it was first registered, for whichever class, and a later registration
under the name changes the class and not the place. So a class is known by the first of its names in
the order in which names first came up (`interfaceName_of_keys`), and listing more names never moves
this place (`keys_registerAll`).

`interfaceName_earliest` says what this comes to for a whole run of registrations. As long as no
name of the class had been another one's, the class is known by the name that it was given first. A
name that it took over from another class stands where that one had it, and so may come before its
own (`interfaceName_takenOver`).
-/

set_option autoImplicit false

namespace Wiring

/-- A registration of a class, under the given name or else under its full name. -/
structure Registration where
  cls : ClassRef
  name : Option String

/-- The name that a registration is made under. -/
def Registration.label (p : Program) (x : Registration) : String :=
  Registry.nameOr x.name (p.fullName x.cls)

namespace Registry

/-- Makes registrations in turn. -/
def registerAll (r : Registry) (p : Program) (calls : List Registration) : Registry :=
  calls.foldl (fun r x => r.register p x.cls x.name) r

/-- The class that a name belongs to, if any. -/
def owner? (r : Registry) (name : String) : Option ClassRef := r.classes.get? name

variable {r : Registry} {p : Program} {c : ClassRef}

/-! ### One registration -/

theorem owner?_register (x : Registration) (k : String) :
    (r.register p x.cls x.name).owner? k = if k = x.label p then some x.cls else r.owner? k :=
  OrderedMap.get?_insert _ _ _ _

theorem keys_register (x : Registration) :
    (r.register p x.cls x.name).classes.keys
      = if x.label p ∈ r.classes.keys then r.classes.keys else r.classes.keys ++ [x.label p] :=
  OrderedMap.keys_insert _ _ _

/-! ### Registrations in turn -/

theorem registerAll_append (calls more : List Registration) :
    r.registerAll p (calls ++ more) = (r.registerAll p calls).registerAll p more :=
  List.foldl_append

/-- Names keep their places, and new ones follow. -/
theorem keys_registerAll (calls : List Registration) :
    r.classes.keys <+: (r.registerAll p calls).classes.keys := by
  induction calls generalizing r with
  | nil => exact List.prefix_refl _
  | cons x rest ih =>
    have hstep : r.classes.keys <+: (r.register p x.cls x.name).classes.keys := by
      rw [keys_register]
      split
      · exact List.prefix_refl _
      · exact List.prefix_append _ _
    exact hstep.trans ih

/-- The names that are listed are those that there were and those that were registered. -/
theorem mem_keys_registerAll {calls : List Registration} {k : String} :
    k ∈ (r.registerAll p calls).classes.keys
      ↔ k ∈ r.classes.keys ∨ k ∈ calls.map (Registration.label p) := by
  induction calls generalizing r with
  | nil => simp [registerAll]
  | cons x rest ih =>
    have hstep : k ∈ (r.register p x.cls x.name).classes.keys
        ↔ k = x.label p ∨ k ∈ r.classes.keys := OrderedMap.mem_keys_put
    rw [show r.registerAll p (x :: rest) = (r.register p x.cls x.name).registerAll p rest from rfl,
      ih, hstep, List.map_cons, List.mem_cons]
    tauto

/-- A name stays with its class as long as it is registered for no other one. -/
theorem owner?_registerAll_of_kept {calls : List Registration} {k : String}
    (hk : r.owner? k = some c) (hkept : ∀ x ∈ calls, x.label p = k → x.cls = c) :
    (r.registerAll p calls).owner? k = some c := by
  induction calls generalizing r with
  | nil => exact hk
  | cons x rest ih =>
    refine ih ?_ fun y hy => hkept y (List.mem_cons_of_mem _ hy)
    rw [owner?_register]
    split
    · rename_i he
      rw [hkept x List.mem_cons_self he.symm]
    · exact hk

/-- A name that is registered for a class in none of the registrations is its own only if it was. -/
theorem owner?_of_registerAll {calls : List Registration} {k : String}
    (hk : (r.registerAll p calls).owner? k = some c)
    (hnever : ∀ x ∈ calls, x.cls = c → x.label p ≠ k) : r.owner? k = some c := by
  induction calls generalizing r with
  | nil => exact hk
  | cons x rest ih =>
    have hstep := ih hk fun y hy => hnever y (List.mem_cons_of_mem _ hy)
    rw [owner?_register] at hstep
    split at hstep
    · rename_i he
      exact absurd he.symm (hnever x List.mem_cons_self (Option.some.inj hstep))
    · exact hstep

/-! ### The name that a class is known by -/

/-- A class is known by a name of its own when no name listed before belongs to it. -/
theorem interfaceName_of_keys {ks : List String} {n : String}
    (hplace : ks ++ [n] <+: r.classes.keys) (hn : r.owner? n = some c)
    (hks : ∀ k ∈ ks, r.owner? k ≠ some c) : r.interfaceName p c = n := by
  obtain ⟨rest, hrest⟩ := hplace
  obtain ⟨front, back, hentries, hfront, hback⟩ := List.map_eq_append_iff.mp
    (show r.classes.entries.map Prod.fst = (ks ++ [n]) ++ rest from hrest.symm)
  obtain ⟨first, last, rfl, hfirst, hlast⟩ := List.map_eq_append_iff.mp hfront
  obtain ⟨⟨n', d⟩, rfl, rfl⟩ := List.map_eq_singleton_iff.mp hlast
  -- The entry in this place is that of the name, and no entry before it is of the class.
  have hd : d = c := by
    have hlisted : r.owner? n' = some d := OrderedMap.get?_eq_some_iff.mpr (by simp [hentries])
    exact Option.some.inj (hlisted.symm.trans hn)
  have hnone : first.find? (fun e => e.2 = c) = none := by
    refine List.find?_eq_none.mpr fun e he hec => hks e.1 ?_ ?_
    · exact hfirst ▸ List.mem_map_of_mem he
    · refine OrderedMap.get?_eq_some_iff.mpr ?_
      have hec : e.2 = c := of_decide_eq_true hec
      simp [hentries, ← hec, he]
  have hfound : r.classes.entries.find? (fun e => e.2 = c) = some (n', d) := by
    rw [hentries, List.append_assoc, List.find?_append, hnone, List.singleton_append,
      List.find?_cons_of_pos (by simpa using hd)]
    rfl
  rw [interfaceName, hfound]

/-- The first registration under a name that belongs to a class in the end. -/
theorem exists_first {calls : List Registration} {m : String}
    (hm : (empty.registerAll p calls).owner? m = some c) :
    ∃ before x after, calls = before ++ x :: after ∧
      (empty.registerAll p calls).owner? (x.label p) = some c ∧
      ∀ y ∈ before, (empty.registerAll p calls).owner? (y.label p) ≠ some c := by
  have hlisted : m ∈ (empty.registerAll p calls).classes.keys :=
    List.mem_map_of_mem (OrderedMap.get?_eq_some_iff.mp hm)
  have hcalled : m ∈ calls.map (Registration.label p) :=
    (mem_keys_registerAll.mp hlisted).resolve_left List.not_mem_nil
  obtain ⟨z, hz, rfl⟩ := List.mem_map.mp hcalled
  obtain ⟨x, hx⟩ := Option.isSome_iff_exists.mp (List.find?_isSome
    (p := fun y => decide ((empty.registerAll p calls).owner? (y.label p) = some c)).mpr
      ⟨z, hz, decide_eq_true hm⟩)
  obtain ⟨hown, before, after, hsplit, hbefore⟩ := List.find?_eq_some_iff_append.mp hx
  exact ⟨before, x, after, hsplit, of_decide_eq_true hown,
    fun y hy => by simpa using hbefore y hy⟩

/-- What a class is known by, after any registrations in a new registry that leave it some name: a
name of its own, and the one that came up first among its names. Where no name of the class had
been registered for another one, it is the one that was registered for the class first. It stays the
same through more registrations as long as it is not given to another class, and the class is given
no name that came up before it and had gone to others. -/
theorem interfaceName_earliest (p : Program) (calls : List Registration) (c : ClassRef)
    (m : String) (hm : (empty.registerAll p calls).owner? m = some c) :
    ∃ before x after, calls = before ++ x :: after ∧
      (empty.registerAll p calls).interfaceName p c = x.label p ∧
      (empty.registerAll p calls).class? (.text (x.label p)) = .ok c ∧
      (∀ y ∈ before, (empty.registerAll p calls).owner? (y.label p) ≠ some c) ∧
      ((∀ y ∈ calls, (empty.registerAll p calls).owner? (y.label p) = some c → y.cls = c) →
        x.cls = c) ∧
      ∀ more : List Registration, (∀ y ∈ more, y.label p = x.label p → y.cls = c) →
        (∀ y ∈ more, y.cls = c → ∀ z ∈ before, z.label p ≠ y.label p) →
        (empty.registerAll p (calls ++ more)).interfaceName p c = x.label p := by
  obtain ⟨before, x, after, hcalls, hown, hbefore⟩ := exists_first hm
  set ks := (empty.registerAll p before).classes.keys with hks
  have hmem : ∀ k ∈ ks, ∃ z ∈ before, z.label p = k := fun k hk =>
    List.mem_map.mp ((mem_keys_registerAll.mp hk).resolve_left List.not_mem_nil)
  -- The name is new when it first comes up, so what is listed before it then stays so.
  have hplace : ks ++ [x.label p] <+: (empty.registerAll p calls).classes.keys := by
    have hnew : x.label p ∉ ks := fun hk => by
      obtain ⟨z, hz, hlabel⟩ := hmem _ hk
      exact hbefore z hz (hlabel ▸ hown)
    have hlisted := keys_register (r := empty.registerAll p before) (p := p) x
    rw [if_neg hnew] at hlisted
    rw [hcalls, registerAll_append, ← hlisted]
    exact keys_registerAll after
  have hfirst : ∀ k ∈ ks, (empty.registerAll p calls).owner? k ≠ some c := fun k hk => by
    obtain ⟨z, hz, rfl⟩ := hmem k hk
    exact hbefore z hz
  refine ⟨before, x, after, hcalls, interfaceName_of_keys hplace hown hfirst, ?_, hbefore,
    fun hundisputed => hundisputed x (by simp [hcalls]) hown, fun more hkept hgiven => ?_⟩
  · have hget : (empty.registerAll p calls).classes.get? (x.label p) = some c := hown
    simp only [class?, hget]
  · rw [registerAll_append]
    refine interfaceName_of_keys (hplace.trans (keys_registerAll more))
      (owner?_registerAll_of_kept hown hkept) fun k hk hlater => ?_
    obtain ⟨z, hz, rfl⟩ := hmem k hk
    exact hbefore z hz (owner?_of_registerAll hlater fun y hy hc => (hgiven y hy hc z hz).symm)

/-- Two classes. The second one gets two names and takes over that of the first one, which then gets
it back. -/
def aliases : List Registration :=
  [⟨.declared 0, some "x"⟩, ⟨.declared 1, some "y"⟩, ⟨.declared 1, some "z"⟩,
    ⟨.declared 1, some "x"⟩, ⟨.declared 0, some "x"⟩]

theorem interfaceName_earliest_aliases :
    (empty.registerAll ⟨[], []⟩ aliases).owner? "z" = some (.declared 1) ∧
    (empty.registerAll ⟨[], []⟩ (aliases ++
      [⟨.declared 1, some "w"⟩, ⟨.declared 0, some "v"⟩])).interfaceName ⟨[], []⟩ (.declared 1)
        = "y" := by
  have hz : (empty.registerAll ⟨[], []⟩ aliases).owner? "z" = some (.declared 1) := by
    decide +kernel
  obtain ⟨before, x, after, hcalls, hname, -, -, -, hmore⟩ :=
    interfaceName_earliest ⟨[], []⟩ aliases (.declared 1) "z" hz
  have hy : x.label ⟨[], []⟩ = "y" := by
    rw [← hname]
    decide +kernel
  have hold : ∀ z ∈ before, z.label ⟨[], []⟩ ≠ "w" := by
    have hall : ∀ z ∈ aliases, z.label ⟨[], []⟩ ≠ "w" := by decide +kernel
    exact fun z hz => hall z (by simp [hcalls, hz])
  refine ⟨hz, (hmore _ ?_ ?_).trans hy⟩
  · rw [hy]
    decide +kernel
  · intro y hy hc
    rcases List.mem_pair.mp hy with rfl | rfl
    · exact hold
    · cases hc

/-- A name that is taken over comes before the own names of a class. -/
theorem interfaceName_takenOver :
    let p : Program := ⟨[], []⟩
    let r := empty.registerAll p [⟨.declared 0, some "x"⟩, ⟨.declared 1, some "y"⟩]
    r.interfaceName p (.declared 1) = "y" ∧
      (r.register p (.declared 1) (some "x")).owner? "y" = some (.declared 1) ∧
      (r.register p (.declared 1) (some "x")).interfaceName p (.declared 1) = "x" := by
  decide +kernel

end Registry

end Wiring
