import Mathlib.Data.List.Basic
import Mathlib.Tactic.SplitIfs
import Wiring.Files.Tree

/-!
# `Wiring.Proofs.Spellings`: the parts of a spelled path

The parts of a path are the pieces of its spelling that count. What is written in front of a
spelling or behind it, without a slash, only makes its first or its last piece longer
(`split_append_first`, `split_append_last`), and a slash between two spellings puts their pieces one
after the other (`split_append_separator`).

The location of a path is found part by part, so a path that is followed at all leads to its
`destination`, whatever the tree is.
-/

set_option autoImplicit false

namespace Wiring

/-! ### Pieces -/

namespace Text

variable {c : Char} {first : List Char} {rest : List (List Char)}

theorem split_cons_separator (c : Char) (xs : List Char) : split c (c :: xs) = [] :: split c xs := by
  rw [split, if_pos rfl]

theorem split_cons_of_ne {x : Char} {xs : List Char} (hx : x ≠ c) (h : split c xs = first :: rest) :
    split c (x :: xs) = (x :: first) :: rest := by
  rw [split, if_neg hx, h]

theorem split_append_separator (ys : List Char) (xs : List Char) :
    split c (xs ++ c :: ys) = split c xs ++ split c ys := by
  induction xs with
  | nil => exact split_cons_separator c ys
  | cons x xs ih =>
    by_cases hx : x = c
    · subst hx
      rw [List.cons_append, split_cons_separator, split_cons_separator, ih, List.cons_append]
    · obtain ⟨first, rest, hxs⟩ := List.exists_cons_of_ne_nil (split_ne_nil c xs)
      have hall : split c (xs ++ c :: ys) = first :: (rest ++ split c ys) := by
        rw [ih, hxs, List.cons_append]
      rw [List.cons_append, split_cons_of_ne hx hxs]
      exact split_cons_of_ne hx hall

/-- What is in front of a text belongs to its first piece. -/
theorem split_append_first {ys : List Char} (h : split c ys = first :: rest) :
    ∀ {xs : List Char}, c ∉ xs → split c (xs ++ ys) = (xs ++ first) :: rest
  | [], _ => h
  | _ :: _, hc => split_cons_of_ne (fun he => hc (he ▸ List.mem_cons_self))
      (split_append_first h fun hmem => hc (List.mem_cons_of_mem _ hmem))

theorem split_of_not_mem {xs : List Char} (hc : c ∉ xs) : split c xs = [xs] := by
  have h : split c (xs ++ []) = (xs ++ []) :: [] := split_append_first rfl hc
  rwa [List.append_nil] at h

/-- A text with a separator has a first and a last piece. -/
theorem split_of_mem {xs : List Char} (hc : c ∈ xs) :
    ∃ first between last, split c xs = first :: (between ++ [last]) := by
  obtain ⟨ys, zs, rfl⟩ := List.append_of_mem hc
  obtain ⟨first, rest, hys⟩ := List.exists_cons_of_ne_nil (split_ne_nil c ys)
  obtain ⟨before, last, hzs⟩ := (List.eq_nil_or_concat' (split c zs)).resolve_left
    (split_ne_nil c zs)
  refine ⟨first, rest ++ before, last, ?_⟩
  rw [split_append_separator, hys, hzs, List.cons_append, List.append_assoc]

/-- What is behind a text belongs to its last piece. -/
theorem split_append_last {ys : List Char} (hc : c ∉ ys) (xs : List Char) :
    ∀ {before : List (List Char)} {last : List Char}, split c xs = before ++ [last] →
      split c (xs ++ ys) = before ++ [last ++ ys] := by
  induction xs with
  | nil =>
    intro before last h
    have hnil : [] ++ [[]] = before ++ [last] := h
    obtain ⟨rfl, hlast⟩ := List.append_inj' hnil rfl
    obtain rfl := List.singleton_inj.mp hlast
    exact split_of_not_mem hc
  | cons x xs ih =>
    intro before last h
    by_cases hx : x = c
    · subst hx
      rw [split_cons_separator] at h
      cases before with
      | nil => exact absurd (List.cons.inj h).2 (split_ne_nil x xs)
      | cons first before =>
        obtain ⟨rfl, hrest⟩ := List.cons.inj h
        rw [List.cons_append, split_cons_separator, ih hrest]
        rfl
    · obtain ⟨first, rest, hxs⟩ := List.exists_cons_of_ne_nil (split_ne_nil c xs)
      rw [split_cons_of_ne hx hxs] at h
      cases before with
      | nil =>
        obtain ⟨rfl, rfl⟩ := List.cons.inj h
        have hrest : split c (xs ++ ys) = [first ++ ys] := by
          have hone : split c xs = [] ++ [first] := hxs
          exact ih hone
        exact split_cons_of_ne hx hrest
      | cons longer before =>
        obtain ⟨rfl, rfl⟩ := List.cons.inj h
        have hrest : split c (xs ++ ys) = first :: (before ++ [last ++ ys]) := by
          have hmore : split c xs = (first :: before) ++ [last] := hxs
          exact ih hmore
        exact split_cons_of_ne hx hrest

end Text

/-! ### Paths -/

namespace Files.Path

/-- Whether a piece of a spelling is a part of the path. -/
def isPart (piece : List Char) : Bool := String.ofList piece ≠ "" && String.ofList piece ≠ "."

/-- The parts that pieces of a spelling give. -/
def partsOf (pieces : List (List Char)) : List String := (pieces.filter isPart).map String.ofList

theorem parts_ofText (s : String) : (ofText s).parts = partsOf (Text.split '/' s.toList) := by
  unfold ofText partsOf Text.pieces
  rw [List.filter_map]
  rfl

theorem partsOf_append (xs ys : List (List Char)) :
    partsOf (xs ++ ys) = partsOf xs ++ partsOf ys := by
  unfold partsOf
  rw [List.filter_append, List.map_append]

theorem isPart_of_length {piece : List Char} (h : 2 ≤ piece.length) : isPart piece = true := by
  have hne : ∀ s : String, s.length < 2 → String.ofList piece ≠ s := by
    rintro s hs rfl
    rw [String.length_ofList] at hs
    omega
  simp [isPart, hne "" (by decide), hne "." (by decide)]

theorem partsOf_singleton {piece : List Char} (h : 2 ≤ piece.length) :
    partsOf [piece] = [String.ofList piece] := by
  unfold partsOf
  rw [List.filter_cons_of_pos (isPart_of_length h)]
  rfl

/-- A path whose spelling has an ending has it in its last part. -/
theorem parts_of_ending {ending : List Char} (hslash : '/' ∉ ending) (hlong : 2 ≤ ending.length)
    (s : List Char) : ∃ before last, (ofText (String.ofList (s ++ ending))).parts
      = before ++ [String.ofList (last ++ ending)] := by
  obtain ⟨before, last, h⟩ := (List.eq_nil_or_concat' (Text.split '/' s)).resolve_left
    (Text.split_ne_nil '/' s)
  refine ⟨partsOf before, last, ?_⟩
  rw [parts_ofText, String.toList_ofList, Text.split_append_last hslash s h, partsOf_append,
    partsOf_singleton (by rw [List.length_append]; omega)]

/-- So has a path below another one. -/
theorem parts_join_of_ending {ending : List Char} (hslash : '/' ∉ ending)
    (hlong : 2 ≤ ending.length) (p : Path) (s : List Char) :
    ∃ before last, (p.join (String.ofList (s ++ ending))).parts
      = before ++ [String.ofList (last ++ ending)] := by
  obtain ⟨before, last, h⟩ := parts_of_ending hslash hlong s
  unfold join
  dsimp only
  split
  · exact ⟨p.parts ++ before, last, by rw [h, List.append_assoc]⟩
  · exact ⟨before, last, h⟩

/-- Where a path leads to, if it is followed at all. -/
def destination (p : Path) : Location := p.parts.foldl Tree.enter []

/-- The place of a path has the ending of its spelling. -/
theorem destination_of_ending {ending : List Char} (hslash : '/' ∉ ending)
    (hlong : 3 ≤ ending.length) (p : Path) (s : List Char) :
    ∃ before last, (p.join (String.ofList (s ++ ending))).destination
      = before ++ [String.ofList (last ++ ending)] := by
  obtain ⟨before, last, h⟩ := parts_join_of_ending hslash (Nat.le_of_succ_le hlong) p s
  have hdots : String.ofList (last ++ ending) ≠ ".." := by
    intro he
    have hlength := congrArg String.length he
    rw [String.length_ofList, List.length_append] at hlength
    have htwo : "..".length = 2 := by decide
    omega
  refine ⟨before.foldl Tree.enter [], last, ?_⟩
  generalize String.ofList (last ++ ending) = part at h hdots ⊢
  unfold destination
  rw [h, List.foldl_append]
  simp [Tree.enter, hdots]

end Files.Path

namespace Files.Tree

theorem foldl_enter (here : Location) {parts : List String} (h : ".." ∉ parts) :
    parts.foldl enter here = here ++ parts := by
  induction parts generalizing here with
  | nil => exact (List.append_nil here).symm
  | cons part rest ih =>
    have hpart : part ≠ ".." := fun he => h (he ▸ List.mem_cons_self)
    rw [List.foldl_cons, ih _ fun hmem => h (List.mem_cons_of_mem _ hmem)]
    simp [enter, hpart]

theorem walk_eq_foldl {t : Tree} {l : Location} (parts : List String) :
    ∀ {here : Location}, t.walk here parts = .ok l → l = parts.foldl enter here := by
  induction parts with
  | nil => exact fun h => (Except.ok.inj h).symm
  | cons part rest ih =>
    intro here h
    rw [walk] at h
    split_ifs at h with hlong hlast
    · rw [List.isEmpty_iff.mp hlast]
      exact (Except.ok.inj h).symm
    · split at h
      · exact ih h
      · cases h
      · cases h

/-- A path that is followed leads to its destination. -/
theorem locate_eq_destination {t : Tree} {p : Path} {l : Location} (h : t.locate p = .ok l) :
    l = p.destination := by
  unfold locate at h
  split_ifs at h
  exact walk_eq_foldl _ h

end Files.Tree

end Wiring
