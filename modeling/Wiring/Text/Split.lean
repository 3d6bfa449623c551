/-!
# `Wiring.Text.Split`: pieces of a text

`split` cuts at every separator, so there is one more piece than there are separators and joining
the pieces gives the text again (`joined_split`). `trim` drops blanks at both ends, where the blanks
are those of the Unicode standard and the four ASCII separators. `unifyLineEnds` reads all spellings
of a line end as one.
-/

set_option autoImplicit false

namespace Wiring.Text

/-- The pieces between the separators. -/
def split (separator : Char) : List Char → List (List Char)
  | [] => [[]]
  | c :: rest =>
    if c = separator then [] :: split separator rest
    else
      match split separator rest with
      | [] => [[c]]
      | first :: others => (c :: first) :: others

/-- The pieces with the separator between each two of them. -/
def joined (separator : Char) : List (List Char) → List Char
  | [] => []
  | [piece] => piece
  | piece :: others => piece ++ separator :: joined separator others

theorem split_ne_nil (separator : Char) (cs : List Char) : split separator cs ≠ [] := by
  cases cs with
  | nil => simp [split]
  | cons c rest =>
    by_cases h : c = separator
    · simp [split, h]
    · simp only [split, h, if_false]; split <;> simp

/-- Nothing is lost by splitting. -/
theorem joined_split (separator : Char) (cs : List Char) :
    joined separator (split separator cs) = cs := by
  induction cs with
  | nil => rfl
  | cons c rest ih =>
    have hne := split_ne_nil separator rest
    by_cases h : c = separator
    · cases hs : split separator rest with
      | nil => exact absurd hs hne
      | cons first others =>
        rw [hs] at ih
        simp [split, h, hs, joined, ih]
    · cases hs : split separator rest with
      | nil => exact absurd hs hne
      | cons first others =>
        rw [hs] at ih
        cases others with
        | nil => simpa [split, h, hs, joined] using ih
        | cons second more => simpa [split, h, hs, joined] using ih

/-- The pieces of a text. -/
def pieces (separator : Char) (s : String) : List String :=
  (split separator s.toList).map String.ofList

/-- The last of the pieces of a text. -/
def lastPiece (separator : Char) (s : String) : String :=
  String.ofList (s.toList.reverse.takeWhile (· ≠ separator)).reverse

/-- Whether a character is a blank. -/
def isBlank (c : Char) : Bool :=
  let n := c.toNat
  (9 ≤ n && n ≤ 13) || (0x1c ≤ n && n ≤ 0x20) || n = 0x85 || n = 0xa0 || n = 0x1680 ||
    (0x2000 ≤ n && n ≤ 0x200a) || n = 0x2028 || n = 0x2029 || n = 0x202f || n = 0x205f || n = 0x3000

/-- Drops blanks at the end. -/
def trimEnd (cs : List Char) : List Char := (cs.reverse.dropWhile isBlank).reverse

/-- Drops blanks at both ends. -/
def trim (cs : List Char) : List Char := trimEnd (cs.dropWhile isBlank)

/-- Line ends of every kind become one. -/
def unifyLineEnds : List Char → List Char
  | [] => []
  | '\r' :: '\n' :: rest => '\n' :: unifyLineEnds rest
  | '\r' :: rest => '\n' :: unifyLineEnds rest
  | c :: rest => c :: unifyLineEnds rest

end Wiring.Text
