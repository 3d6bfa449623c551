import Wiring.Decimal.Binary64

/-!
# `Wiring.Decimal.Shortest`: the fewest digits that read back

A finite number stands for the interval of the reals that round to it. `shortest` looks at the two
neighbours of its value on the grids of 1, 2, … 17 significant digits. The first grid with a
neighbour inside the interval gives the digits, and of two neighbours the nearer one wins.
`FloatStyle` holds the choices that are left when the digits are known: where positional writing
ends and what the special numbers are called.
-/

set_option autoImplicit false

namespace Wiring.Decimal

/-- A decimal number `digits * 10 ^ exponent`. -/
structure Digits where
  digits : Nat
  exponent : Int

/-- How many decimal digits a number has, given a bound on them. -/
def decimalLength : Nat → Nat → Nat
  | 0, _ => 0
  | fuel + 1, n => if n = 0 then 0 else 1 + decimalLength fuel (n / 10)

/-- The least `j ≤ fuel` with `den ≤ num * 10 ^ j`, counted from `j`. -/
def leadingZeros : Nat → Nat → Nat → Nat
  | 0, _, _ => 0
  | fuel + 1, num, den => if den ≤ num then 0 else 1 + leadingZeros fuel (num * 10) den

/-- The place of the first significant digit of `num / den`: zero for numbers from 1 up to 10. -/
def magnitude (num den : Nat) : Int :=
  if den ≤ num then (decimalLength 400 (num / den) : Int) - 1
  else -(leadingZeros 400 num den : Int)

/-- Drops zeros from the end of the digits. -/
def dropZeros : Nat → Digits → Digits
  | 0, d => d
  | fuel + 1, d =>
    if d.digits ≠ 0 && d.digits % 10 = 0 then dropZeros fuel ⟨d.digits / 10, d.exponent + 1⟩ else d

/-- The numerators of the interval of `m * 2 ^ q` and of its value, over one denominator. -/
structure Interval where
  low : Nat
  value : Nat
  high : Nat
  den : Nat
  closed : Bool

/-- The reals that round to `m * 2 ^ q`. The ends belong to it when `m` is even. -/
def Interval.of (m : Nat) (q : Int) (narrow : Bool) : Interval :=
  let up := pow2 (q - 2).toNat
  { low := (4 * m - if narrow then 1 else 2) * up
    value := 4 * m * up
    high := (4 * m + 2) * up
    den := pow2 (2 - q).toNat
    closed := m % 2 = 0 }

/-- Whether `d * 10 ^ k` lies in the interval. -/
def Interval.holds (i : Interval) (d : Nat) (k : Int) : Bool :=
  let x := d * pow10 k.toNat * i.den
  let scale := pow10 (-k).toNat
  if i.closed then decide (i.low * scale ≤ x ∧ x ≤ i.high * scale)
  else decide (i.low * scale < x ∧ x < i.high * scale)

/-- The digits on the grid of `10 ^ k` that read back, if there are any. -/
def Interval.onGrid (i : Interval) (k : Int) : Option Nat :=
  let scaled := i.value * pow10 (-k).toNat
  let unit := i.den * pow10 k.toNat
  let d := scaled / unit
  let r := scaled % unit
  match i.holds d k && d ≠ 0, i.holds (d + 1) k with
  | true, true => some (if 2 * r < unit || (2 * r = unit && d % 2 = 0) then d else d + 1)
  | true, false => some d
  | false, true => some (d + 1)
  | false, false => none

/-- Searches the grids of `n`, `n + 1`, … significant digits. -/
def Interval.search (i : Interval) (top : Int) : Nat → Nat → Digits
  | 0, n => ⟨i.value * pow10 n / i.den, -(n : Int)⟩
  | fuel + 1, n =>
    let k := top - n + 1
    match i.onGrid k with
    | some d => dropZeros 20 ⟨d, k⟩
    | none => i.search top fuel (n + 1)

/-- The shortest digits that read back as `m * 2 ^ q`, for a positive `m`. -/
def shortest (m : Nat) (q : Int) (narrow : Bool) : Digits :=
  let i := Interval.of m q narrow
  i.search (magnitude i.value i.den) 17 1

/-- How numbers are written once their digits are known. -/
structure FloatStyle where
  /-- Positional writing starts at this place of the first digit. -/
  lowest : Int
  /-- Positional writing ends before this place of the first digit. -/
  highest : Int
  /-- The least number of digits of an exponent. -/
  exponentWidth : Nat
  nan : String
  infinity : String

/-- A text padded with zeros on the left. -/
def padZeros (width : Nat) (s : String) : String :=
  String.ofList (List.replicate (width - s.length) '0') ++ s

/-- Writes digits: positional with a fraction of at least one digit, or with an exponent. -/
def FloatStyle.render (style : FloatStyle) (d : Digits) : String :=
  let ds := (toString d.digits).toList
  let place : Int := d.exponent + ds.length - 1
  if style.lowest ≤ place && place < style.highest then
    if place < 0 then
      "0." ++ String.ofList (List.replicate (place.natAbs - 1) '0' ++ ds)
    else
      let whole := place.toNat + 1
      let front := ds.take whole ++ List.replicate (whole - ds.length) '0'
      let back := ds.drop whole
      String.ofList front ++ "." ++ (if back.isEmpty then "0" else String.ofList back)
  else
    let front := String.ofList (ds.take 1)
    let back := String.ofList (ds.drop 1)
    let point := if back.isEmpty then "" else "." ++ back
    let sign := if place < 0 then "-" else "+"
    front ++ point ++ "e" ++ sign ++ padZeros style.exponentWidth (toString place.natAbs)

/-- Writes a number in the given style. -/
def FloatStyle.text (style : FloatStyle) (x : Binary64) : String :=
  match x.view with
  | .nan => style.nan
  | .infinite negative => (if negative then "-" else "") ++ style.infinity
  | .finite negative m q narrow =>
    let sign := if negative then "-" else ""
    if m = 0 then sign ++ "0.0" else sign ++ style.render (shortest m q narrow)

end Wiring.Decimal
