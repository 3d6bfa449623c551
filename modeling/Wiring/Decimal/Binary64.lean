/-!
# `Wiring.Decimal.Binary64`: double precision numbers by their bits

A number is its 64 bits, so two numbers can be told apart even where arithmetic calls them equal.
`Binary64.view` reads the bits as a sign and a value `m * 2 ^ q`, and every question about the
number is answered in exact integers from there. `Binary64.ofDecimal` rounds a decimal to the
nearest number.
-/

set_option autoImplicit false

namespace Wiring.Decimal

/-- A power of two. -/
def pow2 (n : Nat) : Nat := Nat.pow 2 n

/-- A power of ten. -/
def pow10 (n : Nat) : Nat := Nat.pow 10 n

/-- A double precision number. -/
structure Binary64 where
  bits : UInt64
  deriving DecidableEq, Inhabited

/-- What the bits of a number stand for. -/
inductive Binary64.View where
  | nan
  | infinite (negative : Bool)
  /-- The value `± m * 2 ^ q`. The flag tells that the gap below is half the gap above. -/
  | finite (negative : Bool) (m : Nat) (q : Int) (narrow : Bool)

namespace Binary64

/-- Reads the three fields of the bits. -/
def view (x : Binary64) : View :=
  let n := x.bits.toNat
  let negative := decide (pow2 63 ≤ n)
  let exponent : Nat := n / pow2 52 % pow2 11
  let fraction : Nat := n % pow2 52
  if exponent = 2047 then
    if fraction = 0 then .infinite negative else .nan
  else if exponent = 0 then .finite negative fraction (-1074) false
  else
    .finite negative (pow2 52 + fraction) ((exponent : Int) - 1075) (fraction = 0 && exponent ≠ 1)

/-- The number that equals no number. -/
def nan : Binary64 := ⟨0x7ff8000000000000⟩

/-- One of the numbers that equal no number, told apart by a mark. -/
def markedNan (mark : Nat) : Binary64 := ⟨0x7ff8000000000000 ||| UInt64.ofNat (mark % pow2 51)⟩

/-- Whether the number equals no number. -/
def isNan (x : Binary64) : Bool :=
  match x.view with
  | .nan => true
  | _ => false

/-- The infinite number of the given sign. -/
def infinity (negative : Bool) : Binary64 :=
  ⟨if negative then 0xfff0000000000000 else 0x7ff0000000000000⟩

/-- Zero of the given sign. -/
def zero (negative : Bool) : Binary64 := ⟨if negative then 0x8000000000000000 else 0⟩

/-- Turns the sign of a number without one. -/
def withSign (negative : Bool) (x : Binary64) : Binary64 :=
  ⟨if negative then x.bits ||| 0x8000000000000000 else x.bits⟩

/-- The number nearest to `± m * 10 ^ e`. A decimal beyond both ends of the range is settled from
its length alone. -/
def ofDecimal (negative : Bool) (m : Nat) (e : Int) : Binary64 :=
  if m = 0 then zero negative
  else
    let top : Int := (Nat.log2 m : Int) * 3 / 10 + e
    if top > 400 then infinity negative
    else if top + (Nat.log2 m : Int) / 30 + 2 < -400 then zero negative
    else
      let x :=
        if e < 0 then Float.ofScientific m true e.natAbs else Float.ofScientific m false e.natAbs
      withSign negative ⟨x.toBits⟩

/-- Whether the number is a zero of either sign. -/
def isZero (x : Binary64) : Bool :=
  match x.view with
  | .finite _ m _ _ => m = 0
  | _ => false

/-- Equality of values: no NaN equals anything and the two zeros are equal. -/
def sameValue (x y : Binary64) : Bool :=
  match x.view, y.view with
  | .nan, _ => false
  | _, .nan => false
  | _, _ => x = y || (x.isZero && y.isZero)

/-- Whether the number is the given integer. -/
def isInt (x : Binary64) (n : Int) : Bool :=
  match x.view with
  | .finite negative m q _ =>
    let exact :=
      if q < 0 then m = n.natAbs * pow2 q.natAbs else m * pow2 q.natAbs = n.natAbs
    exact && (n = 0 || negative = decide (n < 0))
  | _ => false

end Binary64

end Wiring.Decimal
