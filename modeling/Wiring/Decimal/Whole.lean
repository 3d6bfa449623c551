import Wiring.Decimal.Binary64
import Wiring.Text.Quoted

/-!
# `Wiring.Decimal.Whole`: whole numbers from double precision numbers

A finite number is `± m * 2 ^ q`, and its integer part, its neighbours among the integers, its ratio
and its hash are worked out from there without rounding. A hash is the value modulo a prime, in
which division by two is a rotation, so that equal numbers of different kinds have the same one.
-/

set_option autoImplicit false

namespace Wiring.Decimal

/-- An integer by its sign and its size. -/
def signed (negative : Bool) (n : Nat) : Int := if negative then -n else n

/-- The size of `m * 2 ^ q` without what is behind the point. -/
def wholePart (m : Nat) (q : Int) : Nat :=
  if q < 0 then m / pow2 q.natAbs else m * pow2 q.natAbs

/-- What is behind the point, of `pow2 q.natAbs`. -/
def restPart (m : Nat) (q : Int) : Nat := if q < 0 then m % pow2 q.natAbs else 0

/-- The integer in front of the point. -/
def truncated (negative : Bool) (m : Nat) (q : Int) : Int := signed negative (wholePart m q)

/-- The integer at or below a number. -/
def floored (negative : Bool) (m : Nat) (q : Int) : Int :=
  truncated negative m q - (if negative && restPart m q ≠ 0 then 1 else 0)

/-- The nearest integer, an even one when two are. -/
def rounded (negative : Bool) (m : Nat) (q : Int) : Int :=
  let n := wholePart m q
  let rest := 2 * restPart m q
  let half := pow2 q.natAbs
  let up := q < 0 && (half < rest || (rest = half && n % 2 = 1))
  signed negative (if up then n + 1 else n)

/-- The prime below which hashes are. -/
def hashPrime : Nat := pow2 61 - 1

/-- The hash of `± m * 2 ^ q`. -/
def hashOf (negative : Bool) (m : Nat) (q : Int) : Int :=
  let h := signed negative (m % hashPrime * pow2 (q % 61).toNat % hashPrime)
  if h = -1 then -2 else h

namespace Binary64

/-- Whether a number is an integer. -/
def isWhole (x : Binary64) : Bool :=
  match x.view with
  | .finite _ m q _ => restPart m q = 0
  | _ => false

/-- The lowest terms of a finite number. -/
def ratio? (x : Binary64) : Option (Int × Int) :=
  match x.view with
  | .finite negative m q _ =>
    let top := if q < 0 then m else m * pow2 q.natAbs
    let bottom := if q < 0 then pow2 q.natAbs else 1
    let g := Nat.gcd top bottom
    some (signed negative (top / g), (bottom / g : Nat))
  | _ => none

/-- The hash of a number. -/
def hash (x : Binary64) : Int :=
  match x.view with
  | .finite negative m q _ => hashOf negative m q
  | .infinite negative => signed negative 314159
  | .nan => 0

/-- The number with its digits to the base sixteen and a power of two. -/
def hexText (x : Binary64) : String :=
  match x.view with
  | .nan => "nan"
  | .infinite negative => if negative then "-inf" else "inf"
  | .finite negative m q _ =>
    let sign := if negative then "-" else ""
    if m = 0 then sign ++ "0x0.0p+0"
    else
      let power := q + 52
      sign ++ "0x" ++ toString (m / pow2 52) ++ "." ++
        String.ofList (Text.hexDigits 13 (m % pow2 52)) ++ "p" ++
        (if power < 0 then "-" else "+") ++ toString power.natAbs

end Binary64

end Wiring.Decimal
