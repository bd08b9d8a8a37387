import PortableSql.Json.Basic

/-!
# Numerals

The numbers of a JSON text, as written and as read. A numeral without fraction and exponent that
fits 64 bits, signed or not, is an integer. Any other is a float: its significand keeps the leading
digits that fit 64 bits, becomes a double, and is scaled by a power of ten in floating point, so
the last place need not be the nearest one.
-/

namespace PortableSql.Json

/-- The digits of a number. A number without a point has no `fraction`. -/
structure Numeral where
  negative : Bool
  whole : List Nat
  fraction : List Nat
  exponent : Option Int
  deriving DecidableEq, Repr

namespace Numeral

/-- Appends digits to `n` while it fits 64 bits, and returns those that are left. -/
def fill : Nat → List Nat → Nat × List Nat
  | n, [] => (n, [])
  | n, d :: ds => if n * 10 + d < 1 <<< 64 then fill (n * 10 + d) ds else (n, d :: ds)

def powerOfTen (k : Nat) : Double := Double.ofRatio false (Nat.pow 10 k) 1

/-- The quotient `x / 10 ^ k`, in steps of at most `10 ^ 308`. -/
def shrink (x : Double) (k : Nat) : Double :=
  if k ≤ 308 then x.quotient (powerOfTen k)
  else if x.isZero then x
  else shrink (x.quotient (powerOfTen 308)) (k - 308)
termination_by k

/-- The double `n · 10 ^ e`, or nothing when it is beyond the finite ones. -/
def scaled? (n : Nat) (e : Int) : Option Double :=
  let x := Double.ofRatio false n 1
  if e < 0 then some (shrink x e.natAbs)
  else if x.isZero then some x
  else if 308 < e then none
  else
    let y := x.product (powerOfTen e.toNat)
    if y.isFinite then some y else none

def integer (negative : Bool) (n : Nat) : Json :=
  if !negative then .int n
  else if 0 < n ∧ n ≤ 1 <<< 63 then .int (-n)
  else .float (Double.ofRatio false n 1).negate

/-- The number a numeral stands for. -/
def value? (m : Numeral) : Option Json :=
  let (n, dropped) := fill 0 m.whole
  if dropped.isEmpty && m.fraction.isEmpty && m.exponent.isNone then some (integer m.negative n)
  else
    let (n, unused) := if m.fraction.isEmpty then (n, []) else fill n m.fraction
    let places : Int := (m.fraction.length : Int) - unused.length
    let e := (dropped.length : Int) - places + m.exponent.getD 0
    (scaled? n e).map fun x => .float (if m.negative then x.negate else x)

end Numeral

end PortableSql.Json
