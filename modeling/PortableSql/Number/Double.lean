/-!
# Doubles

IEEE 754 binary64 numbers as their 64 bits, with exact decoding and correctly rounded arithmetic
on natural numbers. A finite double is `± mantissa · 2 ^ exponent`.
-/

namespace PortableSql

/-- A binary64 number, given by its bits. -/
structure Double where
  bits : UInt64
  deriving DecidableEq, Repr

namespace Double

def isNegative (x : Double) : Bool := 1 <<< 63 ≤ x.bits.toNat

/-- The biased exponent. -/
def field (x : Double) : Nat := (x.bits.toNat >>> 52) % 2048

def fraction (x : Double) : Nat := x.bits.toNat % (1 <<< 52)

def isNaN (x : Double) : Bool := x.field == 2047 && x.fraction != 0

def isFinite (x : Double) : Bool := x.field != 2047

def isZero (x : Double) : Bool := x.bits.toNat % (1 <<< 63) == 0

/-- The significand as an integer, with the hidden bit of a normal number. -/
def mantissa (x : Double) : Nat := if x.field = 0 then x.fraction else (1 <<< 52) + x.fraction

def exponent (x : Double) : Int := (max x.field 1 : Nat) - 1075

/-- Equality of numbers: the two zeros are equal and a NaN equals nothing. -/
def same (x y : Double) : Bool :=
  !x.isNaN && !y.isNaN && (x.bits == y.bits || (x.isZero && y.isZero))

/-- The quotient of `n` by `d` to the nearest integer, a half to the even one. -/
def roundQuotient (n d : Nat) : Nat :=
  let q := n / d
  let r := n % d
  if 2 * r < d || (2 * r == d && q % 2 == 0) then q else q + 1

/-- The power `2 ^ e` as a fraction. -/
def powerOfTwo (e : Int) : Nat × Nat := (1 <<< e.toNat, 1 <<< (-e).toNat)

def withSign (negative : Bool) (magnitude : Nat) : Double :=
  ⟨UInt64.ofNat (if negative then (1 <<< 63) + magnitude else magnitude)⟩

/-- The double nearest to `n / d`, infinite beyond the largest finite one. The quotient is rounded
to a multiple of the last place of its binade, so the bits of the magnitude are the rounded
significand above the binade's field. -/
def ofRatio (negative : Bool) (n d : Nat) : Double :=
  if n = 0 then withSign negative 0
  else
    let e : Int := (n.log2 : Int) - d.log2
    let top := powerOfTwo e
    let binade := if d * top.1 ≤ n * top.2 then e else e - 1
    let place := max (binade - 52) (-1074)
    let unit := powerOfTwo place
    let m := roundQuotient (n * unit.2) (d * unit.1)
    withSign negative (min (((place + 1074).toNat <<< 52) + m) (2047 <<< 52))

/-- The magnitude of a finite double as a fraction. -/
def ratio (x : Double) : Nat × Nat :=
  let scale := powerOfTwo x.exponent
  (x.mantissa * scale.1, scale.2)

/-- The magnitude of the product, rounded. -/
def product (x y : Double) : Double :=
  ofRatio false (x.ratio.1 * y.ratio.1) (x.ratio.2 * y.ratio.2)

/-- The magnitude of the quotient, rounded. -/
def quotient (x y : Double) : Double :=
  ofRatio false (x.ratio.1 * y.ratio.2) (x.ratio.2 * y.ratio.1)

def negate (x : Double) : Double := ⟨x.bits ^^^ 0x8000000000000000⟩

/-- A binary32 number, by its bits, as the double of the same value. -/
def ofSingleBits (bits : UInt32) : Double :=
  let negative := 1 <<< 31 ≤ bits.toNat
  let field := (bits.toNat >>> 23) % 256
  let fraction := bits.toNat % (1 <<< 23)
  if field = 255 then withSign negative ((2047 <<< 52) + (fraction <<< 29))
  else
    let m := if field = 0 then fraction else (1 <<< 23) + fraction
    let scale := powerOfTwo ((max field 1 : Nat) - 150)
    ofRatio negative (m * scale.1) scale.2

end Double

end PortableSql
