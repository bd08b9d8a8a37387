import PortableSql.Number.Double

/-!
# Shortest decimals

A finite double is written with the fewest digits that read back as the same double, and with the
nearest such digits. The numbers that read back as a double form a window around it, whose ends
belong to it exactly when the mantissa is even. Grids of decimals are tried from coarse to fine;
when a point of a grid lies in the window, one of the two neighbours of the double does.
-/

namespace PortableSql

/-- The number `digits · 10 ^ exponent`. -/
structure Decimal where
  digits : Nat
  exponent : Int
  deriving DecidableEq, Repr

namespace Decimal

/-- Which of two equally near decimals is taken. -/
inductive Tie where
  | up
  | even
  deriving DecidableEq, Repr

/-- The numbers that round to one double: those between `low / unit` and `high / unit`, with the
double itself at `mid / unit`. -/
structure Window where
  low : Nat
  mid : Nat
  high : Nat
  unit : Nat
  closed : Bool

/-- Quarter units of the last place, because below a power of two the neighbour is half as far. -/
def Window.of (x : Double) : Window :=
  let below := if x.fraction = 0 ∧ 1 < x.field then 1 else 2
  let (up, down) := Double.powerOfTwo (x.exponent - 2)
  { low := (4 * x.mantissa - below) * up, mid := 4 * x.mantissa * up,
    high := (4 * x.mantissa + 2) * up, unit := down, closed := x.mantissa % 2 == 0 }

namespace Window

def holds (w : Window) (low v high : Nat) : Bool :=
  if w.closed then low ≤ v && v ≤ high else low < v && v < high

/-- The point of the grid of `10 ^ k` that is in the window and nearest to the double. -/
def nearest? (tie : Tie) (w : Window) (k : Int) : Option Nat :=
  let scale := Nat.pow 10 (-k).toNat
  let step := w.unit * Nat.pow 10 k.toNat
  let inside := fun d => w.holds (w.low * scale) (d * step) (w.high * scale)
  let d := w.mid * scale / step
  let rest := 2 * (w.mid * scale % step)
  match inside d, inside (d + 1) with
  | false, false => none
  | true, false => some d
  | false, true => some (d + 1)
  | true, true =>
    if rest < step || (rest == step && tie == .even && d % 2 == 0) then some d else some (d + 1)

/-- The first hit on the grids of `10 ^ k`, `10 ^ (k - 1)`, and so on. -/
def search (tie : Tie) (w : Window) : Nat → Int → Decimal
  | 0, k => ⟨w.mid * Nat.pow 10 (-k).toNat / (w.unit * Nat.pow 10 k.toNat), k⟩
  | n + 1, k =>
    match w.nearest? tie k with
    | some d => ⟨d, k⟩
    | none => search tie w n (k - 1)

end Window

def digitCount (n : Nat) : Nat := (Nat.toDigits 10 n).length

/-- The shortest decimal of the magnitude of a finite double. Seventeen digits always suffice; the
first grid may be two steps too coarse. -/
def ofDouble (tie : Tie) (x : Double) : Decimal :=
  if x.mantissa = 0 then ⟨0, 0⟩
  else
    let w := Window.of x
    w.search tie 20 ((digitCount w.high : Int) - digitCount w.unit + 1)

/-- How a number is laid out. -/
structure Style where
  tie : Tie
  /-- A whole number keeps a fraction of one zero. -/
  pointAlways : Bool
  /-- The decimal exponents of numbers written without one. -/
  isPositional : Int → Bool

/-- The decimal exponent `e` of `d.ddd · 10 ^ e`. -/
def leading (x : Decimal) : Int := (digitCount x.digits : Int) - 1 + x.exponent

def zeros (n : Nat) : List Char := List.replicate n '0'

/-- All digits written out around the point. -/
def positional (pointAlways : Bool) (x : Decimal) : List Char :=
  let ds := Nat.toDigits 10 x.digits
  let places := (-x.exponent).toNat
  if 0 ≤ x.exponent then
    ds ++ zeros x.exponent.toNat ++ (if pointAlways then ['.', '0'] else [])
  else if places < ds.length then
    ds.take (ds.length - places) ++ '.' :: ds.drop (ds.length - places)
  else ['0', '.'] ++ zeros (places - ds.length) ++ ds

/-- One digit before the point, and the exponent with its sign. -/
def scientific (x : Decimal) : List Char :=
  let e := x.leading
  let significand :=
    match Nat.toDigits 10 x.digits with
    | d :: r@(_ :: _) => d :: '.' :: r
    | ds => ds
  significand ++ 'e' :: (if e < 0 then '-' else '+') :: Nat.toDigits 10 e.natAbs

/-- The text of a finite double. -/
def format (style : Style) (x : Double) : List Char :=
  let d := ofDouble style.tie x
  let body := if style.isPositional d.leading then d.positional style.pointAlways else d.scientific
  if x.isNegative then '-' :: body else body

end Decimal

end PortableSql
