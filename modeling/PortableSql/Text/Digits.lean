/-!
# Digits

Numbers padded to a width, and bytes as hexadecimal pairs.
-/

namespace PortableSql.Text

/-- Decimal digits, padded with zeros on the left. -/
def padded (width n : Nat) : List Char :=
  let ds := Nat.toDigits 10 n
  List.replicate (width - ds.length) '0' ++ ds

/-- The last `width` hexadecimal digits, in lower case. -/
def hex : Nat → Nat → List Char
  | 0, _ => []
  | width + 1, n => hex width (n / 16) ++ [Nat.digitChar (n % 16)]

theorem length_hex (width n : Nat) : (hex width n).length = width := by
  induction width generalizing n with
  | zero => rfl
  | succ w ih => simp [hex, ih]

/-- Two upper-case hexadecimal digits for each byte. -/
def hexBytes (bs : List UInt8) : List Char := bs.flatMap fun b => (hex 2 b.toNat).map Char.toUpper

end PortableSql.Text
