import Mathlib.Algebra.Group.Nat.Defs
import PortableSql.Proofs.StringLiteral

/-!
# Distinct values have distinct literals

The parts of a date, a time, a UUID or a byte string can be told apart in its text: they have a
fixed width, or a sign between them that is in neither. An integer, such as a year, has its sign and
its digits. So each part is read off again, and values of one type with one literal are equal
(`Dialect.literal_injective`).
-/

namespace PortableSql

/-! ## Digits -/

namespace Text

section
variable {c : Char} {v w m n : Nat}

theorem ofDigitChars_padded (w n : Nat) : Nat.ofDigitChars 10 (padded w n) 0 = n := by
  rw [padded, Nat.ofDigitChars_append, Nat.ofDigitChars_replicate_zero, Nat.mul_zero,
    Nat.ofDigitChars_ten_toDigits]

/-- Zeros on the left do not count. -/
theorem padded_inj (h : padded v m = padded w n) : m = n := by
  rw [← ofDigitChars_padded v m, h, ofDigitChars_padded]

theorem length_padded (hw : 0 < w) (hn : n < 10 ^ w) : (padded w n).length = w := by
  have hle := (Nat.length_toDigits_le_iff (by decide) hw).2 hn
  rw [padded, List.length_append, List.length_replicate]
  omega

theorem isDigit_of_mem_padded (h : c ∈ padded w n) : c.isDigit = true := by
  rcases List.mem_append.1 h with h | h
  · rw [List.eq_of_mem_replicate h]
    decide
  · exact Nat.isDigit_of_mem_toDigits (by decide) (by decide) h

theorem filter_isDigit_padded (w n : Nat) : (padded w n).filter Char.isDigit = padded w n :=
  List.filter_eq_self.2 fun _ hc => isDigit_of_mem_padded hc

theorem minus_notMem_padded (w n : Nat) : '-' ∉ padded w n := fun h =>
  absurd (isDigit_of_mem_padded h) (by decide)

/-! ## Integers -/

/-- A text that has the digits of an integer, and a minus if it is negative, gives the integer. -/
theorem int_inj_of_digits {f : Int → List Char} {y z : Int}
    (hdigits : ∀ n, (f n).filter Char.isDigit = padded w n.natAbs)
    (hminus : ∀ n, '-' ∈ f n ↔ n < 0) (h : f y = f z) : y = z := by
  have hsign : y < 0 ↔ z < 0 := by rw [← hminus, h, hminus]
  have habs : y.natAbs = z.natAbs := by
    refine padded_inj (v := w) (w := w) ?_
    rw [← hdigits, h, hdigits]
  omega

theorem toList_toString_int (n : Int) :
    (toString n).toList = if n < 0 then '-' :: padded 0 n.natAbs else padded 0 n.natAbs := by
  have hrepr (k : Nat) : k.repr.toList = padded 0 k := by
    rw [Nat.toList_repr, padded, Nat.zero_sub, List.replicate_zero, List.nil_append]
  rw [Int.toString_eq_repr, Int.repr_eq_if]
  by_cases hn : n < 0
  · have habs : (-n).toNat = n.natAbs := by omega
    rw [if_neg (by omega), if_pos hn, String.toList_append, hrepr, habs]
    rfl
  · have habs : n.toNat = n.natAbs := by omega
    rw [if_pos (by omega), if_neg hn, hrepr, habs]

theorem filter_isDigit_toString (n : Int) :
    (toString n).toList.filter Char.isDigit = padded 0 n.natAbs := by
  rw [toList_toString_int]
  split
  · rw [List.filter_cons_of_neg (by decide), filter_isDigit_padded]
  · exact filter_isDigit_padded 0 _

theorem minus_mem_toString_iff (n : Int) : '-' ∈ (toString n).toList ↔ n < 0 := by
  rw [toList_toString_int]
  split
  · next h => simp [h]
  · next h => simp [h, minus_notMem_padded]

theorem toString_int_inj {y z : Int} (h : (toString y).toList = (toString z).toList) : y = z :=
  int_inj_of_digits (f := fun n => (toString n).toList) filter_isDigit_toString
    minus_mem_toString_iff h

/-! ## Hexadecimal digits -/

theorem digitChar_inj_of_lt (hm : m < 16) (hn : n < 16)
    (h : (Nat.digitChar m).toUpper = (Nat.digitChar n).toUpper) : m = n := by
  have hall : ∀ i < 16, ∀ j < 16,
      (Nat.digitChar i).toUpper = (Nat.digitChar j).toUpper → i = j := by decide
  exact hall m hm n hn h

/-- The digits of a width are the number up to its power of sixteen, in either case. -/
theorem map_toUpper_hex_inj
    (h : (hex w m).map Char.toUpper = (hex w n).map Char.toUpper) : m % 16 ^ w = n % 16 ^ w := by
  induction w generalizing m n with
  | zero => rw [Nat.pow_zero, Nat.mod_one, Nat.mod_one]
  | succ w ih =>
    simp only [hex, List.map_append, List.map_cons, List.map_nil] at h
    obtain ⟨hinit, hlast⟩ := List.append_inj' h rfl
    have hdigit := digitChar_inj_of_lt (Nat.mod_lt m (by decide)) (Nat.mod_lt n (by decide))
      (List.cons.inj hlast).1
    rw [Nat.pow_succ', Nat.mod_mul, Nat.mod_mul, hdigit, ih hinit]

theorem hex_inj (h : hex w m = hex w n) : m % 16 ^ w = n % 16 ^ w :=
  map_toUpper_hex_inj (congrArg (List.map Char.toUpper) h)

theorem hexBytes_inj {as bs : List UInt8} (h : hexBytes as = hexBytes bs) : as = bs := by
  have hlength (b : UInt8) : ((hex 2 b.toNat).map Char.toUpper).length = 2 := by
    rw [List.length_map, length_hex]
  induction as generalizing bs with
  | nil =>
    cases bs with
    | nil => rfl
    | cons b bs => cases h
  | cons a as ih =>
    cases bs with
    | nil => cases h
    | cons b bs =>
      rw [hexBytes, hexBytes, List.flatMap_cons, List.flatMap_cons] at h
      obtain ⟨hbyte, hrest⟩ := List.append_inj h ((hlength a).trans (hlength b).symm)
      have hmod := map_toUpper_hex_inj hbyte
      have hnat : a.toNat = b.toNat := by
        have ha := a.toNat_lt
        have hb := b.toNat_lt
        omega
      rw [UInt8.toNat_inj.1 hnat, ih hrest]

end

end Text

/-! ## Dates and times -/

namespace Date

section
variable {a b : Date} {c : Char} {y z : Int}

theorem filter_isDigit_yearText (y : Int) :
    (yearText y).filter Char.isDigit = Text.padded 4 y.natAbs := by
  unfold yearText
  split
  · rw [List.filter_cons_of_neg (by decide), Text.filter_isDigit_padded]
  · split
    · rw [List.filter_cons_of_neg (by decide), Text.filter_isDigit_padded]
    · exact Text.filter_isDigit_padded 4 _

theorem mem_yearText_iff (y : Int) : '-' ∈ yearText y ↔ y < 0 := by
  unfold yearText
  split
  · next h => simp [h]
  · next h =>
    split
    · simp [h, Text.minus_notMem_padded]
    · simp [h, Text.minus_notMem_padded]

/-- The sign of a year and its digits give the year. -/
theorem yearText_inj (h : yearText y = yearText z) : y = z :=
  Text.int_inj_of_digits filter_isDigit_yearText mem_yearText_iff h

theorem isDigit_or_mem_of_mem_yearText (h : c ∈ yearText y) :
    c.isDigit = true ∨ c ∈ ['-', '+'] := by
  unfold yearText at h
  split at h
  · rcases List.mem_cons.1 h with rfl | h
    · exact .inr (by decide)
    · exact .inl (Text.isDigit_of_mem_padded h)
  · split at h
    · rcases List.mem_cons.1 h with rfl | h
      · exact .inr (by decide)
      · exact .inl (Text.isDigit_of_mem_padded h)
    · exact .inl (Text.isDigit_of_mem_padded h)

theorem day_le (d : Date) : d.day ≤ 31 := by
  have hday := d.day_mem.2
  unfold daysInMonth at hday
  split at hday
  · split at hday <;> omega
  · split at hday <;> omega

theorem length_month (d : Date) : (Text.padded 2 d.month).length = 2 :=
  Text.length_padded (by decide) (by have := d.month_mem; omega)

theorem length_day (d : Date) : (Text.padded 2 d.day).length = 2 :=
  Text.length_padded (by decide) (by have := d.day_le; omega)

theorem text_inj (h : a.text = b.text) : a = b := by
  -- month and day have two digits each, so the year is what is before them
  obtain ⟨h, hday⟩ := List.append_inj' h (by simp [length_day])
  obtain ⟨hyear, hmonth⟩ := List.append_inj' h (by simp [length_month])
  have hyear := yearText_inj hyear
  have hmonth := Text.padded_inj (List.cons.inj hmonth).2
  have hday := Text.padded_inj (List.cons.inj hday).2
  cases a
  cases b
  cases hyear
  cases hmonth
  cases hday
  rfl

theorem isDigit_or_mem_of_mem_text (h : c ∈ a.text) : c.isDigit = true ∨ c ∈ ['-', '+'] := by
  simp only [text, List.mem_append, List.mem_cons] at h
  rcases h with (h | rfl | h) | rfl | h
  · exact isDigit_or_mem_of_mem_yearText h
  · exact .inr (by decide)
  · exact .inl (Text.isDigit_of_mem_padded h)
  · exact .inr (by decide)
  · exact .inl (Text.isDigit_of_mem_padded h)

end

end Date

namespace Time

section
variable {a b : Time} {c : Char} {m n : Nat}

/-- The nanoseconds of a fraction of a second, by its digits. -/
def nanosecondsOf (s : List Char) : Nat :=
  let ds := s.filter Char.isDigit
  Nat.ofDigitChars 10 ds 0 * 10 ^ (9 - ds.length)

theorem nanosecondsOf_padded {w : Nat} (hw : 0 < w) (hn : n < 10 ^ w) :
    nanosecondsOf ('.' :: Text.padded w n) = n * 10 ^ (9 - w) := by
  rw [nanosecondsOf, List.filter_cons_of_neg (by decide), Text.filter_isDigit_padded,
    Text.ofDigitChars_padded, Text.length_padded hw hn]

/-- The digits that are left out are zeros. -/
theorem nanosecondsOf_fractionText (hn : n < 1000000000) :
    nanosecondsOf (fractionText n) = n := by
  unfold fractionText
  split
  · next h => exact h.symm
  · split
    · rw [nanosecondsOf_padded (by decide) (by omega)]
      omega
    · split
      · rw [nanosecondsOf_padded (by decide) (by omega)]
        omega
      · rw [nanosecondsOf_padded (by decide) hn]
        omega

theorem fractionText_inj (hm : m < 1000000000) (hn : n < 1000000000)
    (h : fractionText m = fractionText n) : m = n := by
  rw [← nanosecondsOf_fractionText hm, h, nanosecondsOf_fractionText hn]

theorem isDigit_or_mem_of_mem_fractionText (h : c ∈ fractionText n) :
    c.isDigit = true ∨ c ∈ [':', '.'] := by
  have hdigits {w k : Nat} (h : c ∈ '.' :: Text.padded w k) :
      c.isDigit = true ∨ c ∈ [':', '.'] := by
    rcases List.mem_cons.1 h with rfl | h
    · exact .inr (by decide)
    · exact .inl (Text.isDigit_of_mem_padded h)
  unfold fractionText at h
  split at h
  · cases h
  · split at h
    · exact hdigits h
    · split at h
      · exact hdigits h
      · exact hdigits h

theorem length_hour (t : Time) : (Text.padded 2 t.hour).length = 2 :=
  Text.length_padded (by decide) (by have := t.hour_lt; omega)

theorem length_minute (t : Time) : (Text.padded 2 t.minute).length = 2 :=
  Text.length_padded (by decide) (by have := t.minute_lt; omega)

theorem length_second (t : Time) : (Text.padded 2 t.second).length = 2 :=
  Text.length_padded (by decide) (by have := t.second_le; omega)

theorem text_inj (h : a.text = b.text) : a = b := by
  -- hour, minute and second have two digits each, so the fraction is what is after them
  obtain ⟨h, hfraction⟩ := List.append_inj h (by simp [length_hour, length_minute, length_second])
  obtain ⟨h, hsecond⟩ := List.append_inj h (by simp [length_hour, length_minute])
  obtain ⟨hhour, hminute⟩ := List.append_inj h (by simp [length_hour])
  have hhour := Text.padded_inj hhour
  have hminute := Text.padded_inj (List.cons.inj hminute).2
  have hsecond := Text.padded_inj (List.cons.inj hsecond).2
  have hfraction := fractionText_inj a.nanosecond_lt b.nanosecond_lt hfraction
  cases a
  cases b
  cases hhour
  cases hminute
  cases hsecond
  cases hfraction
  rfl

theorem isDigit_or_mem_of_mem_text (h : c ∈ a.text) : c.isDigit = true ∨ c ∈ [':', '.'] := by
  simp only [text, List.mem_append, List.mem_cons] at h
  rcases h with ((h | rfl | h) | rfl | h) | h
  · exact .inl (Text.isDigit_of_mem_padded h)
  · exact .inr (by decide)
  · exact .inl (Text.isDigit_of_mem_padded h)
  · exact .inr (by decide)
  · exact .inl (Text.isDigit_of_mem_padded h)
  · exact isDigit_or_mem_of_mem_fractionText h

end

end Time

/-- A sign that is in no date and in no time ends the date. -/
theorem Timestamp.text_inj {a b : Timestamp} {sep : Char} (hdigit : sep.isDigit = false)
    (hsep : sep ∉ ['-', '+', ':', '.']) (h : a.text sep = b.text sep) : a = b := by
  simp only [List.mem_cons, List.not_mem_nil, or_false, not_or] at hsep
  have hdate : sep ∉ a.date.text := fun hmem => by
    rcases Date.isDigit_or_mem_of_mem_text hmem with h | h
    · rw [hdigit] at h
      cases h
    · simp [hsep] at h
  have htime : sep ∉ a.time.text := fun hmem => by
    rcases Time.isDigit_or_mem_of_mem_text hmem with h | h
    · rw [hdigit] at h
      cases h
    · simp [hsep] at h
  obtain ⟨hd, -, ht⟩ := (List.append_cons_inj_of_notMem hdate htime).1 h
  cases a
  cases b
  cases Date.text_inj hd
  cases Time.text_inj ht
  rfl

/-! ## UUIDs -/

theorem Uuid.text_inj {u v : Uuid} (h : u.text = v.text) : u = v := by
  have hlength {w m n : Nat} : ('-' :: Text.hex w m).length = ('-' :: Text.hex w n).length := by
    rw [List.length_cons, List.length_cons, Text.length_hex, Text.length_hex]
  -- the groups are cut off from the right
  obtain ⟨h, h₁⟩ := List.append_inj' h hlength
  obtain ⟨h, h₂⟩ := List.append_inj' h hlength
  obtain ⟨h, h₃⟩ := List.append_inj' h hlength
  obtain ⟨h₅, h₄⟩ := List.append_inj' h hlength
  have h₁ := Text.hex_inj (List.cons.inj h₁).2
  have h₂ := Text.hex_inj (List.cons.inj h₂).2
  have h₃ := Text.hex_inj (List.cons.inj h₃).2
  have h₄ := Text.hex_inj (List.cons.inj h₄).2
  have h₅ := Text.hex_inj h₅
  simp only [Nat.shiftRight_eq_div_pow] at h₁ h₂ h₃ h₄ h₅
  have hvalue : u.value.toNat = v.value.toNat := by
    have hu := u.value.isLt
    have hv := v.value.isLt
    omega
  cases u
  cases v
  cases BitVec.eq_of_toNat_eq hvalue
  rfl

/-! ## Literals -/

namespace Dialect

section
variable {d : Dialect}

theorem boolText_inj (style : BooleanStyle) {a b : Bool} (h : boolText style a = boolText style b) :
    a = b := by
  cases style <;> cases a <;> cases b <;> first | rfl | exact absurd h (by decide)

theorem literalChars_eq_of_literal_eq {v w : Value} (h : d.literal v = d.literal w) :
    d.literalChars v = d.literalChars w :=
  String.ofList_inj.1 h

/-- A literal between quotes gives its text. -/
theorem content_eq_of_literal_eq {v w : Value} {s t : List Char} (hv : v.content? = some s)
    (hw : w.content? = some t) (h : d.literal v = d.literal w) : s = t := by
  have hrest : ([] : List Char).head? ≠ some '\'' := by decide
  have hs := d.readLiteral_quoteText s hrest
  have ht := d.readLiteral_quoteText t hrest
  have hquote : d.quoteText s = d.quoteText t := by
    simpa only [literalChars, hv, hw] using literalChars_eq_of_literal_eq h
  rw [hquote, ht] at hs
  exact (Prod.mk.inj (Option.some.inj hs)).1.symm

theorem literal_int_inj {m n : Int} (h : d.literal (.int m) = d.literal (.int n)) : m = n :=
  Text.toString_int_inj (literalChars_eq_of_literal_eq h)

theorem literal_bytes_inj {as bs : List UInt8}
    (h : d.literal (.bytes as) = d.literal (.bytes bs)) : as = bs := by
  have hchars : 'X' :: '\'' :: Text.hexBytes as ++ ['\''] =
      'X' :: '\'' :: Text.hexBytes bs ++ ['\''] := literalChars_eq_of_literal_eq h
  obtain ⟨hinit, -⟩ := List.append_inj' hchars rfl
  exact Text.hexBytes_inj (List.cons.inj (List.cons.inj hinit).2).2

end

/-- Two truth values, integers, texts, byte strings, dates, timestamps, points in time or UUIDs are
equal when their literals are, in every dialect. -/
theorem literal_injective (d : Dialect) :
    (fun b => d.literal (.bool b)).Injective ∧
    (fun n => d.literal (.int n)).Injective ∧
    (fun s => d.literal (.text s)).Injective ∧
    (fun bs => d.literal (.bytes bs)).Injective ∧
    (fun x => d.literal (.date x)).Injective ∧
    (fun t => d.literal (.timestamp t)).Injective ∧
    (fun t => d.literal (.instant t)).Injective ∧
    (fun u => d.literal (.uuid u)).Injective := by
  refine ⟨fun a b h => ?_, fun m n h => literal_int_inj h, fun s t h => ?_,
    fun as bs h => literal_bytes_inj h, fun x y h => ?_, fun t t' h => ?_, fun t t' h => ?_,
    fun u v h => ?_⟩
  · exact boolText_inj d.booleans (literalChars_eq_of_literal_eq h)
  · exact String.toList_inj.1 (content_eq_of_literal_eq rfl rfl h)
  · exact Date.text_inj (content_eq_of_literal_eq rfl rfl h)
  · exact Timestamp.text_inj (by decide) (by decide) (content_eq_of_literal_eq rfl rfl h)
  · -- all of them are given in UTC, which is written behind the time
    obtain ⟨htext, -⟩ := List.append_inj' (content_eq_of_literal_eq rfl rfl h) rfl
    exact Timestamp.text_inj (by decide) (by decide) htext
  · exact Uuid.text_inj (content_eq_of_literal_eq rfl rfl h)

end Dialect

end PortableSql
