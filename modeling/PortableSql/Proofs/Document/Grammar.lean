import Mathlib.Data.List.DropRight
import PortableSql.Json.Document

/-!
# The grammar of JSON

`Raw.Spelled` says which texts are JSON, and of what tree, without the reader: white space may stand
around every token, a character of a string has several spellings, and numbers have no leading
zeros. The reader gives every text its tree (`Raw.Spelled.read?_eq`).
-/

namespace PortableSql.Json

open Raw (isSpace skip value? elements? members? glyphs? hexValue? codeUnit? escaped?)

def Spaces (s : List Char) : Prop := ∀ c ∈ s, isSpace c = true

theorem spaces_nil : Spaces [] := fun _ hc => absurd hc List.not_mem_nil

theorem spaces_of_all {s : List Char} (h : s.all isSpace = true) : Spaces s :=
  List.all_eq_true.1 h

/-! ## Strings -/

/-- The letters of escapes, and what they stand for. -/
def letters : List (Char × Char) := [
  ('"', '"'), ('\\', '\\'), ('/', '/'), ('b', Char.ofNat 8), ('f', Char.ofNat 12), ('n', '\n'),
  ('r', '\r'), ('t', '\t')]

/-- Hexadecimal digits of either case. -/
structure HexDigit (c : Char) (n : Nat) : Prop where
  lt : n < 16
  char : c = Nat.digitChar n ∨ c = (Nat.digitChar n).toUpper

inductive Glyph.Spelled : List Char → Glyph → Prop where
  | plain {c : Char} : c ≠ '"' → c ≠ '\\' → 32 ≤ c.toNat → Spelled [c] (.char c)
  | letter {e c : Char} : (e, c) ∈ letters → Spelled ['\\', e] (.char c)
  | code {a b c d : Char} {k l m n : Nat} : HexDigit a k → HexDigit b l → HexDigit c m →
      HexDigit d n → Spelled ['\\', 'u', a, b, c, d] (.unit (((k * 16 + l) * 16 + m) * 16 + n))

/-- The glyphs of a string, without its quotes. -/
inductive Glyph.SpelledAll : List Char → List Glyph → Prop where
  | nil : SpelledAll [] []
  | cons {s t : List Char} {g : Glyph} {gs : List Glyph} : Glyph.Spelled s g → SpelledAll t gs →
      SpelledAll (s ++ t) (g :: gs)

/-- Characters that need no escape. -/
theorem Glyph.spelledAll_plain {s : List Char}
    (h : s.all (fun c => c != '"' && c != '\\' && 32 ≤ c.toNat) = true) :
    Glyph.SpelledAll s (s.map .char) := by
  induction s with
  | nil => exact .nil
  | cons c s ih =>
    rw [List.all_cons, Bool.and_eq_true, Bool.and_eq_true, Bool.and_eq_true, bne_iff_ne, bne_iff_ne,
      decide_eq_true_eq] at h
    obtain ⟨⟨⟨hquote, hslash⟩, hcontrol⟩, hs⟩ := h
    exact .cons (.plain hquote hslash hcontrol) (ih hs)

/-! ## Numbers -/

namespace Numeral

structure IsDigits (ds : List Nat) : Prop where
  ne_nil : ds ≠ []
  lt : ∀ d ∈ ds, d < 10

def digitText (ds : List Nat) : List Char := ds.map Nat.digitChar

/-- Digits of which a zero before the point stands alone. -/
structure IsWhole (ds : List Nat) : Prop extends IsDigits ds where
  zero_alone : ds.head? = some 0 → ds = [0]

inductive Fraction : List Char → List Nat → Prop where
  | none : Fraction [] []
  | point {ds : List Nat} : IsDigits ds → Fraction ('.' :: digitText ds) ds

inductive Exponent : List Char → Option Int → Prop where
  | none : Exponent [] none
  | unsigned {e : Char} {ds : List Nat} : e = 'e' ∨ e = 'E' → IsDigits ds →
      Exponent (e :: digitText ds) (some (Raw.ofDigits ds))
  | plus {e : Char} {ds : List Nat} : e = 'e' ∨ e = 'E' → IsDigits ds →
      Exponent (e :: '+' :: digitText ds) (some (Raw.ofDigits ds))
  | minus {e : Char} {ds : List Nat} : e = 'e' ∨ e = 'E' → IsDigits ds →
      Exponent (e :: '-' :: digitText ds) (some (-Raw.ofDigits ds))

inductive Spelled : List Char → Numeral → Prop where
  | unsigned {f e : List Char} {whole fraction : List Nat} {exponent : Option Int} :
      IsWhole whole → Fraction f fraction → Exponent e exponent →
      Spelled (digitText whole ++ (f ++ e)) ⟨false, whole, fraction, exponent⟩
  | negative {f e : List Char} {whole fraction : List Nat} {exponent : Option Int} :
      IsWhole whole → Fraction f fraction → Exponent e exponent →
      Spelled ('-' :: (digitText whole ++ (f ++ e))) ⟨true, whole, fraction, exponent⟩

end Numeral

/-! ## Values -/

/-- An element of an array as text, with the white space after it. -/
structure Element where
  text : List Char
  tree : Raw
  after : List Char

def Element.written (e : Element) : List Char := e.text ++ e.after

/-- A member of an object as text, with the white space around its key and after its value. -/
structure Entry where
  before : List Char
  key : List Char
  glyphs : List Glyph
  gap : List Char
  text : List Char
  tree : Raw
  after : List Char

def Entry.written (e : Entry) : List Char :=
  e.before ++ '"' :: (e.key ++ '"' :: (e.gap ++ ':' :: (e.text ++ e.after)))

structure Entry.WellFormed (e : Entry) : Prop where
  before : Spaces e.before
  key : Glyph.SpelledAll e.key e.glyphs
  gap : Spaces e.gap
  after : Spaces e.after

/-- A text of a value, and its tree. White space before a value belongs to its text. -/
inductive Raw.Spelled : List Char → Raw → Prop where
  | null : Spelled "null".toList .null
  | bool (b : Bool) : Spelled (if b then "true" else "false").toList (.bool b)
  | number {s : List Char} {m : Numeral} : m.Spelled s → Spelled s (.number m)
  | string {s : List Char} {gs : List Glyph} : Glyph.SpelledAll s gs →
      Spelled ('"' :: (s ++ ['"'])) (.string gs)
  | array {x : List Char} {es : List Element} : Spaces x → (∀ e ∈ es, Spaces e.after) →
      (∀ e ∈ es, Spelled e.text e.tree) →
      Spelled ('[' :: (x ++ ([','].intercalate (es.map Element.written) ++ [']'])))
        (.array (es.map Element.tree))
  | object {x : List Char} {es : List Entry} : Spaces x → (∀ e ∈ es, e.WellFormed) →
      (∀ e ∈ es, Spelled e.text e.tree) →
      Spelled ('\x7b' :: (x ++ ([','].intercalate (es.map Entry.written) ++ ['\x7d'])))
        (.object (es.map fun e => (e.glyphs, e.tree)))
  | space {c : Char} {s : List Char} {v : Raw} : isSpace c = true → Spelled s v →
      Spelled (c :: s) v

/-! ## Reading strings -/

theorem escaped?_of_mem_letters {e c : Char} (h : (e, c) ∈ letters) : escaped? e = some c := by
  simp only [letters, List.mem_cons, Prod.mk.injEq, List.not_mem_nil, or_false] at h
  rcases h with h | h | h | h | h | h | h | h
  all_goals
    obtain ⟨rfl, rfl⟩ := h
    rfl

theorem hexValue?_digitChar : ∀ n < 16, hexValue? (Nat.digitChar n) = some n := by decide

theorem hexValue?_toUpper_digitChar : ∀ n < 16, hexValue? (Nat.digitChar n).toUpper = some n := by
  decide

theorem HexDigit.hexValue?_eq {c : Char} {n : Nat} (h : HexDigit c n) : hexValue? c = some n := by
  rcases h.char with rfl | rfl
  · exact hexValue?_digitChar n h.lt
  · exact hexValue?_toUpper_digitChar n h.lt

theorem glyphs?_letter {e c : Char} (he : escaped? e = some c) (r : List Char) :
    glyphs? ('\\' :: e :: r) = (glyphs? r).map fun p => (.char c :: p.1, p.2) := by
  have hu : e ≠ 'u' := by
    rintro rfl
    cases he
  rw [glyphs?]
  · simp only [he, Option.bind_eq_bind, Option.bind_some]
    cases glyphs? r <;> rfl
  · intro a b c d r' heq
    exact fun _ => hu heq

theorem glyphs?_plain {c : Char} (hquote : c ≠ '"') (hslash : c ≠ '\\')
    (hcontrol : 32 ≤ c.toNat) (r : List Char) :
    glyphs? (c :: r) = (glyphs? r).map fun p => (.char c :: p.1, p.2) := by
  rw [glyphs?]
  · have hplain : ¬(c = '\\' ∨ c.toNat < 32) := by
      rintro (h | h)
      · exact hslash h
      · omega
    rw [if_neg hplain]
  · rintro rfl
    exact hquote rfl
  · rintro a b c d r' rfl
    exact fun _ => hslash rfl
  · rintro e r' rfl
    exact fun _ => hslash rfl

theorem Glyph.Spelled.glyphs?_append {s : List Char} {g : Glyph} (h : Glyph.Spelled s g)
    (r : List Char) : glyphs? (s ++ r) = (glyphs? r).map fun p => (g :: p.1, p.2) := by
  cases h with
  | plain hquote hslash hcontrol => exact glyphs?_plain hquote hslash hcontrol r
  | letter he => exact glyphs?_letter (escaped?_of_mem_letters he) r
  | code ha hb hc hd =>
    simp only [List.cons_append, List.nil_append, glyphs?, codeUnit?, ha.hexValue?_eq,
      hb.hexValue?_eq, hc.hexValue?_eq, hd.hexValue?_eq, Option.bind_eq_bind, Option.bind_some]
    cases glyphs? r <;> rfl

/-- A string is read up to its closing quote. -/
theorem Glyph.SpelledAll.glyphs?_append {s : List Char} {gs : List Glyph}
    (h : Glyph.SpelledAll s gs) (r : List Char) : glyphs? (s ++ '"' :: r) = some (gs, r) := by
  induction h with
  | nil => rfl
  | cons hg _ ih =>
    rw [List.append_assoc, hg.glyphs?_append, ih]
    rfl

/-! ## Reading numbers -/

/-- Whether a text may follow a value: it begins with white space, a comma or a closing bracket. -/
def endsValue : List Char → Bool
  | [] => true
  | c :: _ => isSpace c || c == ',' || c == ']' || c == '\x7d'

namespace Numeral

section
variable {r f e : List Char} {ds whole fraction : List Nat} {exponent : Option Int}

theorem isDigit_digitChar : ∀ d < 10, (Nat.digitChar d).isDigit = true := by decide

theorem digitValue_digitChar : ∀ d < 10, Raw.digitValue (Nat.digitChar d) = d := by decide

theorem digits?_digitText (hds : IsDigits ds) (hr : r.head?.any Char.isDigit = false) :
    Raw.digits? (digitText ds ++ r) = some (ds, r) := by
  have hdigits : ∀ c ∈ digitText ds, c.isDigit = true := by
    intro c hc
    obtain ⟨d, hd, rfl⟩ := List.mem_map.1 hc
    exact isDigit_digitChar d (hds.lt d hd)
  have hvalues : (digitText ds).map Raw.digitValue = ds := by
    rw [digitText, List.map_map]
    exact (List.map_congr_left fun d hd => digitValue_digitChar d (hds.lt d hd)).trans
      (List.map_id ds)
  have hstop : r.takeWhile Char.isDigit = [] ∧ r.dropWhile Char.isDigit = r := by
    cases r with
    | nil => exact ⟨rfl, rfl⟩
    | cons c r =>
      have hc : ¬c.isDigit = true := by simpa using hr
      exact ⟨List.takeWhile_cons_of_neg hc, List.dropWhile_cons_of_neg hc⟩
  have hne : ds.isEmpty = false := List.isEmpty_eq_false_iff.2 hds.ne_nil
  rw [Raw.digits?, Raw.digits, List.takeWhile_append_of_pos hdigits,
    List.dropWhile_append_of_pos hdigits, hstop.1, hstop.2, List.append_nil, hvalues]
  simp only [hne, Bool.false_eq_true, ↓reduceIte]

theorem whole?_digitText (hds : IsWhole ds) (hr : r.head?.any Char.isDigit = false) :
    Raw.whole? (digitText ds ++ r) = some (ds, r) := by
  have hzero : ¬(ds.head? = some 0 ∧ ds.length ≠ 1) := by
    rintro ⟨hhead, hlength⟩
    rw [hds.zero_alone hhead] at hlength
    exact hlength rfl
  rw [Raw.whole?, digits?_digitText hds.toIsDigits hr]
  simp only [Option.bind_eq_bind, Option.bind_some, if_neg hzero]

/-- What ends a value goes on with no number. -/
theorem head?_of_endsValue {c : Char} (hr : endsValue r = true) (hc : r.head? = some c) :
    c.isDigit = false ∧ c ≠ '.' ∧ c ≠ 'e' ∧ c ≠ 'E' := by
  cases r with
  | nil => cases hc
  | cons d r =>
    obtain rfl : d = c := Option.some.inj hc
    simp only [endsValue, isSpace, Bool.or_eq_true, beq_iff_eq] at hr
    rcases hr with ((((((rfl | rfl) | rfl) | rfl) | rfl) | rfl) | rfl) <;> decide

theorem noDigit_of_endsValue (hr : endsValue r = true) : r.head?.any Char.isDigit = false := by
  cases hhead : r.head? with
  | none => rfl
  | some c => exact (head?_of_endsValue hr hhead).1

theorem digitChar_ne_sign : ∀ d < 10, Nat.digitChar d ≠ '+' ∧ Nat.digitChar d ≠ '-' := by decide

theorem signedExponent?_digitText (hds : IsDigits ds) (hr : endsValue r = true) :
    Raw.signedExponent? (digitText ds ++ r) = some ((Raw.ofDigits ds : Int), r) := by
  have hread := digits?_digitText hds (noDigit_of_endsValue hr)
  obtain ⟨d, ds, rfl⟩ := List.exists_cons_of_ne_nil hds.ne_nil
  obtain ⟨hplus, hminus⟩ := digitChar_ne_sign d (hds.lt d List.mem_cons_self)
  rw [Raw.signedExponent?, hread]
  · rfl
  · intro r' heq
    exact hplus (List.cons.inj heq).1
  · intro r' heq
    exact hminus (List.cons.inj heq).1

theorem exponent?_append (he : Exponent e exponent) (hr : endsValue r = true) :
    Raw.exponent? (e ++ r) = some (exponent, r) := by
  have hread {ds : List Nat} (hds : IsDigits ds) := digits?_digitText hds (noDigit_of_endsValue hr)
  cases he with
  | none =>
    rw [List.nil_append, Raw.exponent?]
    · rintro r' rfl
      exact (head?_of_endsValue hr rfl).2.2.1 rfl
    · rintro r' rfl
      exact (head?_of_endsValue hr rfl).2.2.2 rfl
  | unsigned hsign hds =>
    have hsigned := signedExponent?_digitText hds hr
    rcases hsign with rfl | rfl <;> rw [List.cons_append, Raw.exponent?, hsigned] <;> rfl
  | plus hsign hds =>
    rcases hsign with rfl | rfl <;>
      rw [List.cons_append, List.cons_append, Raw.exponent?, Raw.signedExponent?, hread hds] <;> rfl
  | minus hsign hds =>
    rcases hsign with rfl | rfl <;>
      rw [List.cons_append, List.cons_append, Raw.exponent?, Raw.signedExponent?, hread hds] <;> rfl

/-- What follows the digits before the point, or those after it, begins with no digit and no
point. -/
theorem head?_exponent_append (he : Exponent e exponent) (hr : endsValue r = true) :
    (e ++ r).head?.any Char.isDigit = false ∧ (e ++ r).head? ≠ some '.' := by
  cases he with
  | none => exact ⟨noDigit_of_endsValue hr, fun h => (head?_of_endsValue hr h).2.1 rfl⟩
  | unsigned hsign => rcases hsign with rfl | rfl <;> exact ⟨rfl, by simp⟩
  | plus hsign => rcases hsign with rfl | rfl <;> exact ⟨rfl, by simp⟩
  | minus hsign => rcases hsign with rfl | rfl <;> exact ⟨rfl, by simp⟩

theorem fraction?_append (hf : Fraction f fraction) (he : Exponent e exponent)
    (hr : endsValue r = true) : Raw.fraction? (f ++ (e ++ r)) = some (fraction, e ++ r) := by
  obtain ⟨hdigit, hpoint⟩ := head?_exponent_append he hr
  cases hf with
  | none =>
    rw [List.nil_append, Raw.fraction?]
    intro r' heq
    rw [heq] at hpoint
    exact hpoint rfl
  | point hds => exact digits?_digitText hds hdigit

theorem unsigned?_append (hwhole : IsWhole whole) (hf : Fraction f fraction)
    (he : Exponent e exponent) (hr : endsValue r = true) (negative : Bool) :
    Raw.unsigned? negative (digitText whole ++ (f ++ (e ++ r))) =
      some (.number ⟨negative, whole, fraction, exponent⟩, r) := by
  have hstop : (f ++ (e ++ r)).head?.any Char.isDigit = false := by
    cases hf with
    | none => exact (head?_exponent_append he hr).1
    | point => rfl
  rw [Raw.unsigned?, whole?_digitText hwhole hstop]
  simp only [Option.bind_eq_bind, Option.bind_some, fraction?_append hf he hr,
    exponent?_append he hr]

theorem value?_digitChar {d : Nat} (hd : d < 10) (n : Nat) (r : List Char) :
    Raw.value? (n + 1) (Nat.digitChar d :: r) = Raw.unsigned? false (Nat.digitChar d :: r) := by
  have hcases : d = 0 ∨ d = 1 ∨ d = 2 ∨ d = 3 ∨ d = 4 ∨ d = 5 ∨ d = 6 ∨ d = 7 ∨ d = 8 ∨ d = 9 := by
    omega
  rcases hcases with rfl | rfl | rfl | rfl | rfl | rfl | rfl | rfl | rfl | rfl <;> rfl

theorem Spelled.length_pos {s : List Char} {m : Numeral} (h : m.Spelled s) : 0 < s.length := by
  cases h with
  | unsigned hwhole =>
    have hpos := List.length_pos_iff.2 hwhole.ne_nil
    rw [List.length_append, digitText, List.length_map]
    omega
  | negative => exact Nat.succ_pos _

theorem Spelled.value?_append {s : List Char} {m : Numeral} (h : m.Spelled s)
    (hr : endsValue r = true) (n : Nat) :
    Raw.value? (n + 1) (s ++ r) = some (.number m, r) := by
  cases h with
  | unsigned hwhole hf he =>
    have hread := unsigned?_append hwhole hf he hr false
    obtain ⟨d, ds, rfl⟩ := List.exists_cons_of_ne_nil hwhole.ne_nil
    rw [List.append_assoc, List.append_assoc]
    rw [← hread]
    exact value?_digitChar (hwhole.lt d List.mem_cons_self) n _
  | negative hwhole hf he =>
    rw [List.cons_append, List.append_assoc, List.append_assoc]
    exact unsigned?_append hwhole hf he hr true

end

end Numeral

/-! ## Reading values -/

section
variable {n : Nat} {s x r t : List Char} {v : Raw} {es : List Element} {vs : List Raw}

theorem skip_cons {c : Char} (h : isSpace c = false) (r : List Char) : skip (c :: r) = c :: r := by
  rw [skip, List.dropWhile_cons_of_neg (by simp [h])]

theorem skip_append (hx : Spaces x) (s : List Char) : skip (x ++ s) = skip s :=
  List.dropWhile_append_of_pos hx

theorem skip_skip (s : List Char) : skip (skip s) = skip s := List.dropWhile_idempotent _ _

theorem value?_skip (n : Nat) (s : List Char) : value? n (skip s) = value? n s := by
  cases n with
  | zero => rfl
  | succ n => rw [value?, value?, skip_skip]

theorem elements?_skip (n : Nat) (s : List Char) : elements? n (skip s) = elements? n s := by
  cases n with
  | zero => rfl
  | succ n => rw [elements?, elements?, value?_skip]

theorem members?_skip (n : Nat) (s : List Char) : members? n (skip s) = members? n s := by
  cases n with
  | zero => rfl
  | succ n => rw [members?, members?, skip_skip]

/-- No element begins with a closing bracket. -/
theorem elements?_close (n : Nat) (r : List Char) : elements? n (']' :: r) = none := by
  cases n with
  | zero => rfl
  | succ n =>
    cases n with
    | zero => rfl
    | succ n => rfl

theorem members?_close (n : Nat) (r : List Char) : members? n ('\x7d' :: r) = none := by
  cases n with
  | zero => rfl
  | succ n => rfl

theorem value?_array (h : elements? n t = some (vs, r)) :
    value? (n + 1) ('[' :: t) = some (.array vs, r) := by
  rw [← elements?_skip] at h
  rw [value?, skip_cons rfl]
  simp only
  split
  · next heq =>
    rw [heq, elements?_close] at h
    cases h
  · rw [h, Option.map_some]

theorem value?_object {ms : List (List Glyph × Raw)} (h : members? n t = some (ms, r)) :
    value? (n + 1) ('\x7b' :: t) = some (.object ms, r) := by
  rw [← members?_skip] at h
  rw [value?, skip_cons rfl]
  simp only
  split
  · next heq =>
    rw [heq, members?_close] at h
    cases h
  · rw [h, Option.map_some]

theorem endsValue_append (hx : Spaces x) (hr : endsValue r = true) :
    endsValue (x ++ r) = true := by
  cases x with
  | nil => exact hr
  | cons c x =>
    have hc := hx c List.mem_cons_self
    simp only [List.cons_append, endsValue, hc, Bool.true_or]

/-- The reader gives a text its tree wherever a value may end. -/
def IsRead (s : List Char) (v : Raw) : Prop :=
  ∀ (n : Nat) (r : List Char), endsValue r = true → 2 * s.length ≤ n →
    value? n (s ++ r) = some (v, r)

/-! ## Reading arrays -/

theorem value?_element {e : Element} (hread : IsRead e.text e.tree) (hafter : Spaces e.after)
    (hn : 2 * e.written.length ≤ n) (hr : endsValue r = true) :
    value? n (e.written ++ r) = some (e.tree, e.after ++ r) := by
  rw [Element.written, List.length_append] at hn
  rw [Element.written, List.append_assoc]
  exact hread n (e.after ++ r) (endsValue_append hafter hr) (by omega)

theorem elements?_written (hes : es ≠ []) (hafter : ∀ e ∈ es, Spaces e.after)
    (hread : ∀ e ∈ es, IsRead e.text e.tree)
    (hn : 2 * ([','].intercalate (es.map Element.written)).length < n) (r : List Char) :
    elements? n ([','].intercalate (es.map Element.written) ++ ']' :: r) =
      some (es.map Element.tree, r) := by
  induction es generalizing n with
  | nil => exact absurd rfl hes
  | cons e es ih =>
    obtain ⟨m, rfl⟩ := Nat.exists_eq_add_one.2 (show 0 < n by omega)
    have hspaces := hafter e List.mem_cons_self
    cases es with
    | nil =>
      rw [List.map_singleton, List.intercalate_singleton] at hn ⊢
      have hvalue := value?_element (hread e List.mem_cons_self) hspaces (n := m) (by omega)
        (r := ']' :: r) rfl
      rw [elements?, hvalue]
      simp only [skip_append hspaces, skip_cons (c := ']') rfl, List.map_singleton]
    | cons e' es =>
      rw [List.map_cons, List.map_cons, List.intercalate_cons_cons, ← List.map_cons] at hn ⊢
      simp only [List.length_append, List.length_singleton] at hn
      have hrest := ih (List.cons_ne_nil e' es)
        (fun e he => hafter e (List.mem_cons_of_mem _ he))
        (fun e he => hread e (List.mem_cons_of_mem _ he)) (n := m) (by omega)
      have hvalue := value?_element (hread e List.mem_cons_self) hspaces (n := m) (by omega)
        (r := ',' :: ([','].intercalate ((e' :: es).map Element.written) ++ ']' :: r)) rfl
      rw [List.append_assoc, List.append_assoc, List.singleton_append, elements?, hvalue]
      simp only [skip_append hspaces, skip_cons (c := ',') rfl]
      rw [hrest]
      rfl

theorem isRead_array (hx : Spaces x) (hafter : ∀ e ∈ es, Spaces e.after)
    (hread : ∀ e ∈ es, IsRead e.text e.tree) :
    IsRead ('[' :: (x ++ ([','].intercalate (es.map Element.written) ++ [']'])))
      (.array (es.map Element.tree)) := by
  intro n r _ hn
  simp only [List.length_cons, List.length_append, List.length_nil] at hn
  obtain ⟨m, rfl⟩ := Nat.exists_eq_add_one.2 (show 0 < n by omega)
  rw [List.cons_append, List.append_assoc, List.append_assoc, List.singleton_append]
  by_cases hes : es = []
  · subst hes
    rw [value?, skip_cons rfl]
    simp only [List.map_nil, List.intercalate_nil, List.nil_append, skip_append hx,
      skip_cons (c := ']') rfl]
  · have helements := elements?_written hes hafter hread (n := m) (by omega) r
    rw [← elements?_skip, ← skip_append hx, elements?_skip] at helements
    exact value?_array helements

/-! ## Reading objects -/

section
variable {e : Entry} (he : e.WellFormed) (hread : IsRead e.text e.tree)
  (hn : 2 * e.written.length ≤ n)
include he hread hn

theorem value?_entry (hr : endsValue r = true) :
    value? n (e.text ++ (e.after ++ r)) = some (e.tree, e.after ++ r) := by
  simp only [Entry.written, List.length_append, List.length_cons] at hn
  exact hread n (e.after ++ r) (endsValue_append he.after hr) (by omega)

theorem members?_entry_comma (r : List Char) :
    members? (n + 1) (e.written ++ ',' :: r) =
      (members? n r).map fun p => ((e.glyphs, e.tree) :: p.1, p.2) := by
  have hvalue := value?_entry he hread hn (r := ',' :: r) rfl
  simp only [Entry.written, List.append_assoc, List.cons_append]
  rw [members?, skip_append he.before, skip_cons rfl]
  simp only [he.key.glyphs?_append, skip_append he.gap, skip_cons (c := ':') rfl, hvalue,
    skip_append he.after, skip_cons (c := ',') rfl]

theorem members?_entry_close (r : List Char) :
    members? (n + 1) (e.written ++ '\x7d' :: r) = some ([(e.glyphs, e.tree)], r) := by
  have hvalue := value?_entry he hread hn (r := '\x7d' :: r) rfl
  simp only [Entry.written, List.append_assoc, List.cons_append]
  rw [members?, skip_append he.before, skip_cons rfl]
  simp only [he.key.glyphs?_append, skip_append he.gap, skip_cons (c := ':') rfl, hvalue,
    skip_append he.after, skip_cons (c := '\x7d') rfl]

end

theorem members?_written {es : List Entry} (hes : es ≠ []) (hformed : ∀ e ∈ es, e.WellFormed)
    (hread : ∀ e ∈ es, IsRead e.text e.tree)
    (hn : 2 * ([','].intercalate (es.map Entry.written)).length < n) (r : List Char) :
    members? n ([','].intercalate (es.map Entry.written) ++ '\x7d' :: r) =
      some (es.map fun e => (e.glyphs, e.tree), r) := by
  induction es generalizing n with
  | nil => exact absurd rfl hes
  | cons e es ih =>
    obtain ⟨m, rfl⟩ := Nat.exists_eq_add_one.2 (show 0 < n by omega)
    have he := hformed e List.mem_cons_self
    have hvalue := hread e List.mem_cons_self
    cases es with
    | nil =>
      rw [List.map_singleton, List.intercalate_singleton] at hn ⊢
      exact members?_entry_close he hvalue (by omega) r
    | cons e' es =>
      rw [List.map_cons, List.map_cons, List.intercalate_cons_cons, ← List.map_cons] at hn ⊢
      simp only [List.length_append, List.length_singleton] at hn
      have hrest := ih (List.cons_ne_nil e' es)
        (fun e he => hformed e (List.mem_cons_of_mem _ he))
        (fun e he => hread e (List.mem_cons_of_mem _ he)) (n := m) (by omega)
      rw [List.append_assoc, List.append_assoc, List.singleton_append,
        members?_entry_comma he hvalue (by omega), hrest]
      rfl

theorem isRead_object {es : List Entry} (hx : Spaces x) (hformed : ∀ e ∈ es, e.WellFormed)
    (hread : ∀ e ∈ es, IsRead e.text e.tree) :
    IsRead ('\x7b' :: (x ++ ([','].intercalate (es.map Entry.written) ++ ['\x7d'])))
      (.object (es.map fun e => (e.glyphs, e.tree))) := by
  intro n r _ hn
  simp only [List.length_cons, List.length_append, List.length_nil] at hn
  obtain ⟨m, rfl⟩ := Nat.exists_eq_add_one.2 (show 0 < n by omega)
  rw [List.cons_append, List.append_assoc, List.append_assoc, List.singleton_append]
  by_cases hes : es = []
  · subst hes
    rw [value?, skip_cons rfl]
    simp only [List.map_nil, List.intercalate_nil, List.nil_append, skip_append hx,
      skip_cons (c := '\x7d') rfl]
  · have hmembers := members?_written hes hformed hread (n := m) (by omega) r
    rw [← members?_skip, ← skip_append hx, members?_skip] at hmembers
    exact value?_object hmembers

/-! ## Reading documents -/

theorem isRead_null : IsRead "null".toList .null := by
  intro n r _ hn
  obtain ⟨m, rfl⟩ := Nat.exists_eq_add_one.2 (Nat.lt_of_lt_of_le (by decide) hn)
  rfl

theorem isRead_bool (b : Bool) : IsRead (if b then "true" else "false").toList (.bool b) := by
  intro n r _ hn
  have hlength : 0 < 2 * (if b then "true" else "false").toList.length := by cases b <;> decide
  obtain ⟨m, rfl⟩ := Nat.exists_eq_add_one.2 (Nat.lt_of_lt_of_le hlength hn)
  cases b <;> rfl

theorem isRead_number {m : Numeral} (h : m.Spelled s) : IsRead s (.number m) := by
  intro n r hr hn
  have hpos := h.length_pos
  obtain ⟨k, rfl⟩ := Nat.exists_eq_add_one.2 (show 0 < n by omega)
  exact h.value?_append hr k

theorem isRead_string {gs : List Glyph} (h : Glyph.SpelledAll s gs) :
    IsRead ('"' :: (s ++ ['"'])) (.string gs) := by
  intro n r _ hn
  rw [List.length_cons] at hn
  obtain ⟨m, rfl⟩ := Nat.exists_eq_add_one.2 (show 0 < n by omega)
  rw [List.cons_append, List.append_assoc, List.singleton_append, value?, skip_cons rfl]
  simp only [h.glyphs?_append, Option.map_some]

theorem isRead_space {c : Char} (hc : isSpace c = true) (h : IsRead s v) : IsRead (c :: s) v := by
  intro n r hr hn
  have hskip : skip (c :: (s ++ r)) = skip (s ++ r) := List.dropWhile_cons_of_pos hc
  rw [List.length_cons] at hn
  rw [List.cons_append, ← value?_skip, hskip, value?_skip]
  exact h n r hr (by omega)

theorem Raw.Spelled.isRead (h : Raw.Spelled s v) : IsRead s v := by
  induction h with
  | null => exact isRead_null
  | bool b => exact isRead_bool b
  | number hm => exact isRead_number hm
  | string hs => exact isRead_string hs
  | array hx hafter _ ih => exact isRead_array hx hafter ih
  | object hx hformed _ ih => exact isRead_object hx hformed ih
  | space hc _ ih => exact isRead_space hc ih

/-- The reader gives a document its tree, whatever white space follows. -/
theorem Raw.Spelled.read?_eq (h : Raw.Spelled s v) (hx : Spaces x) :
    Raw.read? (String.ofList (s ++ x)) = some v := by
  have hends : endsValue x = true := by
    have h := endsValue_append hx (r := []) rfl
    rwa [List.append_nil] at h
  have hskip : skip x = [] := by
    have h := skip_append hx []
    rwa [List.append_nil] at h
  rw [Raw.read?, String.length_ofList, String.toList_ofList,
    h.isRead (2 * (s ++ x).length + 2) x hends (by rw [List.length_append]; omega)]
  simp only [hskip, List.isEmpty_nil, ↓reduceIte]

end

end PortableSql.Json
