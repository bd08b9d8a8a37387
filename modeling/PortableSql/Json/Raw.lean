import PortableSql.Json.Numeral

/-!
# Reading JSON

Reading has two steps. The grammar gives a `Raw` tree, whose numbers are numerals and whose
strings are sequences of characters and UTF-16 escapes. What a tree means is decided afterwards,
so a part that nobody looks at need only be well formed: its numerals may be out of range and its
escapes may be unpaired surrogates.
-/

namespace PortableSql.Json

/-- An element of a string: a character, or the code unit of a `\u` escape. -/
inductive Glyph where
  | char (c : Char)
  | unit (u : Nat)
  deriving DecidableEq, Repr

/-- A well-formed text before its numbers and strings are interpreted. -/
inductive Raw where
  | null
  | bool (b : Bool)
  | number (m : Numeral)
  | string (s : List Glyph)
  | array (vs : List Raw)
  | object (ms : List (List Glyph × Raw))

namespace Glyph

/-- The characters of a string; surrogates must come in pairs, high before low. -/
def decode? : List Glyph → Option (List Char)
  | [] => some []
  | .char c :: r => (decode? r).map (c :: ·)
  | .unit h :: .unit l :: r =>
    if 0xD800 ≤ h && h < 0xDC00 then
      if 0xDC00 ≤ l && l < 0xE000 then
        (decode? r).map (Char.ofNat (0x10000 + (h - 0xD800) * 0x400 + (l - 0xDC00)) :: ·)
      else none
    else if 0xDC00 ≤ h && h < 0xE000 then none
    else (decode? (.unit l :: r)).map (Char.ofNat h :: ·)
  | .unit h :: r => if 0xD800 ≤ h && h < 0xE000 then none else (decode? r).map (Char.ofNat h :: ·)

def text? (s : List Glyph) : Option String := (decode? s).map String.ofList

end Glyph

namespace Raw

/-! ## The grammar -/

def isSpace (c : Char) : Bool := c == ' ' || c == '\t' || c == '\n' || c == '\r'

def skip (s : List Char) : List Char := s.dropWhile isSpace

def hexValue? (c : Char) : Option Nat :=
  if '0' ≤ c ∧ c ≤ '9' then some (c.toNat - 48)
  else if 'a' ≤ c ∧ c ≤ 'f' then some (c.toNat - 87)
  else if 'A' ≤ c ∧ c ≤ 'F' then some (c.toNat - 55)
  else none

def codeUnit? (a b c d : Char) : Option Nat := do
  some ((((← hexValue? a) * 16 + (← hexValue? b)) * 16 + (← hexValue? c)) * 16 + (← hexValue? d))

/-- The character a one-letter escape stands for. -/
def escaped? (c : Char) : Option Char :=
  match c with
  | '"' => some '"'
  | '\\' => some '\\'
  | '/' => some '/'
  | 'b' => some (Char.ofNat 8)
  | 'f' => some (Char.ofNat 12)
  | 'n' => some '\n'
  | 'r' => some '\r'
  | 't' => some '\t'
  | _ => none

/-- The rest of a string after its opening quote, and what follows the closing one. -/
def glyphs? : List Char → Option (List Glyph × List Char)
  | [] => none
  | '"' :: r => some ([], r)
  | '\\' :: 'u' :: a :: b :: c :: d :: r => do
    let u ← codeUnit? a b c d
    let (gs, r) ← glyphs? r
    some (.unit u :: gs, r)
  | '\\' :: e :: r => do
    let c ← escaped? e
    let (gs, r) ← glyphs? r
    some (.char c :: gs, r)
  | c :: r =>
    if c = '\\' ∨ c.toNat < 32 then none
    else (glyphs? r).map fun (gs, r) => (.char c :: gs, r)

def digitValue (c : Char) : Nat := c.toNat - 48

/-- A run of digits and what follows it. -/
def digits (s : List Char) : List Nat × List Char :=
  ((s.takeWhile Char.isDigit).map digitValue, s.dropWhile Char.isDigit)

/-- A run that is not empty. -/
def digits? (s : List Char) : Option (List Nat × List Char) :=
  let (ds, r) := digits s
  if ds.isEmpty then none else some (ds, r)

def ofDigits (ds : List Nat) : Nat := ds.foldl (fun n d => n * 10 + d) 0

/-- The digits before the point; a zero among them stands alone. -/
def whole? (s : List Char) : Option (List Nat × List Char) := do
  let (ds, r) ← digits? s
  if ds.head? = some 0 ∧ ds.length ≠ 1 then none else some (ds, r)

def fraction? : List Char → Option (List Nat × List Char)
  | '.' :: r => digits? r
  | s => some ([], s)

def signedExponent? : List Char → Option (Int × List Char)
  | '+' :: r => (digits? r).map fun (ds, r) => (ofDigits ds, r)
  | '-' :: r => (digits? r).map fun (ds, r) => (-ofDigits ds, r)
  | r => (digits? r).map fun (ds, r) => (ofDigits ds, r)

def exponent? : List Char → Option (Option Int × List Char)
  | 'e' :: r => (signedExponent? r).map fun (e, r) => (some e, r)
  | 'E' :: r => (signedExponent? r).map fun (e, r) => (some e, r)
  | s => some (none, s)

def unsigned? (negative : Bool) (s : List Char) : Option (Raw × List Char) := do
  let (whole, r) ← whole? s
  let (fraction, r) ← fraction? r
  let (exponent, r) ← exponent? r
  some (.number ⟨negative, whole, fraction, exponent⟩, r)

def number? : List Char → Option (Raw × List Char)
  | '-' :: r => unsigned? true r
  | s => unsigned? false s

mutual

/-- A value and what follows it. Each bracket costs two units of fuel and a character, so twice
the length of the text is enough. -/
def value? : Nat → List Char → Option (Raw × List Char)
  | 0, _ => none
  | n + 1, s =>
    match skip s with
    | '\x7b' :: r =>
      match skip r with
      | '\x7d' :: r => some (.object [], r)
      | r => (members? n r).map fun (ms, r) => (.object ms, r)
    | '[' :: r =>
      match skip r with
      | ']' :: r => some (.array [], r)
      | r => (elements? n r).map fun (vs, r) => (.array vs, r)
    | '"' :: r => (glyphs? r).map fun (gs, r) => (.string gs, r)
    | 'n' :: 'u' :: 'l' :: 'l' :: r => some (.null, r)
    | 't' :: 'r' :: 'u' :: 'e' :: r => some (.bool true, r)
    | 'f' :: 'a' :: 'l' :: 's' :: 'e' :: r => some (.bool false, r)
    | r => number? r

/-- One element or more, up to the closing bracket. -/
def elements? : Nat → List Char → Option (List Raw × List Char)
  | 0, _ => none
  | n + 1, s =>
    match value? n s with
    | none => none
    | some (v, r) =>
      match skip r with
      | ',' :: r => (elements? n r).map fun (vs, r) => (v :: vs, r)
      | ']' :: r => some ([v], r)
      | _ => none

/-- One member or more, up to the closing brace. -/
def members? : Nat → List Char → Option (List (List Glyph × Raw) × List Char)
  | 0, _ => none
  | n + 1, s =>
    match skip s with
    | '"' :: r =>
      match glyphs? r with
      | none => none
      | some (k, r) =>
        match skip r with
        | ':' :: r =>
          match value? n r with
          | none => none
          | some (v, r) =>
            match skip r with
            | ',' :: r => (members? n r).map fun (ms, r) => ((k, v) :: ms, r)
            | '\x7d' :: r => some ([(k, v)], r)
            | _ => none
        | _ => none
    | _ => none

end

/-- The tree of a whole text. -/
def read? (s : String) : Option Raw :=
  match value? (2 * s.length + 2) s.toList with
  | some (v, r) => if (skip r).isEmpty then some v else none
  | none => none

end Raw

end PortableSql.Json
