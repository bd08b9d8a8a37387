import Mathlib.Data.List.Forall2
import PortableSql.Dialect.Literal

/-!
# String literals

A database reads a string literal from its opening quote to the first quote that is not doubled,
and takes a backslash for an escape where the dialect has it. A character may be spelled in several
ways, and a text is read back from all of them (`Dialect.readLiteral_spelled`). So what is read is
the text that was quoted, and reading stops where the literal ends: no text closes its literal early
or runs into what follows.
-/

namespace PortableSql

namespace Dialect

/-- A character read before the rest of a literal. -/
def readFirst (c : Char) (r : List Char × List Char) : List Char × List Char := (c :: r.1, r.2)

/-- The text up to the closing quote, and what follows the quote. -/
def readBody (d : Dialect) : List Char → Option (List Char × List Char)
  | [] => none
  | '\'' :: '\'' :: cs => (d.readBody cs).map (readFirst '\'')
  | '\'' :: cs => some ([], cs)
  | '\\' :: c :: cs =>
    if d.backslashEscapes then (d.readBody cs).map (readFirst c)
    else (d.readBody (c :: cs)).map (readFirst '\\')
  | c :: cs => (d.readBody cs).map (readFirst c)

/-- The text of the string literal at the beginning, and what follows the literal. -/
def readLiteral (d : Dialect) : List Char → Option (List Char × List Char)
  | '\'' :: cs => d.readBody cs
  | _ => none

/-- The spellings of a character inside a literal: itself, a single quote twice, and anything behind
a backslash where the dialect escapes with it. -/
inductive Spells (d : Dialect) : Char → List Char → Prop where
  | plain {c : Char} : c ≠ '\'' → ¬(c = '\\' ∧ d.backslashEscapes = true) → Spells d c [c]
  | doubled : Spells d '\'' ['\'', '\'']
  | escaped (c : Char) : d.backslashEscapes = true → Spells d c ['\\', c]

/-- A literal with a spelling for each character. -/
def quoteSpelling (us : List (List Char)) : List Char := '\'' :: us.flatten ++ ['\'']

section
variable {d : Dialect} {c : Char} {s u rest : List Char} {us : List (List Char)}

theorem readBody_close (d : Dialect) (h : rest.head? ≠ some '\'') :
    d.readBody ('\'' :: rest) = some ([], rest) := by
  cases rest with
  | nil => rfl
  | cons c cs =>
    have hc : c ≠ '\'' := fun heq => h (congrArg some heq)
    rw [readBody]
    intro cs' heq
    exact hc (List.cons.inj heq).1

/-- A character is read back from each of its spellings, whatever follows. -/
theorem Spells.readBody_append (h : d.Spells c u) (cs : List Char) :
    d.readBody (u ++ cs) = (d.readBody cs).map (readFirst c) := by
  cases h with
  | plain hquote hslash =>
    by_cases hc : c = '\\'
    · subst hc
      have hd : d.backslashEscapes = false := by simpa using hslash
      cases cs <;> simp [hd, readBody]
    · simp [hquote, hc, readBody]
  | doubled => rfl
  | escaped _ hd => simp [hd, readBody]

theorem readBody_flatten (h : List.Forall₂ d.Spells s us) (cs : List Char) :
    d.readBody (us.flatten ++ cs) = (d.readBody cs).map fun r => (s ++ r.1, r.2) := by
  induction h with
  | nil => simp
  | cons hu _ ih =>
    rw [List.flatten_cons, List.append_assoc, hu.readBody_append, ih, Option.map_map]
    rfl

/-- A text is read back from all its spellings, and reading ends with the closing quote. -/
theorem readLiteral_spelled (h : List.Forall₂ d.Spells s us) (hrest : rest.head? ≠ some '\'') :
    d.readLiteral (quoteSpelling us ++ rest) = some (s, rest) := by
  simp only [quoteSpelling, List.cons_append, List.append_assoc, List.nil_append, readLiteral]
  rw [readBody_flatten h, readBody_close d hrest, Option.map_some, List.append_nil]

theorem spells_escape (d : Dialect) (c : Char) : d.Spells c (d.escape c) := by
  by_cases hquote : c = '\''
  · subst hquote
    exact .doubled
  by_cases hslash : c = '\\' ∧ d.backslashEscapes
  · rw [escape, if_neg hquote, if_pos hslash, hslash.1]
    exact .escaped '\\' hslash.2
  · rw [escape, if_neg hquote, if_neg hslash]
    exact .plain hquote hslash

theorem spells_map_escape (d : Dialect) (s : List Char) :
    List.Forall₂ d.Spells s (s.map d.escape) := by
  induction s with
  | nil => exact .nil
  | cons c s ih => exact .cons (d.spells_escape c) ih

theorem readLiteral_quoteText (d : Dialect) (s : List Char) (hrest : rest.head? ≠ some '\'') :
    d.readLiteral (d.quoteText s ++ rest) = some (s, rest) :=
  readLiteral_spelled (d.spells_map_escape s) hrest

end

/-- The literal of a value that has a text is read as that text, and reading ends with it. -/
theorem readLiteral_literal (d : Dialect) {v : Value} {s : List Char} (hv : v.content? = some s)
    {rest : List Char} (hrest : rest.head? ≠ some '\'') :
    d.readLiteral ((d.literal v).toList ++ rest) = some (s, rest) := by
  simp only [literal, String.toList_ofList, literalChars, hv]
  exact d.readLiteral_quoteText s hrest

/-- A backslash and a quote, where backslashes escape. -/
theorem readLiteral_literal_mysql :
    (Value.text "\\'").content? = some ['\\', '\''] ∧ [' ', '\''].head? ≠ some '\'' ∧
      mysql.readLiteral ((mysql.literal (.text "\\'")).toList ++ [' ', '\'']) =
        some (['\\', '\''], [' ', '\'']) :=
  ⟨rfl, by decide, mysql.readLiteral_literal rfl (by decide)⟩

end Dialect

end PortableSql
