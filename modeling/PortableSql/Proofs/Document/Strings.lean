import PortableSql.Json.Document

/-!
# Strings of a JSON text

A string is written with escapes and read as glyphs, one for each character (`Json.glyphs`), and the
glyphs decode to the string (`Json.text?_glyphs`).
-/

namespace PortableSql.Json

/-! ## Glyphs -/

/-- Whether a character is written by its code: a control character without a letter of its own. -/
def isCoded (c : Char) : Bool :=
  c.toNat < 32 && c != '\n' && c != '\r' && c != '\t' && c.toNat != 8 && c.toNat != 12

/-- What is read where a character was written. -/
def glyph (c : Char) : Glyph := if isCoded c then .unit c.toNat else .char c

def glyphs (s : String) : List Glyph := s.toList.map glyph

/-! ## Decoding -/

/-- A code outside the surrogates stands for itself. -/
theorem decode?_unit {n : Nat} (h : n < 0xD800) (gs : List Glyph) :
    Glyph.decode? (.unit n :: gs) = (Glyph.decode? gs).map (Char.ofNat n :: ·) := by
  have hhigh : ¬(0xD800 ≤ n) := by omega
  have hlow : ¬(0xDC00 ≤ n) := by omega
  cases gs with
  | nil => simp [Glyph.decode?, hhigh]
  | cons g gs =>
    cases g with
    | char c => simp [Glyph.decode?, hhigh]
    | unit l => simp [Glyph.decode?, hhigh, hlow]

theorem decode?_map_glyph (cs : List Char) : Glyph.decode? (cs.map glyph) = some cs := by
  induction cs with
  | nil => rfl
  | cons c cs ih =>
    by_cases hcoded : isCoded c = true
    · have hcontrol : c.toNat < 32 := by
        simp only [isCoded, Bool.and_eq_true, decide_eq_true_eq] at hcoded
        omega
      rw [List.map_cons, glyph, if_pos hcoded, decode?_unit (by omega), ih, Option.map_some,
        Char.ofNat_toNat]
    · rw [List.map_cons, glyph, if_neg hcoded, Glyph.decode?, ih, Option.map_some]

/-- The glyphs of a string decode to the string. -/
theorem text?_glyphs (s : String) : Glyph.text? (glyphs s) = some s := by
  rw [Glyph.text?, glyphs, decode?_map_glyph, Option.map_some, String.ofList_toList]

end PortableSql.Json
