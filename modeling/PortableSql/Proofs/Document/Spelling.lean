import PortableSql.Proofs.Document.Grammar
import PortableSql.Proofs.Document.Strings

/-!
# Spellings

A spelling is a JSON value as text, together with the tree that the grammar gives to the text.
Strings and truth values have spellings, and arrays and objects of spellings have, so a document is
read back part by part (`Json.Spelling.read?_text`).
-/

namespace PortableSql.Json

/-! ## Compact texts -/

theorem elementsText_eq (vs : List Json) :
    elementsText vs = [','].intercalate (vs.map Json.text) := by
  induction vs with
  | nil => rfl
  | cons v vs ih =>
    cases vs with
    | nil => exact List.intercalate_singleton.symm
    | cons w vs =>
      simp only [elementsText, ih, List.map_cons, List.intercalate_cons_cons, List.append_assoc,
        List.singleton_append]

theorem membersText_eq (ms : List (String × Json)) :
    membersText ms = [','].intercalate (ms.map fun m => quoted m.1 ++ ':' :: m.2.text) := by
  induction ms with
  | nil => rfl
  | cons m ms ih =>
    cases ms with
    | nil => exact List.intercalate_singleton.symm
    | cons m' ms =>
      simp only [membersText, ih, List.map_cons, List.intercalate_cons_cons, List.append_assoc,
        List.singleton_append]

/-! ## Escapes -/

theorem hexDigit_mod (n : Nat) : HexDigit (Nat.digitChar (n % 16)) (n % 16) :=
  ⟨Nat.mod_lt n (by decide), .inl rfl⟩

/-- Four digits spell the number they were written for. -/
theorem spelled_hex {n : Nat} (h : n < 65536) :
    Glyph.Spelled ('\\' :: 'u' :: Text.hex 4 n) (.unit n) := by
  have hcode := Glyph.Spelled.code (hexDigit_mod (n / 16 / 16 / 16)) (hexDigit_mod (n / 16 / 16))
    (hexDigit_mod (n / 16)) (hexDigit_mod n)
  have hvalue : ((n / 16 / 16 / 16 % 16 * 16 + n / 16 / 16 % 16) * 16 + n / 16 % 16) * 16 + n % 16 =
      n := by omega
  rwa [hvalue] at hcode

/-- The escape of a character spells its glyph. -/
theorem spelled_escape (c : Char) : Glyph.Spelled (escape c) (glyph c) := by
  have hletter {e : Char} (h : (e, c) ∈ letters) (hescape : escape c = ['\\', e])
      (hglyph : glyph c = .char c) : Glyph.Spelled (escape c) (glyph c) := by
    rw [hescape, hglyph]
    exact .letter h
  by_cases hquote : c = '"'
  · subst hquote
    exact hletter (by decide) rfl rfl
  by_cases hslash : c = '\\'
  · subst hslash
    exact hletter (by decide) rfl rfl
  by_cases hline : c = '\n'
  · subst hline
    exact hletter (by decide) rfl rfl
  by_cases hreturn : c = '\r'
  · subst hreturn
    exact hletter (by decide) rfl rfl
  by_cases htab : c = '\t'
  · subst htab
    exact hletter (by decide) rfl rfl
  by_cases hback : c.toNat = 8
  · have hc : c = Char.ofNat 8 := by rw [← hback, Char.ofNat_toNat]
    subst hc
    exact hletter (by decide) rfl rfl
  by_cases hfeed : c.toNat = 12
  · have hc : c = Char.ofNat 12 := by rw [← hfeed, Char.ofNat_toNat]
    subst hc
    exact hletter (by decide) rfl rfl
  by_cases hcontrol : c.toNat < 32
  · have hescape : escape c = '\\' :: 'u' :: Text.hex 4 c.toNat := by
      simp only [escape, hquote, hslash, hline, hreturn, htab, hback, hfeed, hcontrol, ↓reduceIte]
    have hcoded : isCoded c = true := by
      simp only [isCoded, Bool.and_eq_true, decide_eq_true_eq, bne_iff_ne]
      exact ⟨⟨⟨⟨⟨hcontrol, hline⟩, hreturn⟩, htab⟩, hback⟩, hfeed⟩
    have hglyph : glyph c = .unit c.toNat := if_pos hcoded
    rw [hescape, hglyph]
    exact spelled_hex (by omega)
  · have hescape : escape c = [c] := by
      simp only [escape, hquote, hslash, hline, hreturn, htab, hback, hfeed, hcontrol, ↓reduceIte]
    have hglyph : glyph c = .char c := by simp [glyph, isCoded, hcontrol]
    rw [hescape, hglyph]
    exact .plain hquote hslash (by omega)

theorem spelledAll_escape (cs : List Char) :
    Glyph.SpelledAll (cs.flatMap escape) (cs.map glyph) := by
  induction cs with
  | nil => exact .nil
  | cons c cs ih => exact .cons (spelled_escape c) ih

/-! ## Spellings -/

structure Spelling where
  text : List Char
  tree : Raw
  spelled : Raw.Spelled text tree

namespace Spelling

def string (s : String) : Spelling where
  text := quoted s
  tree := .string (glyphs s)
  spelled := .string (spelledAll_escape s.toList)

def bool (b : Bool) : Spelling where
  text := (Json.bool b).text
  tree := .bool b
  spelled := by
    cases b with
    | false => exact .bool false
    | true => exact .bool true

/-! ## Arrays -/

/-- Spellings with commas between them. -/
def elements (ws : List Spelling) : List Char := [','].intercalate (ws.map text)

def element (w : Spelling) : Element := ⟨w.text, w.tree, []⟩

def array (ws : List Spelling) : Spelling where
  text := '[' :: elements ws ++ [']']
  tree := .array (ws.map tree)
  spelled := by
    have hafter : ∀ e ∈ ws.map element, Spaces e.after := by
      intro e he
      obtain ⟨w, -, rfl⟩ := List.mem_map.1 he
      exact spaces_nil
    have hspelled : ∀ e ∈ ws.map element, Raw.Spelled e.text e.tree := by
      intro e he
      obtain ⟨w, -, rfl⟩ := List.mem_map.1 he
      exact w.spelled
    have harray := Raw.Spelled.array spaces_nil hafter hspelled
    have hwritten : (ws.map element).map Element.written = ws.map text := by
      rw [List.map_map]
      exact List.map_congr_left fun w _ => List.append_nil w.text
    rw [hwritten, List.map_map] at harray
    exact harray

/-! ## Objects -/

/-- A member of an object: its key and its value. -/
def member (m : String × Spelling) : List Char := quoted m.1 ++ ':' :: m.2.text

/-- Members with commas between them. -/
def members (ms : List (String × Spelling)) : List Char := [','].intercalate (ms.map member)

def entry (m : String × Spelling) : Entry :=
  ⟨[], m.1.toList.flatMap escape, glyphs m.1, [], m.2.text, m.2.tree, []⟩

theorem written_entry (m : String × Spelling) : (entry m).written = member m := by
  simp [entry, Entry.written, member, quoted]

def object (ms : List (String × Spelling)) : Spelling where
  text := '\x7b' :: members ms ++ ['\x7d']
  tree := .object (ms.map fun m => (glyphs m.1, m.2.tree))
  spelled := by
    have hformed : ∀ e ∈ ms.map entry, e.WellFormed := by
      intro e he
      obtain ⟨m, -, rfl⟩ := List.mem_map.1 he
      exact ⟨spaces_nil, spelledAll_escape m.1.toList, spaces_nil, spaces_nil⟩
    have hspelled : ∀ e ∈ ms.map entry, Raw.Spelled e.text e.tree := by
      intro e he
      obtain ⟨m, -, rfl⟩ := List.mem_map.1 he
      exact m.2.spelled
    have hobject := Raw.Spelled.object spaces_nil hformed hspelled
    have hwritten : (ms.map entry).map Entry.written = ms.map member := by
      rw [List.map_map]
      exact List.map_congr_left fun m _ => written_entry m
    rw [hwritten, List.map_map] at hobject
    exact hobject

/-! ## Whole texts -/

theorem text_string (s : String) : (string s).text = (Json.string s).text := by
  rw [Json.text]
  rfl

theorem text_array {ws : List Spelling} {vs : List Json} (h : ws.map text = vs.map Json.text) :
    (array ws).text = (Json.array vs).text := by
  simp only [array, elements, h, Json.text, elementsText_eq]

theorem text_object {ms : List (String × Spelling)} {js : List (String × Json)}
    (h : ms.map member = js.map fun m => quoted m.1 ++ ':' :: m.2.text) :
    (object ms).text = (Json.object js).text := by
  simp only [object, members, h, Json.text, membersText_eq]

theorem read?_text (w : Spelling) : Raw.read? (String.ofList w.text) = some w.tree := by
  have hread := w.spelled.read?_eq spaces_nil
  rwa [List.append_nil] at hread

end Spelling

end PortableSql.Json
