import PortableSql.Dialect.Document
import PortableSql.Proofs.Document.Spelling

/-!
# Dialects come back from their documents

The document of a dialect has a spelling, and its tree is read as the dialect it was written for
(`Dialect.ofRaw?_spelling`): every field is found under its key and decodes to what was written.
-/

namespace PortableSql

open Json (Raw Spelling glyphs text?_glyphs)

/-! ## Readers of parts -/

theorem MarkerStyle.ofKey?_key (m : MarkerStyle) : ofKey? m.key = some m := by cases m <;> rfl

theorem BooleanStyle.ofKey?_key (b : BooleanStyle) : ofKey? b.key = some b := by cases b <;> rfl

namespace Json.Raw

/-- Reading part by part what was made part by part. -/
theorem mapM_map_eq_some {α β γ : Type} {read? : β → Option γ} {make : α → β} {result : α → γ}
    (h : ∀ a, read? (make a) = some (result a)) (as : List α) :
    (as.map make).mapM read? = some (as.map result) := by
  induction as with
  | nil => rfl
  | cons a as ih =>
    simp only [List.map_cons, List.mapM_cons, h, ih, Option.pure_def, Option.bind_eq_bind,
      Option.bind_some]

theorem text?_string (s : String) : text? (Spelling.string s).tree = some s := text?_glyphs s

theorem char?_string (c : Char) : char? (Spelling.string (String.singleton c)).tree = some c := by
  rw [Spelling.string, char?, glyphs, decode?_map_glyph, String.toList_singleton]

theorem bool?_bool (b : Bool) : bool? (Spelling.bool b).tree = some b := rfl

theorem texts?_array (ss : List String) :
    texts? (Spelling.array (ss.map .string)).tree = some ss := by
  rw [Spelling.array, texts?, List.map_map]
  exact (mapM_map_eq_some text?_string ss).trans (congrArg some (List.map_id' ss))

/-- An object is read as its members, whatever keys are asked for. -/
theorem record?_object (keys : List String) (ms : List (String × Spelling)) :
    record? keys (Spelling.object ms).tree = some (ms.map fun m => (m.1, m.2.tree)) := by
  rw [Spelling.object, record?]
  refine mapM_map_eq_some (fun m => ?_) ms
  show (Glyph.text? (glyphs m.1)).map _ = _
  rw [text?_glyphs, Option.map_some]

end Json.Raw

/-! ## The whole document -/

def QuotePair.spelling (q : QuotePair) : Spelling :=
  .object [
    ("open", .string (String.singleton q.opening)),
    ("close", .string (String.singleton q.closing))]

theorem QuotePair.text_spelling (q : QuotePair) : q.spelling.text = q.toJson.text := by
  refine Spelling.text_object ?_
  simp only [List.map_cons, List.map_nil, Spelling.member, Spelling.text_string]
  rfl

namespace Dialect

theorem styleKey?_string (s : String) : styleKey? (Spelling.string s).tree = some s :=
  text?_glyphs s

theorem quotePair?_spelling (q : QuotePair) : quotePair? q.spelling.tree = some q := by
  rw [quotePair?, QuotePair.spelling, Raw.record?_object]
  simp [Raw.char?_string, entry?]

def spelling (d : Dialect) : Spelling :=
  .object [
    ("name", .string d.name),
    ("identifier_quote", d.quotes.spelling),
    ("parameter_type", .string d.markers.key),
    ("named_prefix", .string (String.singleton d.namedSign)),
    ("index_prefix", .string (String.singleton d.indexedSign)),
    ("boolean_literals", .string d.booleans.key),
    ("backslash_escapes", .bool d.backslashEscapes),
    ("skip_tokens", .array (d.bareWords.map .string))]

theorem text_spelling (d : Dialect) : d.spelling.text = d.toJson.text := by
  have hwords : (Spelling.array (d.bareWords.map .string)).text =
      (Json.array (d.bareWords.map .string)).text := by
    refine Spelling.text_array ?_
    simp only [List.map_map, Function.comp_def, Spelling.text_string]
  refine Spelling.text_object ?_
  simp only [List.map_cons, List.map_nil, Spelling.member, Spelling.text_string,
    d.quotes.text_spelling, hwords]
  rfl

/-- Every field is found under its key and decodes to what was written. -/
theorem ofRaw?_spelling (d : Dialect) : ofRaw? d.spelling.tree = some d := by
  rw [ofRaw?, spelling, Raw.record?_object]
  simp [Raw.text?_string, Raw.char?_string, Raw.bool?_bool, Raw.texts?_array, entry?,
    quotePair?_spelling, styleKey?_string, MarkerStyle.ofKey?_key, BooleanStyle.ofKey?_key]

/-- Reading the document of a dialect gives the dialect. -/
theorem read_toJson (d : Dialect) : read (String.ofList d.toJson.text) = .ok d := by
  rw [read, ← d.text_spelling, d.spelling.read?_text, Option.bind_some, ofRaw?_spelling]

end Dialect

end PortableSql
