import PortableSql.Dialect.Basic
import PortableSql.Error
import PortableSql.Json.Document

/-!
# Dialects as documents

A dialect is stored as a JSON object with one key for each field. Reading takes the ANSI preset for
keys that are missing and passes over keys it does not know; a known key given twice is refused.
Records may also be written as arrays of their fields in order, and a style as an object whose one
key is its name.
-/

namespace PortableSql

open Json (Raw)

def MarkerStyle.key : MarkerStyle → String
  | .unsupported => "not_supported"
  | .positional => "position_based"
  | .named => "named_based"
  | .indexed => "index_based"

def MarkerStyle.ofKey? : String → Option MarkerStyle
  | "not_supported" => some .unsupported
  | "position_based" => some .positional
  | "named_based" => some .named
  | "index_based" => some .indexed
  | _ => none

def BooleanStyle.key : BooleanStyle → String
  | .keyword => "keyword"
  | .numeric => "numeric"

def BooleanStyle.ofKey? : String → Option BooleanStyle
  | "keyword" => some .keyword
  | "numeric" => some .numeric
  | _ => none

def QuotePair.toJson (q : QuotePair) : Json :=
  .object [("open", .string q.opening.toString), ("close", .string q.closing.toString)]

namespace Dialect

def toJson (d : Dialect) : Json :=
  .object [
    ("name", .string d.name),
    ("identifier_quote", d.quotes.toJson),
    ("parameter_type", .string d.markers.key),
    ("named_prefix", .string d.namedSign.toString),
    ("index_prefix", .string d.indexedSign.toString),
    ("boolean_literals", .string d.booleans.key),
    ("backslash_escapes", .bool d.backslashEscapes),
    ("skip_tokens", .array (d.bareWords.map .string))]

def keys : List String := [
  "name", "identifier_quote", "parameter_type", "named_prefix", "index_prefix", "boolean_literals",
  "backslash_escapes", "skip_tokens"]

/-- The value under a key that occurs at most once. -/
def entry? {α : Type} (ms : List (String × Raw)) (key : String) (read? : Raw → Option α)
    (missing? : Option α) : Option α :=
  match ms.filter fun m => m.1 == key with
  | [] => missing?
  | [(_, v)] => read? v
  | _ => none

/-- A style is its name, alone or as the only key of an object over `null`. -/
def styleKey? : Raw → Option String
  | .string s => Json.Glyph.text? s
  | .object [(k, .null)] => Json.Glyph.text? k
  | _ => none

def quotePair? (v : Raw) : Option QuotePair := do
  let ms ← v.record? ["open", "close"]
  let opening ← entry? ms "open" Raw.char? none
  let closing ← entry? ms "close" Raw.char? none
  some ⟨opening, closing⟩

def ofRaw? (v : Raw) : Option Dialect := do
  let ms ← v.record? keys
  let name ← entry? ms "name" Raw.text? ansi.name
  let quotes ← entry? ms "identifier_quote" quotePair? ansi.quotes
  let markers ← entry? ms "parameter_type" (styleKey? · |>.bind MarkerStyle.ofKey?) ansi.markers
  let namedSign ← entry? ms "named_prefix" Raw.char? ansi.namedSign
  let indexedSign ← entry? ms "index_prefix" Raw.char? ansi.indexedSign
  let booleans ← entry? ms "boolean_literals" (styleKey? · |>.bind BooleanStyle.ofKey?)
    ansi.booleans
  let backslashEscapes ← entry? ms "backslash_escapes" Raw.bool? ansi.backslashEscapes
  let bareWords ← entry? ms "skip_tokens" Raw.texts? ansi.bareWords
  some { name, quotes, markers, namedSign, indexedSign, booleans, backslashEscapes, bareWords }

/-- The dialect described by a JSON text. -/
def read (s : String) : Except Error Dialect :=
  match (Raw.read? s).bind ofRaw? with
  | some d => .ok d
  | none => .error .malformedDialect

end Dialect

end PortableSql
