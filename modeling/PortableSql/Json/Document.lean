import PortableSql.Json.Raw

/-!
# Documents

What a well-formed text means: the strings, characters and records a reader asks for, or the whole
document.
-/

namespace PortableSql.Json

namespace Raw

def text? : Raw → Option String
  | .string s => Glyph.text? s
  | _ => none

def bool? : Raw → Option Bool
  | .bool b => some b
  | _ => none

/-- A character is a string of one. -/
def char? : Raw → Option Char
  | .string s =>
    match Glyph.decode? s with
    | some [c] => some c
    | _ => none
  | _ => none

def texts? : Raw → Option (List String)
  | .array vs => vs.mapM text?
  | _ => none

/-- The members of an object under their decoded names, or the values of an array, no more than
`keys`, under the keys in order. -/
def record? (keys : List String) : Raw → Option (List (String × Raw))
  | .object ms => ms.mapM fun (k, v) => (Glyph.text? k).map (·, v)
  | .array vs => if vs.length ≤ keys.length then some (keys.zip vs) else none
  | _ => none

/-- Inserts a member in the order of keys, in place of one with the same key. -/
def insertMember (k : String) (v : Json) : List (String × Json) → List (String × Json)
  | [] => [(k, v)]
  | (l, w) :: ms =>
    if k < l then (k, v) :: (l, w) :: ms
    else if k = l then (k, v) :: ms
    else (l, w) :: insertMember k v ms

mutual

/-- The document a tree stands for: members are sorted by key, and the last of equal keys wins. -/
def document? : Raw → Option Json
  | .null => some .null
  | .bool b => some (.bool b)
  | .number m => m.value?
  | .string s => (Glyph.text? s).map .string
  | .array vs => (elementDocuments? vs).map .array
  | .object ms => (memberDocuments? ms []).map .object

def elementDocuments? : List Raw → Option (List Json)
  | [] => some []
  | v :: vs =>
    match document? v with
    | none => none
    | some j => (elementDocuments? vs).map (j :: ·)

def memberDocuments? : List (List Glyph × Raw) → List (String × Json) →
    Option (List (String × Json))
  | [], done => some done
  | (k, v) :: ms, done =>
    match Glyph.text? k, document? v with
    | some k, some j => memberDocuments? ms (insertMember k j done)
    | _, _ => none

end

end Raw

/-- The document written in a text. -/
def read? (s : String) : Option Json := (Raw.read? s).bind Raw.document?

end PortableSql.Json
