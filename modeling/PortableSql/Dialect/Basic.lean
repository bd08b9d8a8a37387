import PortableSql.Text.Case

/-!
# Dialects

What differs between databases: how names are quoted, how bind markers look, how truth values and
backslashes are written, and which words are never quoted.
-/

namespace PortableSql

/-- The characters around a quoted name. -/
structure QuotePair where
  opening : Char
  closing : Char
  deriving DecidableEq, Repr

inductive MarkerStyle where
  /-- No markers: values are always written into the text. -/
  | unsupported
  /-- Markers `?`, bound by position. -/
  | positional
  /-- Markers like `:where1`, bound by name. -/
  | named
  /-- Markers like `$1`, bound by number. -/
  | indexed
  deriving DecidableEq, Repr

inductive BooleanStyle where
  | keyword
  | numeric
  deriving DecidableEq, Repr

structure Dialect where
  name : String
  quotes : QuotePair
  markers : MarkerStyle
  /-- What a named marker starts with. -/
  namedSign : Char
  /-- What a numbered marker starts with. -/
  indexedSign : Char
  booleans : BooleanStyle
  /-- Whether a backslash escapes the next character of a string literal. -/
  backslashEscapes : Bool
  /-- Words that are not names, in any case. -/
  bareWords : List String
  deriving DecidableEq, Repr

namespace Dialect

def isBare (d : Dialect) (word : String) : Bool :=
  d.bareWords.any fun w => Text.sameWord w.toList word.toList

def addBareWord (d : Dialect) (word : String) : Dialect :=
  if d.isBare word then d else { d with bareWords := d.bareWords ++ [word] }

def addBareWords (d : Dialect) (words : List String) : Dialect := words.foldl addBareWord d

def removeBareWord (d : Dialect) (word : String) : Dialect :=
  { d with bareWords := d.bareWords.filter fun w => !Text.sameWord w.toList word.toList }

/-- Whether values can be bound. -/
def binds (d : Dialect) : Bool := d.markers != .unsupported

/-- The marker of the parameter `name` at a position counted from one. -/
def marker (d : Dialect) (name : String) (position : Nat) : String :=
  match d.markers with
  | .named => d.namedSign.toString ++ name
  | .positional => "?"
  | .indexed => d.indexedSign.toString ++ toString position
  | .unsupported => name

/-! ## Presets -/

def ansi : Dialect where
  name := "ansi"
  quotes := ⟨'"', '"'⟩
  markers := .named
  namedSign := ':'
  indexedSign := '$'
  booleans := .keyword
  backslashEscapes := false
  bareWords := [
    "AS", "ASC", "DESC", "AND", "OR", "NOT", "NULL", "IS", "IN", "LIKE", "BETWEEN", "DISTINCT",
    "CASE", "WHEN", "THEN", "ELSE", "END", "TRUE", "FALSE", "ON", "COUNT", "SUM", "AVG", "MIN",
    "MAX"]

def postgres : Dialect :=
  { ansi with name := "postgres", markers := .indexed }.addBareWords ["ILIKE", "RETURNING"]

def mysql : Dialect :=
  { ansi with
    name := "mysql"
    quotes := ⟨'\x60', '\x60'⟩
    markers := .positional
    booleans := .numeric
    backslashEscapes := true }.addBareWords ["REGEXP", "DIV"]

def sqlite : Dialect :=
  { ansi with name := "sqlite", booleans := .numeric }.addBareWords ["GLOB"]

def sqlServer : Dialect :=
  { ansi with
    name := "sqlserver"
    quotes := ⟨'[', ']'⟩
    namedSign := '@'
    booleans := .numeric }.addBareWords ["TOP"]

end Dialect

/-! ## Quoted names

A name is put between the quotes of the dialect, with each closing quote inside it written twice.
The star is not a name.
-/

namespace QuotePair

def double (q : QuotePair) (c : Char) : List Char := if c = q.closing then [c, c] else [c]

def quote (q : QuotePair) (name : List Char) : List Char :=
  if name = ['*'] then name else q.opening :: name.flatMap q.double ++ [q.closing]

end QuotePair

def Dialect.quoteName (d : Dialect) (name : String) : String :=
  String.ofList (d.quotes.quote name.toList)

end PortableSql
