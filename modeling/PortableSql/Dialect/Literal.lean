import PortableSql.Dialect.Basic
import PortableSql.Value

/-!
# Literals

A value as it stands in the text of a statement.
-/

namespace PortableSql

namespace Dialect

/-- A float is written out in full, without an exponent. -/
def floatStyle : Decimal.Style where
  tie := .up
  pointAlways := false
  isPositional _ := true

/-- A single quote is doubled, and a backslash where the dialect escapes with it. -/
def escape (d : Dialect) (c : Char) : List Char :=
  if c = '\'' then ['\'', '\'']
  else if c = '\\' ∧ d.backslashEscapes then ['\\', '\\']
  else [c]

def quoteText (d : Dialect) (s : List Char) : List Char := '\'' :: s.flatMap d.escape ++ ['\'']

def boolText : BooleanStyle → Bool → List Char
  | .keyword, true => "TRUE".toList
  | .keyword, false => "FALSE".toList
  | .numeric, true => ['1']
  | .numeric, false => ['0']

def literalChars (d : Dialect) (v : Value) : List Char :=
  match v.content? with
  | some s => d.quoteText s
  | none =>
    match v with
    | .bool b => boolText d.booleans b
    | .int n => (toString n).toList
    | .float x => Decimal.format floatStyle x
    | .bytes bs => 'X' :: '\'' :: Text.hexBytes bs ++ ['\'']
    | _ => "NULL".toList

/-- The literal of a value. -/
def literal (d : Dialect) (v : Value) : String := String.ofList (d.literalChars v)

end Dialect

end PortableSql
