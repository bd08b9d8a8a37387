import PortableSql.Number.Decimal
import PortableSql.Text.Digits

/-!
# JSON documents and their compact text

An object keeps its members in the order given. Integers and floats are different numbers, also
when they are equal in value.
-/

namespace PortableSql

inductive Json where
  | null
  | bool (b : Bool)
  | int (n : Int)
  | float (x : Double)
  | string (s : String)
  | array (vs : List Json)
  | object (ms : List (String × Json))

namespace Json

/-- The escapes of quotes, backslashes and control characters; all else stands for itself. -/
def escape (c : Char) : List Char :=
  if c = '"' then ['\\', '"']
  else if c = '\\' then ['\\', '\\']
  else if c = '\n' then ['\\', 'n']
  else if c = '\r' then ['\\', 'r']
  else if c = '\t' then ['\\', 't']
  else if c.toNat = 8 then ['\\', 'b']
  else if c.toNat = 12 then ['\\', 'f']
  else if c.toNat < 32 then '\\' :: 'u' :: Text.hex 4 c.toNat
  else [c]

def quoted (s : String) : List Char := '"' :: s.toList.flatMap escape ++ ['"']

/-- Floats keep a point or an exponent, so that they do not read back as integers. -/
def floatStyle : Decimal.Style where
  tie := .even
  pointAlways := true
  isPositional e := -5 ≤ e && e ≤ 15

def floatText (x : Double) : List Char :=
  if x.isFinite then Decimal.format floatStyle x else "null".toList

mutual

/-- The compact text of a document, without blanks. -/
def text : Json → List Char
  | null => "null".toList
  | bool true => "true".toList
  | bool false => "false".toList
  | int n => (toString n).toList
  | float x => floatText x
  | string s => quoted s
  | array vs => '[' :: elementsText vs ++ [']']
  | object ms => '\x7b' :: membersText ms ++ ['\x7d']

def elementsText : List Json → List Char
  | [] => []
  | [v] => text v
  | v :: w :: vs => text v ++ ',' :: elementsText (w :: vs)

def membersText : List (String × Json) → List Char
  | [] => []
  | [(k, v)] => quoted k ++ ':' :: text v
  | (k, v) :: m :: ms => quoted k ++ ':' :: text v ++ ',' :: membersText (m :: ms)

end

mutual

/-- Equality of documents, with floats compared as numbers. -/
def same : Json → Json → Bool
  | null, null => true
  | bool a, bool b => a == b
  | int m, int n => m == n
  | float x, float y => x.same y
  | string s, string t => s == t
  | array vs, array ws => sameElements vs ws
  | object ms, object ns => sameMembers ms ns
  | _, _ => false

def sameElements : List Json → List Json → Bool
  | [], [] => true
  | v :: vs, w :: ws => same v w && sameElements vs ws
  | _, _ => false

def sameMembers : List (String × Json) → List (String × Json) → Bool
  | [], [] => true
  | (k, v) :: ms, (l, w) :: ns => k == l && same v w && sameMembers ms ns
  | _, _ => false

end

end Json

end PortableSql
