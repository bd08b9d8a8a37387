import PortableSql.Calendar
import PortableSql.Json.Document

/-!
# Values

The scalars that a statement binds or writes into its text.
-/

namespace PortableSql

structure Uuid where
  value : BitVec 128
  deriving DecidableEq, Repr

namespace Uuid

/-- Thirty-two lower-case hexadecimal digits in groups of 8, 4, 4, 4 and 12. -/
def text (u : Uuid) : List Char :=
  let part := fun drop take => Text.hex take (u.value.toNat >>> (4 * drop))
  part 24 8 ++ '-' :: part 20 4 ++ '-' :: part 16 4 ++ '-' :: part 12 4 ++ '-' :: part 0 12

end Uuid

inductive Value where
  | null
  | bool (b : Bool)
  | int (n : Int)
  | float (x : Double)
  | text (s : String)
  | bytes (bs : List UInt8)
  | date (d : Date)
  | timestamp (t : Timestamp)
  /-- A point in time, by its date and time in UTC. -/
  | instant (t : Timestamp)
  | uuid (u : Uuid)
  | json (j : Json)

namespace Value

def isNull : Value → Bool
  | null => true
  | _ => false

/-- What is absent is null; what is present is converted. -/
def ofOption {α : Type} (convert : α → Value) : Option α → Value
  | some a => convert a
  | none => null

def typeName : Value → String
  | null => "null"
  | bool _ => "bool"
  | int _ => "int"
  | float _ => "float"
  | text _ => "text"
  | bytes _ => "bytes"
  | date _ => "date"
  | timestamp _ => "timestamp"
  | instant _ => "timestamptz"
  | uuid _ => "uuid"
  | json _ => "json"

/-- Equality of values of one type, with floats compared as numbers. -/
def same : Value → Value → Bool
  | null, null => true
  | bool a, bool b => a == b
  | int m, int n => m == n
  | float x, float y => x.same y
  | text s, text t => s == t
  | bytes a, bytes b => a == b
  | date a, date b => a == b
  | timestamp a, timestamp b => a == b
  | instant a, instant b => a == b
  | uuid a, uuid b => a == b
  | json a, json b => a.same b
  | _, _ => false

/-- The document that carries a value; dates, times and UUIDs are strings in it. -/
def toJson : Value → Json
  | null => .null
  | bool b => .bool b
  | int n => .int n
  | float x => .float x
  | text s => .string s
  | bytes bs => .array (bs.map fun b => .int b.toNat)
  | date d => .string (String.ofList d.text)
  | timestamp t => .string (String.ofList (t.text 'T'))
  | instant t => .string (String.ofList (t.text 'T' ++ ['Z']))
  | uuid u => .string (String.ofList u.text)
  | json j => j

/-- The text of a float that is not finite. -/
def nonFiniteText (x : Double) : List Char :=
  if x.isNaN then "NaN".toList else if x.isNegative then "-inf".toList else "inf".toList

/-- The text of a value that is written between single quotes. -/
def content? : Value → Option (List Char)
  | float x => if x.isFinite then none else some (nonFiniteText x)
  | text s => some s.toList
  | date d => some d.text
  | timestamp t => some (t.text ' ')
  | instant t => some (t.text 'T' ++ "+00:00".toList)
  | uuid u => some u.text
  | json j => some j.text
  | _ => none

end Value

end PortableSql
