import PortableSql.Text.Blank
import PortableSql.Text.Case

/-!
# Operators

The comparison operators of conditions. The shape of the right-hand side decides which operators
make sense and what they become: equality with nothing is `IS NULL`, equality with a list is `IN`.
-/

namespace PortableSql

inductive Operator where
  | equal
  | notEqual
  /-- The spelling `<>` of inequality, which is kept. -/
  | lessGreater
  | less
  | lessEqual
  | greater
  | greaterEqual
  | like
  | notLike
  | is
  | isNot
  | oneOf
  | notOneOf
  deriving DecidableEq, Repr

/-- What stands on the right of an operator. -/
inductive Shape where
  | null
  | scalar
  | list
  | query
  | fragment
  deriving DecidableEq, Repr

def Shape.text : Shape → String
  | null => "NULL"
  | scalar => "scalar"
  | list => "list"
  | query => "subquery"
  | fragment => "literal"

namespace Operator

def text : Operator → String
  | equal => "="
  | notEqual => "!="
  | lessGreater => "<>"
  | less => "<"
  | lessEqual => "<="
  | greater => ">"
  | greaterEqual => ">="
  | like => "LIKE"
  | notLike => "NOT LIKE"
  | is => "IS"
  | isNot => "IS NOT"
  | oneOf => "IN"
  | notOneOf => "NOT IN"

/-- The operators that count as exclusions. -/
def isNegated : Operator → Bool
  | notEqual | lessGreater | isNot | notOneOf => true
  | _ => false

/-- The words of a spelling with one blank between them, in upper case. -/
def canonical (s : String) : String :=
  String.ofList (Text.upper (List.intercalate [' '] (Text.words s.toList)))

/-- The operator of a spelling; letter case and the blanks between words do not matter. -/
def ofText? (s : String) : Option Operator :=
  match canonical s with
  | "=" | "==" => some equal
  | "!=" => some notEqual
  | "<>" => some lessGreater
  | "<" => some less
  | "<=" => some lessEqual
  | ">" => some greater
  | ">=" => some greaterEqual
  | "LIKE" => some like
  | "NOT LIKE" => some notLike
  | "IS" => some is
  | "IS NOT" => some isNot
  | "IN" => some oneOf
  | "NOT IN" => some notOneOf
  | _ => none

/-- The operator that is written when `op` is asked for against a shape. -/
def against? (op : Operator) : Shape → Option Operator
  | .null =>
    match op with
    | equal | is => some is
    | notEqual | lessGreater | isNot => some isNot
    | _ => none
  | .list | .query =>
    match op with
    | equal | oneOf => some oneOf
    | notEqual | lessGreater | notOneOf => some notOneOf
    | _ => none
  | .scalar | .fragment => some op

/-- Equality with a shape. -/
def equality : Shape → Operator
  | .null => is
  | .list | .query => oneOf
  | .scalar | .fragment => equal

theorem against?_equal (s : Shape) : equal.against? s = some (equality s) := by
  cases s <;> rfl

end Operator

end PortableSql
