import PortableSql.Operator

/-!
# Errors

Why a statement cannot be built or compiled.
-/

namespace PortableSql

/-- The statements that write fields. -/
inductive Writer where
  | insert
  | update
  deriving DecidableEq, Repr

/-- The places where a nested select needs an alias. -/
inductive AliasPlace where
  | column
  | source
  | join
  deriving DecidableEq, Repr

inductive Error where
  /-- The statement has no dialect. -/
  | unbound
  | missingSource
  | missingTable
  | noFields (w : Writer)
  | columnCount (expected actual : Nat)
  | unknownOperator (spelling : String)
  | operatorMisfit (op : Operator) (shape : Shape)
  /-- A nested select as the operand of a HAVING condition. -/
  | havingQuery (spelling : String)
  | missingAlias (place : AliasPlace)
  | unknownJoinKind (spelling : String)
  | malformedDialect
  deriving DecidableEq, Repr

namespace Error

def message : Error → String
  | unbound => "No platform bound: attach an adapter or platform before compiling"
  | missingSource => "Missing FROM: call \x60from()\x60 before compiling a SELECT"
  | missingTable => "Missing table: no target table was set"
  | noFields .insert => "No fields defined: INSERT has no fields"
  | noFields .update => "No fields defined: UPDATE has no SET fields"
  | columnCount expected actual =>
    "Column count mismatch: expected " ++ toString expected ++ " column(s), got " ++
      toString actual
  | unknownOperator s => "Invalid operator: unknown operator '" ++ s ++ "'"
  | operatorMisfit op shape =>
    "Invalid operator: '" ++ op.text ++ "' cannot be used with a " ++ shape.text ++ " operand"
  | havingQuery s =>
    "Invalid operator: '" ++ s ++ "' cannot be used with a subquery operand in HAVING"
  | missingAlias .column => "Invalid alias: a subquery column requires an alias"
  | missingAlias .source => "Invalid alias: a FROM subquery requires an alias"
  | missingAlias .join => "Invalid alias: a joined subquery requires an alias"
  | unknownJoinKind s => "Unknown join kind: '" ++ s ++ "'"
  | malformedDialect => "Configuration error"

def isColumnCount : Error → Bool
  | columnCount .. => true
  | _ => false

def isInvalidOperator : Error → Bool
  | unknownOperator _ | operatorMisfit .. | havingQuery _ => true
  | _ => false

/-- The statement lacks a part, and no argument was wrong. -/
def isIncomplete : Error → Bool
  | unbound | missingSource | missingTable | noFields _ => true
  | _ => false

end Error

end PortableSql
