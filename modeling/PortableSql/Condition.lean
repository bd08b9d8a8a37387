import PortableSql.Tree

/-!
# Conditions

A condition is checked when it is built: its operator must suit the operand, and is replaced by the
one that is written.
-/

namespace PortableSql

namespace Operand

def shape : Operand → Shape
  | null => .null
  | scalar _ => .scalar
  | list _ => .list
  | query _ => .query
  | fragment _ => .fragment

/-- The null value has a shape of its own. -/
def ofValue : Value → Operand
  | .null => .null
  | v => .scalar v

end Operand

namespace Condition

/-- A condition with an operator given by its spelling. -/
def of (field : Expr) (operand : Operand) (spelling : String) : Except Error Condition :=
  match Operator.ofText? spelling with
  | none => .error (.unknownOperator spelling)
  | some op =>
    match op.against? operand.shape with
    | none => .error (.operatorMisfit op operand.shape)
    | some op => .ok ⟨field, op, operand⟩

/-- Equality, `IS NULL` or `IN`, by the shape of the operand. -/
def equals (field : Expr) (operand : Operand) : Condition :=
  ⟨field, Operator.equality operand.shape, operand⟩

/-- A condition on groups, whose operand is not a nested select. -/
def ofGroup (field : Expr) (operand : Operand) (spelling : String) : Except Error Condition :=
  match operand with
  | .query _ => .error (.havingQuery spelling)
  | _ => of field operand spelling

end Condition

end PortableSql
