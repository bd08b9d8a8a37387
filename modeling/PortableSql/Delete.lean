import PortableSql.Condition
import PortableSql.Rendering

/-!
# Deletes
-/

namespace PortableSql

/-- Without filters a delete removes every row. -/
structure Delete where
  dialect : Option Dialect
  table : Option String
  filters : List Condition

namespace Delete

def empty : Delete := ⟨none, none, []⟩

def bind (x : Delete) (d : Dialect) : Delete := { x with dialect := some d }

def fromTable (x : Delete) (name : String) : Delete := { x with table := some name }

def addFilter (x : Delete) (c : Condition) : Delete := { x with filters := x.filters ++ [c] }

def filterEqual (x : Delete) (e : Expr) (o : Operand) : Delete := x.addFilter (.equals e o)

def filterBy (x : Delete) (e : Expr) (o : Operand) (spelling : String) : Except Error Delete :=
  (Condition.of e o spelling).map x.addFilter

def render (d : Dialect) (x : Delete) : Render String :=
  match x.table with
  | none => throw .missingTable
  | some table => do
    let filterTexts ← Condition.renderAll d .filter x.filters
    return "DELETE FROM " ++ d.quoteExpression [] table ++ clauseText "WHERE" filterTexts

end Delete

end PortableSql
