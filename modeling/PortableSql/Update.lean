import PortableSql.Condition
import PortableSql.Rendering

/-!
# Updates
-/

namespace PortableSql

structure Update where
  dialect : Option Dialect
  table : Option String
  assignments : List (String × FieldValue)
  filters : List Condition

namespace Update

def empty : Update := ⟨none, none, [], []⟩

def bind (u : Update) (d : Dialect) : Update := { u with dialect := some d }

def setTable (u : Update) (name : String) : Update := { u with table := some name }

def set (u : Update) (field : String) (v : FieldValue) : Update :=
  { u with assignments := u.assignments ++ [(field, v)] }

def set? (u : Update) (field : String) : Option Value → Update
  | some v => u.set field (.value v)
  | none => u

def setRaw (u : Update) (field sql : String) : Update := u.set field (.raw sql)

/-- Replaces all assignments. -/
def setAll (u : Update) (pairs : List (String × FieldValue)) : Update :=
  { u with assignments := pairs }

def addFilter (u : Update) (c : Condition) : Update := { u with filters := u.filters ++ [c] }

def filterEqual (u : Update) (e : Expr) (o : Operand) : Update := u.addFilter (.equals e o)

def filterBy (u : Update) (e : Expr) (o : Operand) (spelling : String) : Except Error Update :=
  (Condition.of e o spelling).map u.addFilter

def renderAssignment (d : Dialect) (p : String × FieldValue) : Render String :=
  return d.quoteName p.1 ++ " = " ++ (← p.2.render d .update)

def render (d : Dialect) (u : Update) : Render String :=
  match u.table with
  | none => throw .missingTable
  | some table =>
    if u.assignments.isEmpty then throw (.noFields .update)
    else do
      let assignmentTexts ← u.assignments.mapM (renderAssignment d)
      let filterTexts ← Condition.renderAll d .filter u.filters
      return "UPDATE " ++ d.quoteExpression [] table ++ " SET " ++
        ", ".intercalate assignmentTexts ++ clauseText "WHERE" filterTexts

end Update

end PortableSql
