import PortableSql.Rendering

/-!
# Inserts

The fields and what they get are two lists, or a list and a select. Every call that changes one of
them changes the other with it.
-/

namespace PortableSql

/-- The inserted rows: one row of values, or the rows of a select. -/
inductive Rows where
  | values (vs : List FieldValue)
  | query (select : Select)

structure Insert where
  dialect : Option Dialect
  table : Option String
  fields : List String
  rows : Rows

def Rows.render (d : Dialect) : Rows → Render String
  | values vs => return " VALUES " ++
      parenthesized (", ".intercalate (← vs.mapM (FieldValue.render d .insert)))
  | query select => return " " ++ (← select.render d)

namespace Insert

def empty : Insert := ⟨none, none, [], .values []⟩

def bind (i : Insert) (d : Dialect) : Insert := { i with dialect := some d }

def intoTable (i : Insert) (name : String) : Insert := { i with table := some name }

/-- Adds a field and its value; a select given before is dropped with its fields. -/
def addValue (i : Insert) (field : String) (v : FieldValue) : Insert :=
  match i.rows with
  | .values vs => { i with fields := i.fields ++ [field], rows := .values (vs ++ [v]) }
  | .query _ => { i with fields := [field], rows := .values [v] }

def addValue? (i : Insert) (field : String) : Option Value → Insert
  | some v => i.addValue field (.value v)
  | none => i

def addRaw (i : Insert) (field sql : String) : Insert := i.addValue field (.raw sql)

/-- Replaces the fields and what they get. -/
def setValues (i : Insert) (pairs : List (String × FieldValue)) : Insert :=
  { i with fields := pairs.map Prod.fst, rows := .values (pairs.map Prod.snd) }

/-- Inserts the rows of a select, which must have a column for each field. -/
def fromQuery (i : Insert) (fields : List String) (select : Select) : Except Error Insert :=
  if fields.length = select.columnCount then .ok { i with fields, rows := .query select }
  else .error (.columnCount fields.length select.columnCount)

def fieldCount (i : Insert) : Nat := i.fields.length

def render (d : Dialect) (i : Insert) : Render String :=
  match i.table with
  | none => throw .missingTable
  | some table =>
    if i.fields.isEmpty then throw (.noFields .insert)
    else
      return "INSERT INTO " ++ d.quoteExpression [] table ++ " " ++
        parenthesized (", ".intercalate (i.fields.map d.quoteName)) ++ (← i.rows.render d)

end Insert

end PortableSql
