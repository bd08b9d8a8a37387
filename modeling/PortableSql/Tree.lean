import PortableSql.Dialect.Basic
import PortableSql.Error
import PortableSql.Value

/-!
# Selects and the fragments they are made of

Selects, conditions, joins, columns and function calls contain one another to any depth. A select
carries the dialect bound to it, which counts only where the select is compiled as a statement.
-/

namespace PortableSql

inductive JoinKind where
  | inner
  | left
  | right
  | full
  | cross
  deriving DecidableEq, Repr

inductive Direction where
  | ascending
  | descending
  deriving DecidableEq, Repr

/-- An entry of ORDER BY. -/
structure SortKey where
  field : String
  direction : Direction
  deriving DecidableEq, Repr

mutual

structure Select where
  dialect : Option Dialect
  source : Option Source
  distinct : Bool
  /-- No columns stand for `*`. -/
  columns : List Column
  joins : List Join
  filters : List Condition
  groups : List String
  havings : List Condition
  order : List SortKey
  limit : Option Nat
  offset : Option Nat
  branches : List Branch

/-- A select combined with the one before it, `UNION` or `UNION ALL`. -/
structure Branch where
  all : Bool
  select : Select

/-- What follows FROM. -/
inductive Source where
  | table (name : String) (asName : Option String)
  | query (select : Select) (asName : String)

inductive ColumnBody where
  | names (s : String)
  | fragment (f : Fragment)
  | query (select : Select)

structure Column where
  body : ColumnBody
  asName : Option String

inductive JoinTarget where
  | table (name : String)
  | query (select : Select)

structure Join where
  kind : JoinKind
  target : JoinTarget
  asName : Option String
  /-- Joined by AND; a cross join has none in its text. -/
  conditions : List Expr

/-- The right-hand side of a condition. -/
inductive Operand where
  | null
  | scalar (v : Value)
  | list (vs : List Value)
  | query (select : Select)
  | fragment (f : Fragment)

structure Condition where
  field : Expr
  operator : Operator
  operand : Operand

/-- A text whose names are quoted, or a fragment. -/
inductive Expr where
  | names (s : String)
  | fragment (f : Fragment)

inductive Argument where
  | names (s : String)
  | value (v : Value)
  | fragment (f : Fragment)

/-- A function call. -/
structure Call where
  name : String
  arguments : List Argument

/-- A piece of SQL that can stand wherever an expression can. -/
inductive Fragment where
  /-- SQL as written. -/
  | raw (sql : String)
  | call (c : Call)
  | filter (c : Condition)
  | having (c : Condition)
  | join (j : Join)
  | query (select : Select)

end

/-- The number of columns in a list; an empty one stands for `*` and counts as one. -/
def Column.count (cs : List Column) : Nat := max cs.length 1

def Select.columnCount (s : Select) : Nat := Column.count s.columns

end PortableSql
