import PortableSql.Condition
import PortableSql.Join

/-!
# Building selects

Each call sets or extends one clause. Clauses are written in the order of SQL, whatever the order
of the calls.
-/

namespace PortableSql.Select

def empty : Select := ⟨none, none, false, [], [], [], [], [], [], none, none, []⟩

def bind (s : Select) (d : Dialect) : Select := { s with dialect := some d }

/-! ## FROM and the columns -/

def fromTable (s : Select) (name : String) : Select := { s with source := some (.table name none) }

def fromTableAs (s : Select) (name asName : String) : Select :=
  { s with source := some (.table name (some asName)) }

def fromQuery (s select : Select) (asName : String) : Except Error Select :=
  match alias? asName with
  | none => .error (.missingAlias .source)
  | some a => .ok { s with source := some (.query select a) }

def setDistinct (s : Select) (b : Bool) : Select := { s with distinct := b }

def setColumns (s : Select) (cs : List Column) : Select := { s with columns := cs }

def addColumn (s : Select) (c : Column) : Select := { s with columns := s.columns ++ [c] }

def addColumnAs (s : Select) (c : Column) (asName : String) : Select := s.addColumn (c.named asName)

def addColumnQuery (s select : Select) (asName : String) : Except Error Select :=
  (Column.query select asName).map s.addColumn

/-! ## Joins -/

def addJoin (s : Select) (j : Join) : Select := { s with joins := s.joins ++ [j] }

def joinOn (s : Select) (kind : JoinKind) (table : String) (e : Expr) : Select :=
  s.addJoin ((Join.table kind table).onCondition e)

/-- A join whose kind is given by its spelling. -/
def joinAs (s : Select) (kind table : String) (e : Expr) : Except Error Select :=
  (JoinKind.ofText kind).map (s.joinOn · table e)

def innerJoin (s : Select) (table : String) (e : Expr) : Select := s.joinOn .inner table e

def leftJoin (s : Select) (table : String) (e : Expr) : Select := s.joinOn .left table e

def rightJoin (s : Select) (table : String) (e : Expr) : Select := s.joinOn .right table e

def fullJoin (s : Select) (table : String) (e : Expr) : Select := s.joinOn .full table e

def crossJoin (s : Select) (table : String) : Select := s.addJoin (Join.table .cross table)

/-! ## WHERE, GROUP BY and HAVING -/

def addFilter (s : Select) (c : Condition) : Select := { s with filters := s.filters ++ [c] }

def filterEqual (s : Select) (e : Expr) (o : Operand) : Select := s.addFilter (.equals e o)

def filterBy (s : Select) (e : Expr) (o : Operand) (spelling : String) : Except Error Select :=
  (Condition.of e o spelling).map s.addFilter

/-- The entries of a list with commas, trimmed, without the blank ones. -/
def entries (fields : String) : List (List Char) :=
  ((Text.pieces ',' fields.toList).map Text.trim).filter fun f => !f.isEmpty

def groupBy (s : Select) (fields : String) : Select :=
  { s with groups := s.groups ++ (entries fields).map String.ofList }

def addHaving (s : Select) (c : Condition) : Select := { s with havings := s.havings ++ [c] }

def havingBy (s : Select) (e : Expr) (o : Operand) (spelling : String) : Except Error Select :=
  (Condition.ofGroup e o spelling).map s.addHaving

/-! ## ORDER BY, LIMIT and OFFSET -/

def isDirection (word : List Char) : Bool :=
  Text.sameWord word "asc".toList || Text.sameWord word "desc".toList

/-- Drops a direction after the last blank, unless nothing but blanks is before it. -/
def stripDirection (field : List Char) : List Char :=
  let word := (field.reverse.takeWhile fun c => !Text.isBlank c).reverse
  let head := Text.trimEnd (field.reverse.dropWhile fun c => !Text.isBlank c).reverse
  if !head.isEmpty && isDirection word then head else field

/-- All entries get the direction, also those that end in one of their own. -/
def orderBy (s : Select) (fields : String) (direction : Direction) : Select :=
  { s with
    order := s.order ++
      (entries fields).map fun f => ⟨String.ofList (stripDirection f), direction⟩ }

def setLimit (s : Select) (n : Nat) : Select := { s with limit := some n }

/-- No rows to pass over is no OFFSET. -/
def setOffset (s : Select) (n : Nat) : Select := { s with offset := if n = 0 then none else some n }

/-! ## Unions -/

def combine (s : Select) (all : Bool) (select : Select) : Except Error Select :=
  if s.columnCount = select.columnCount then
    .ok { s with branches := s.branches ++ [⟨all, select⟩] }
  else .error (.columnCount s.columnCount select.columnCount)

def union (s select : Select) : Except Error Select := s.combine false select

def unionAll (s select : Select) : Except Error Select := s.combine true select

end PortableSql.Select
