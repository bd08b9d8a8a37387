import PortableSql.Context
import PortableSql.Token
import PortableSql.Tree

/-!
# Rendering

How a select and each fragment is written. All of them are rendered for the dialect of the outermost
statement, whatever dialects are bound inside, and share its context. Parts are rendered in the
order of the text, so values are bound in that order.
-/

namespace PortableSql

def JoinKind.text : JoinKind → String
  | inner => "INNER"
  | left => "LEFT"
  | right => "RIGHT"
  | full => "FULL"
  | cross => "CROSS"

def Direction.text : Direction → String
  | ascending => "ASC"
  | descending => "DESC"

/-- Words and signs that stay bare in the arguments of a call. -/
def Call.bareWords : List String := ["DISTINCT", "+", "-", "*", "/", "%"]

def parenthesized (s : String) : String := "(" ++ s ++ ")"

/-- The word `AS` and the quoted alias, if there is one. -/
def aliasText (d : Dialect) : Option String → String
  | some a => " AS " ++ d.quoteName a
  | none => ""

/-- A keyword and the conditions after it; nothing without conditions. -/
def clauseText (keyword : String) (conditions : List String) : String :=
  if conditions.isEmpty then ""
  else " " ++ keyword ++ " " ++ " AND ".intercalate conditions

namespace Select

def headText (distinct : Bool) : String := if distinct then "SELECT DISTINCT " else "SELECT "

def columnsText (columns : List String) : String :=
  if columns.isEmpty then "*" else ", ".intercalate columns

def groupText (d : Dialect) (groups : List String) : String :=
  if groups.isEmpty then ""
  else " GROUP BY " ++ ", ".intercalate (groups.map (d.quoteExpression []))

def orderText (d : Dialect) (order : List SortKey) : String :=
  if order.isEmpty then ""
  else
    " ORDER BY " ++ ", ".intercalate
      (order.map fun k => d.quoteExpression [] k.field ++ " " ++ k.direction.text)

def limitText (limit offset : Option Nat) : String :=
  (match limit with
    | some n => " LIMIT " ++ toString n
    | none => "") ++
  (match offset with
    | some n => " OFFSET " ++ toString n
    | none => "")

end Select

def Branch.joiner (all : Bool) : String := if all then " UNION ALL " else " UNION "

/-- A value on the right of an operator; a single one after `IN` is a list. -/
def Operator.scalarText (op : Operator) (value : String) : String :=
  if op = oneOf ∨ op = notOneOf then parenthesized value else value

mutual

def Select.render (d : Dialect) : Select → Render String
  | ⟨_, none, _, _, _, _, _, _, _, _, _, _⟩ => throw .missingSource
  | ⟨_, some source, distinct, columns, joins, filters, groups, havings, order, limit, offset,
      branches⟩ => do
    let columnTexts ← Column.renderAll d columns
    let sourceText ← source.render d
    let joinTexts ← Join.renderAll d joins
    let filterTexts ← Condition.renderAll d .filter filters
    let havingTexts ← Condition.renderAll d .having havings
    let branchTexts ← Branch.renderAll d (Column.count columns) branches
    return Select.headText distinct ++ Select.columnsText columnTexts ++ " FROM " ++ sourceText ++
      String.join joinTexts ++ clauseText "WHERE" filterTexts ++ Select.groupText d groups ++
      clauseText "HAVING" havingTexts ++ Select.orderText d order ++
      Select.limitText limit offset ++ String.join branchTexts

def Source.render (d : Dialect) : Source → Render String
  | .table name asName => return d.quoteExpression [] name ++ aliasText d asName
  | .query select asName => return parenthesized (← select.render d) ++ aliasText d (some asName)

def Column.renderAll (d : Dialect) : List Column → Render (List String)
  | [] => return []
  | c :: cs => return (← c.render d) :: (← Column.renderAll d cs)

def Column.render (d : Dialect) : Column → Render String
  | ⟨.names s, asName⟩ => return d.quoteExpression [] s ++ aliasText d asName
  | ⟨.fragment f, asName⟩ => return (← f.render d) ++ aliasText d asName
  | ⟨.query _, none⟩ => throw (.missingAlias .column)
  | ⟨.query select, some asName⟩ =>
    return parenthesized (← select.render d) ++ aliasText d (some asName)

/-- Each join after a blank. -/
def Join.renderAll (d : Dialect) : List Join → Render (List String)
  | [] => return []
  | j :: js => return (" " ++ (← j.render d)) :: (← Join.renderAll d js)

def Join.render (d : Dialect) : Join → Render String
  | ⟨kind, target, asName, conditions⟩ => do
    let targetText ← target.render d asName
    -- the conditions of a cross join are never reached
    let conditionTexts ← if kind = .cross then pure [] else Expr.renderAll d conditions
    return kind.text ++ " JOIN " ++ targetText ++ aliasText d asName ++
      clauseText "ON" conditionTexts

/-- A nested select is not rendered before it is known to have an alias. -/
def JoinTarget.render (d : Dialect) : JoinTarget → Option String → Render String
  | .table name, _ => return d.quoteExpression [] name
  | .query _, none => throw (.missingAlias .join)
  | .query select, some _ => return parenthesized (← select.render d)

/-- The conditions of a join. -/
def Expr.renderAll (d : Dialect) : List Expr → Render (List String)
  | [] => return []
  | e :: es => return (← e.render d ["="]) :: (← Expr.renderAll d es)

def Condition.renderAll (d : Dialect) (clause : Clause) : List Condition → Render (List String)
  | [] => return []
  | c :: cs => return (← c.render d clause) :: (← Condition.renderAll d clause cs)

def Condition.render (d : Dialect) (clause : Clause) : Condition → Render String
  | ⟨field, op, operand⟩ =>
    return (← field.render d []) ++ " " ++ op.text ++ " " ++ (← operand.render d clause op)

def Operand.render (d : Dialect) (clause : Clause) (op : Operator) : Operand → Render String
  | .null => return "NULL"
  | .scalar v => return op.scalarText (← Render.value d clause.label v)
  | .list vs => return parenthesized (", ".intercalate (← vs.mapM (Render.value d clause.label)))
  | .query select => return parenthesized (← select.render d)
  | .fragment f => f.render d

/-- An expression whose `bare` words are not quoted. -/
def Expr.render (d : Dialect) (bare : List String) : Expr → Render String
  | .names s => return d.quoteExpression bare s
  | .fragment f => f.render d

def Call.render (d : Dialect) : Call → Render String
  | ⟨name, arguments⟩ =>
    return name ++ parenthesized (", ".intercalate (← Argument.renderAll d arguments))

def Argument.renderAll (d : Dialect) : List Argument → Render (List String)
  | [] => return []
  | a :: as => return (← a.render d) :: (← Argument.renderAll d as)

def Argument.render (d : Dialect) : Argument → Render String
  | .names s => return d.quoteExpression Call.bareWords s
  | .value v => Render.value d Clause.function.label v
  | .fragment f => f.render d

def Fragment.render (d : Dialect) : Fragment → Render String
  | .raw sql => return sql
  | .call c => c.render d
  | .filter c => c.render d .filter
  | .having c => c.render d .having
  | .join j => j.render d
  | .query select => return parenthesized (← select.render d)

/-- The selects combined with one of `width` columns. -/
def Branch.renderAll (d : Dialect) (width : Nat) : List Branch → Render (List String)
  | [] => return []
  | ⟨all, select⟩ :: bs => do
    if width = select.columnCount then
      let selectText ← select.render d
      return (Branch.joiner all ++ selectText) :: (← Branch.renderAll d width bs)
    else throw (.columnCount width select.columnCount)

end

/-! ## Field values -/

/-- What an insert or an update writes into a field. -/
inductive FieldValue where
  | value (v : Value)
  | fragment (f : Fragment)

def FieldValue.raw (sql : String) : FieldValue := .fragment (.raw sql)

def FieldValue.render (d : Dialect) (clause : Clause) : FieldValue → Render String
  | value v => Render.value d clause.label v
  | fragment f => f.render d

end PortableSql
