import PortableSql.Statement

/-!
# Builder calls

A statement is built by calls, one after the other; each sets or extends a part of it, or is
refused. Here the calls are data, so that one can speak of every sequence of them. What a call is
given (selects, joins, conditions, ...) was built before it: `Part.Built` is what can be built at
all, to any depth.
-/

namespace PortableSql

theorem Except.exists_of_map_eq_ok {ε α β : Type} {x : Except ε α} {f : α → β} {b : β}
    (h : x.map f = .ok b) : ∃ a, x = .ok a ∧ f a = b := by
  cases x with
  | error e => cases h
  | ok a => exact ⟨a, rfl, Except.ok.inj h⟩

namespace Select

/-- A call on a select. -/
inductive Step where
  | bind (d : Dialect)
  | fromTable (name : String)
  | fromTableAs (name asName : String)
  | fromQuery (select : Select) (asName : String)
  | setDistinct (b : Bool)
  | setColumns (cs : List Column)
  | addColumn (c : Column)
  | addColumnAs (c : Column) (asName : String)
  | addColumnQuery (select : Select) (asName : String)
  | addJoin (j : Join)
  /-- An inner, left, right or full join, or a cross join with a condition. -/
  | joinOn (kind : JoinKind) (table : String) (e : Expr)
  | joinAs (kind table : String) (e : Expr)
  | crossJoin (table : String)
  | addFilter (c : Condition)
  | filterEqual (e : Expr) (o : Operand)
  | filterBy (e : Expr) (o : Operand) (spelling : String)
  | groupBy (fields : String)
  | addHaving (c : Condition)
  | havingBy (e : Expr) (o : Operand) (spelling : String)
  | orderBy (fields : String) (direction : Direction)
  | setLimit (n : Nat)
  | setOffset (n : Nat)
  | combine (all : Bool) (select : Select)

def Step.run (s : Select) : Step → Except Error Select
  | bind d => .ok (s.bind d)
  | fromTable name => .ok (s.fromTable name)
  | fromTableAs name asName => .ok (s.fromTableAs name asName)
  | fromQuery select asName => s.fromQuery select asName
  | setDistinct b => .ok (s.setDistinct b)
  | setColumns cs => .ok (s.setColumns cs)
  | addColumn c => .ok (s.addColumn c)
  | addColumnAs c asName => .ok (s.addColumnAs c asName)
  | addColumnQuery select asName => s.addColumnQuery select asName
  | addJoin j => .ok (s.addJoin j)
  | joinOn kind table e => .ok (s.joinOn kind table e)
  | joinAs kind table e => s.joinAs kind table e
  | crossJoin table => .ok (s.crossJoin table)
  | addFilter c => .ok (s.addFilter c)
  | filterEqual e o => .ok (s.filterEqual e o)
  | filterBy e o spelling => s.filterBy e o spelling
  | groupBy fields => .ok (s.groupBy fields)
  | addHaving c => .ok (s.addHaving c)
  | havingBy e o spelling => s.havingBy e o spelling
  | orderBy fields direction => .ok (s.orderBy fields direction)
  | setLimit n => .ok (s.setLimit n)
  | setOffset n => .ok (s.setOffset n)
  | combine all select => s.combine all select

end Select

namespace Insert

/-- A call on an insert. -/
inductive Step where
  | bind (d : Dialect)
  | intoTable (name : String)
  | addValue (field : String) (v : FieldValue)
  | addValue? (field : String) (v : Option Value)
  | addRaw (field sql : String)
  | setValues (pairs : List (String × FieldValue))
  | fromQuery (fields : List String) (select : Select)

def Step.run (i : Insert) : Step → Except Error Insert
  | bind d => .ok (i.bind d)
  | intoTable name => .ok (i.intoTable name)
  | addValue field v => .ok (i.addValue field v)
  | addValue? field v => .ok (i.addValue? field v)
  | addRaw field sql => .ok (i.addRaw field sql)
  | setValues pairs => .ok (i.setValues pairs)
  | fromQuery fields select => i.fromQuery fields select

/-- The insert that a sequence of calls builds, or why one of them was refused. -/
def build (steps : List Step) : Except Error Insert := steps.foldlM Step.run empty

end Insert

namespace Update

/-- A call on an update. -/
inductive Step where
  | bind (d : Dialect)
  | setTable (name : String)
  | set (field : String) (v : FieldValue)
  | set? (field : String) (v : Option Value)
  | setRaw (field sql : String)
  | setAll (pairs : List (String × FieldValue))
  | addFilter (c : Condition)
  | filterEqual (e : Expr) (o : Operand)
  | filterBy (e : Expr) (o : Operand) (spelling : String)

def Step.run (u : Update) : Step → Except Error Update
  | bind d => .ok (u.bind d)
  | setTable name => .ok (u.setTable name)
  | set field v => .ok (u.set field v)
  | set? field v => .ok (u.set? field v)
  | setRaw field sql => .ok (u.setRaw field sql)
  | setAll pairs => .ok (u.setAll pairs)
  | addFilter c => .ok (u.addFilter c)
  | filterEqual e o => .ok (u.filterEqual e o)
  | filterBy e o spelling => u.filterBy e o spelling

end Update

namespace Delete

/-- A call on a delete. -/
inductive Step where
  | bind (d : Dialect)
  | fromTable (name : String)
  | addFilter (c : Condition)
  | filterEqual (e : Expr) (o : Operand)
  | filterBy (e : Expr) (o : Operand) (spelling : String)

def Step.run (x : Delete) : Step → Except Error Delete
  | bind d => .ok (x.bind d)
  | fromTable name => .ok (x.fromTable name)
  | addFilter c => .ok (x.addFilter c)
  | filterEqual e o => .ok (x.filterEqual e o)
  | filterBy e o spelling => x.filterBy e o spelling

end Delete

/-! ## What can be built -/

/-- What callers build and give to calls. -/
inductive Part where
  | select (s : Select)
  | insert (i : Insert)
  | update (u : Update)
  | delete (x : Delete)
  | column (c : Column)
  | join (j : Join)
  | condition (c : Condition)
  | operand (o : Operand)
  | expr (e : Expr)
  | call (c : Call)
  | argument (a : Argument)
  | fragment (f : Fragment)
  | fieldValue (v : FieldValue)

/-- What a condition is built of. -/
def Condition.parts (e : Expr) (o : Operand) : List Part := [.expr e, .operand o]

/-- The parts that a call is given. -/
def Select.Step.parts : Select.Step → List Part
  | fromQuery select _ | addColumnQuery select _ | combine _ select => [.select select]
  | setColumns cs => cs.map .column
  | addColumn c | addColumnAs c _ => [.column c]
  | addJoin j => [.join j]
  | joinOn _ _ e | joinAs _ _ e => [.expr e]
  | addFilter c | addHaving c => [.condition c]
  | filterEqual e o | filterBy e o _ | havingBy e o _ => Condition.parts e o
  | bind _ | fromTable _ | fromTableAs .. | setDistinct _ | crossJoin _ | groupBy _ | orderBy ..
  | setLimit _ | setOffset _ => []

def Insert.Step.parts : Insert.Step → List Part
  | addValue _ v => [.fieldValue v]
  | setValues pairs => pairs.map fun p => .fieldValue p.2
  | fromQuery _ select => [.select select]
  | bind _ | intoTable _ | addValue? .. | addRaw .. => []

def Update.Step.parts : Update.Step → List Part
  | set _ v => [.fieldValue v]
  | setAll pairs => pairs.map fun p => .fieldValue p.2
  | addFilter c => [.condition c]
  | filterEqual e o | filterBy e o _ => Condition.parts e o
  | bind _ | setTable _ | set? .. | setRaw .. => []

def Delete.Step.parts : Delete.Step → List Part
  | addFilter c => [.condition c]
  | filterEqual e o | filterBy e o _ => Condition.parts e o
  | bind _ | fromTable _ => []

namespace Part

/-- The parts that some calls build, one call after the other and each from parts that are built. -/
inductive Built : Part → Prop where
  | emptySelect : Built (select .empty)
  | emptyInsert : Built (insert .empty)
  | emptyUpdate : Built (update .empty)
  | emptyDelete : Built (delete .empty)
  | runSelect {s s' : Select} {c : Select.Step} : Built (select s) → (∀ p ∈ c.parts, Built p) →
      c.run s = .ok s' → Built (select s')
  | runInsert {i i' : Insert} {c : Insert.Step} : Built (insert i) → (∀ p ∈ c.parts, Built p) →
      c.run i = .ok i' → Built (insert i')
  | runUpdate {u u' : Update} {c : Update.Step} : Built (update u) → (∀ p ∈ c.parts, Built p) →
      c.run u = .ok u' → Built (update u')
  | runDelete {x x' : Delete} {c : Delete.Step} : Built (delete x) → (∀ p ∈ c.parts, Built p) →
      c.run x = .ok x' → Built (delete x')
  | columnNames (s : String) : Built (column (.names s))
  | columnFragment {f : Fragment} : Built (fragment f) → Built (column (.fragment f))
  | columnQuery {s : Select} {asName : String} {c : Column} : Built (select s) →
      Column.query s asName = .ok c → Built (column c)
  | columnNamed {c : Column} (asName : String) : Built (column c) → Built (column (c.named asName))
  | joinTable (kind : JoinKind) (name : String) : Built (join (.table kind name))
  | joinQuery {kind : JoinKind} {s : Select} {asName : String} {j : Join} : Built (select s) →
      Join.query kind s asName = .ok j → Built (join j)
  | joinNamed {j : Join} (asName : String) : Built (join j) → Built (join (j.named asName))
  | joinOn {j : Join} {e : Expr} : Built (join j) → Built (expr e) →
      Built (join (j.onCondition e))
  | conditionOf {e : Expr} {o : Operand} {spelling : String} {c : Condition} :
      (∀ p ∈ Condition.parts e o, Built p) → Condition.of e o spelling = .ok c → Built (condition c)
  | conditionEquals {e : Expr} {o : Operand} : (∀ p ∈ Condition.parts e o, Built p) →
      Built (condition (.equals e o))
  | conditionOfGroup {e : Expr} {o : Operand} {spelling : String} {c : Condition} :
      (∀ p ∈ Condition.parts e o, Built p) → Condition.ofGroup e o spelling = .ok c →
      Built (condition c)
  | operandNull : Built (operand .null)
  | operandScalar (v : Value) : Built (operand (.scalar v))
  | operandList (vs : List Value) : Built (operand (.list vs))
  | operandQuery {s : Select} : Built (select s) → Built (operand (.query s))
  | operandFragment {f : Fragment} : Built (fragment f) → Built (operand (.fragment f))
  | exprNames (s : String) : Built (expr (.names s))
  | exprFragment {f : Fragment} : Built (fragment f) → Built (expr (.fragment f))
  | callNamed (name : String) : Built (call (.named name))
  | callPush {c : Call} {a : Argument} : Built (call c) → Built (argument a) →
      Built (call (c.push a))
  | argumentNames (s : String) : Built (argument (.names s))
  | argumentValue (v : Value) : Built (argument (.value v))
  | argumentFragment {f : Fragment} : Built (fragment f) → Built (argument (.fragment f))
  | fragmentRaw (sql : String) : Built (fragment (.raw sql))
  | fragmentCall {c : Call} : Built (call c) → Built (fragment (.call c))
  | fragmentFilter {c : Condition} : Built (condition c) → Built (fragment (.filter c))
  | fragmentHaving {c : Condition} : Built (condition c) → Built (fragment (.having c))
  | fragmentJoin {j : Join} : Built (join j) → Built (fragment (.join j))
  | fragmentQuery {s : Select} : Built (select s) → Built (fragment (.query s))
  | fieldValue (v : Value) : Built (fieldValue (.value v))
  | fieldFragment {f : Fragment} : Built (fragment f) → Built (fieldValue (.fragment f))

theorem Built.ofDialect (d : Dialect) : Built (select d.select) :=
  .runSelect (c := .bind d) .emptySelect (List.forall_mem_nil _) rfl

theorem Built.fromTableAs {s : Select} (h : Built (select s)) (name asName : String) :
    Built (select (s.fromTableAs name asName)) :=
  .runSelect (c := .fromTableAs name asName) h (List.forall_mem_nil _) rfl

end Part

def Statement.part : Statement → Part
  | select s => .select s
  | insert i => .insert i
  | update u => .update u
  | delete x => .delete x

/-- Some calls build the statement. -/
def Statement.Built (s : Statement) : Prop := s.part.Built

end PortableSql
