import PortableSql.Proofs.Template.Statement

/-!
# The outermost dialect

Selects keep the dialect bound to them when they are nested. `Statement.unbindNested` takes off all
dialects but that of the statement itself, and the template stays the same
(`Statement.template_unbindNested`): a nested select is written for the dialect of the statement,
whatever it was bound to, and needs none of its own.
-/

namespace PortableSql

mutual

/-- The select without its dialect and those of the selects inside. -/
def Select.unbind : Select → Select
  | ⟨_, source, distinct, columns, joins, filters, groups, havings, order, limit, offset,
      branches⟩ =>
    ⟨none, Source.unbind? source, distinct, Column.unbindAll columns, Join.unbindAll joins,
      Condition.unbindAll filters, groups, Condition.unbindAll havings, order, limit, offset,
      Branch.unbindAll branches⟩

def Source.unbind? : Option Source → Option Source
  | none => none
  | some s => some s.unbind

def Source.unbind : Source → Source
  | .table name asName => .table name asName
  | .query select asName => .query select.unbind asName

def Column.unbindAll : List Column → List Column
  | [] => []
  | c :: cs => c.unbind :: Column.unbindAll cs

def Column.unbind : Column → Column
  | ⟨.names s, asName⟩ => ⟨.names s, asName⟩
  | ⟨.fragment f, asName⟩ => ⟨.fragment f.unbind, asName⟩
  | ⟨.query select, asName⟩ => ⟨.query select.unbind, asName⟩

def Join.unbindAll : List Join → List Join
  | [] => []
  | j :: js => j.unbind :: Join.unbindAll js

def Join.unbind : Join → Join
  | ⟨kind, target, asName, conditions⟩ => ⟨kind, target.unbind, asName, Expr.unbindAll conditions⟩

def JoinTarget.unbind : JoinTarget → JoinTarget
  | .table name => .table name
  | .query select => .query select.unbind

def Expr.unbindAll : List Expr → List Expr
  | [] => []
  | e :: es => e.unbind :: Expr.unbindAll es

def Condition.unbindAll : List Condition → List Condition
  | [] => []
  | c :: cs => c.unbind :: Condition.unbindAll cs

def Condition.unbind : Condition → Condition
  | ⟨field, op, operand⟩ => ⟨field.unbind, op, operand.unbind⟩

def Operand.unbind : Operand → Operand
  | .null => .null
  | .scalar v => .scalar v
  | .list vs => .list vs
  | .query select => .query select.unbind
  | .fragment f => .fragment f.unbind

def Expr.unbind : Expr → Expr
  | .names s => .names s
  | .fragment f => .fragment f.unbind

def Call.unbind : Call → Call
  | ⟨name, arguments⟩ => ⟨name, Argument.unbindAll arguments⟩

def Argument.unbindAll : List Argument → List Argument
  | [] => []
  | a :: as => a.unbind :: Argument.unbindAll as

def Argument.unbind : Argument → Argument
  | .names s => .names s
  | .value v => .value v
  | .fragment f => .fragment f.unbind

def Fragment.unbind : Fragment → Fragment
  | .raw sql => .raw sql
  | .call c => .call c.unbind
  | .filter c => .filter c.unbind
  | .having c => .having c.unbind
  | .join j => .join j.unbind
  | .query select => .query select.unbind

def Branch.unbindAll : List Branch → List Branch
  | [] => []
  | ⟨all, select⟩ :: bs => ⟨all, select.unbind⟩ :: Branch.unbindAll bs

end

def FieldValue.unbind : FieldValue → FieldValue
  | value v => value v
  | fragment f => fragment f.unbind

def Rows.unbind : Rows → Rows
  | values vs => values (vs.map FieldValue.unbind)
  | query select => query select.unbind

/-- The statement with its own dialect and without those of the selects inside. -/
def Statement.unbindNested : Statement → Statement
  | select s => select { s.unbind with dialect := s.dialect }
  | insert i => insert { i with rows := i.rows.unbind }
  | update u =>
    update { u with
      assignments := u.assignments.map fun p => (p.1, p.2.unbind)
      filters := Condition.unbindAll u.filters }
  | delete x => delete { x with filters := Condition.unbindAll x.filters }

theorem Statement.dialect_unbindNested (s : Statement) : s.unbindNested.dialect = s.dialect := by
  cases s <;> rfl

/-! ## Templates -/

theorem Column.length_unbindAll (cs : List Column) : (Column.unbindAll cs).length = cs.length := by
  induction cs with
  | nil => rfl
  | cons c cs ih => rw [Column.unbindAll, List.length_cons, ih, List.length_cons]

theorem Select.columnCount_unbind (s : Select) : s.unbind.columnCount = s.columnCount := by
  cases s
  rw [Select.unbind, Select.columnCount, Column.count, Column.length_unbindAll, Select.columnCount,
    Column.count]

mutual

theorem Select.template_unbind (d : Dialect) :
    ∀ s : Select, s.unbind.template d = s.template d
  | ⟨_, none, _, _, _, _, _, _, _, _, _, _⟩ => by
    simp only [Select.unbind, Source.unbind?, Select.template]
  | ⟨_, some source, _, columns, joins, filters, _, havings, _, _, _, branches⟩ => by
    simp only [Select.unbind, Source.unbind?, Select.template, Column.count,
      Column.length_unbindAll, Column.templates_unbind d columns, source.template_unbind d,
      Join.templates_unbind d joins, Condition.templates_unbind d .filter filters,
      Condition.templates_unbind d .having havings, Branch.templates_unbind d _ branches]

theorem Source.template_unbind (d : Dialect) :
    ∀ s : Source, s.unbind.template d = s.template d
  | .table _ _ => by rw [Source.unbind]
  | .query select _ => by
    rw [Source.unbind, Source.template, select.template_unbind d, Source.template]

theorem Column.templates_unbind (d : Dialect) :
    ∀ cs : List Column, Column.templates d (Column.unbindAll cs) = Column.templates d cs
  | [] => by rw [Column.unbindAll]
  | c :: cs => by
    rw [Column.unbindAll, Column.templates, c.template_unbind d, Column.templates_unbind d cs,
      Column.templates]

theorem Column.template_unbind (d : Dialect) :
    ∀ c : Column, c.unbind.template d = c.template d
  | ⟨.names _, _⟩ => by rw [Column.unbind]
  | ⟨.fragment f, _⟩ => by
    rw [Column.unbind, Column.template, f.template_unbind d, Column.template]
  | ⟨.query _, none⟩ => by rw [Column.unbind, Column.template, Column.template]
  | ⟨.query select, some _⟩ => by
    rw [Column.unbind, Column.template, select.template_unbind d, Column.template]

theorem Join.templates_unbind (d : Dialect) :
    ∀ js : List Join, Join.templates d (Join.unbindAll js) = Join.templates d js
  | [] => by rw [Join.unbindAll]
  | j :: js => by
    rw [Join.unbindAll, Join.templates, j.template_unbind d, Join.templates_unbind d js,
      Join.templates]

theorem Join.template_unbind (d : Dialect) : ∀ j : Join, j.unbind.template d = j.template d
  | ⟨_, target, asName, conditions⟩ => by
    rw [Join.unbind, Join.template, target.template_unbind d asName,
      Expr.templates_unbind d conditions, Join.template]

theorem JoinTarget.template_unbind (d : Dialect) :
    ∀ (t : JoinTarget) (asName : Option String), t.unbind.template d asName = t.template d asName
  | .table _, _ => by rw [JoinTarget.unbind]
  | .query _, none => by rw [JoinTarget.unbind, JoinTarget.template, JoinTarget.template]
  | .query select, some _ => by
    rw [JoinTarget.unbind, JoinTarget.template, select.template_unbind d, JoinTarget.template]

theorem Expr.templates_unbind (d : Dialect) :
    ∀ es : List Expr, Expr.templates d (Expr.unbindAll es) = Expr.templates d es
  | [] => by rw [Expr.unbindAll]
  | e :: es => by
    rw [Expr.unbindAll, Expr.templates, e.template_unbind d, Expr.templates_unbind d es,
      Expr.templates]

theorem Condition.templates_unbind (d : Dialect) (clause : Clause) : ∀ cs : List Condition,
    Condition.templates d clause (Condition.unbindAll cs) = Condition.templates d clause cs
  | [] => by rw [Condition.unbindAll]
  | c :: cs => by
    rw [Condition.unbindAll, Condition.templates, c.template_unbind d clause,
      Condition.templates_unbind d clause cs, Condition.templates]

theorem Condition.template_unbind (d : Dialect) (clause : Clause) :
    ∀ c : Condition, c.unbind.template d clause = c.template d clause
  | ⟨field, op, operand⟩ => by
    rw [Condition.unbind, Condition.template, field.template_unbind d [],
      operand.template_unbind d clause op, Condition.template]

theorem Operand.template_unbind (d : Dialect) (clause : Clause) (op : Operator) :
    ∀ o : Operand, o.unbind.template d clause op = o.template d clause op
  | .null | .scalar _ | .list _ => by rw [Operand.unbind]
  | .query select => by
    rw [Operand.unbind, Operand.template, select.template_unbind d, Operand.template]
  | .fragment f => by rw [Operand.unbind, Operand.template, f.template_unbind d, Operand.template]

theorem Expr.template_unbind (d : Dialect) (bare : List String) :
    ∀ e : Expr, e.unbind.template d bare = e.template d bare
  | .names _ => by rw [Expr.unbind]
  | .fragment f => by rw [Expr.unbind, Expr.template, f.template_unbind d, Expr.template]

theorem Call.template_unbind (d : Dialect) : ∀ c : Call, c.unbind.template d = c.template d
  | ⟨_, arguments⟩ => by
    rw [Call.unbind, Call.template, Argument.templates_unbind d arguments, Call.template]

theorem Argument.templates_unbind (d : Dialect) :
    ∀ as : List Argument, Argument.templates d (Argument.unbindAll as) = Argument.templates d as
  | [] => by rw [Argument.unbindAll]
  | a :: as => by
    rw [Argument.unbindAll, Argument.templates, a.template_unbind d,
      Argument.templates_unbind d as, Argument.templates]

theorem Argument.template_unbind (d : Dialect) :
    ∀ a : Argument, a.unbind.template d = a.template d
  | .names _ | .value _ => by rw [Argument.unbind]
  | .fragment f => by
    rw [Argument.unbind, Argument.template, f.template_unbind d, Argument.template]

theorem Fragment.template_unbind (d : Dialect) :
    ∀ f : Fragment, f.unbind.template d = f.template d
  | .raw _ => by rw [Fragment.unbind]
  | .call c => by rw [Fragment.unbind, Fragment.template, c.template_unbind d, Fragment.template]
  | .filter c => by rw [Fragment.unbind, Fragment.template, c.template_unbind d, Fragment.template]
  | .having c => by rw [Fragment.unbind, Fragment.template, c.template_unbind d, Fragment.template]
  | .join j => by rw [Fragment.unbind, Fragment.template, j.template_unbind d, Fragment.template]
  | .query select => by
    rw [Fragment.unbind, Fragment.template, select.template_unbind d, Fragment.template]

theorem Branch.templates_unbind (d : Dialect) (width : Nat) : ∀ bs : List Branch,
    Branch.templates d width (Branch.unbindAll bs) = Branch.templates d width bs
  | [] => by rw [Branch.unbindAll]
  | ⟨_, select⟩ :: bs => by
    rw [Branch.unbindAll, Branch.templates, select.columnCount_unbind, select.template_unbind d,
      Branch.templates_unbind d width bs, Branch.templates]

end

section
variable (d : Dialect)

/-- A select is written for `d`, whatever it is bound to. -/
theorem Select.template_with_dialect (s : Select) (o : Option Dialect) :
    ({ s with dialect := o } : Select).template d = s.template d := by
  obtain ⟨_, _ | _, _⟩ := s
  · rw [Select.template, Select.template]
  · rw [Select.template, Select.template]

theorem FieldValue.template_unbind (clause : Clause) (v : FieldValue) :
    v.unbind.template d clause = v.template d clause := by
  cases v with
  | value v => rfl
  | fragment f => exact f.template_unbind d

theorem Rows.template_unbind (r : Rows) : r.unbind.template d = r.template d := by
  cases r with
  | values vs =>
    simp only [Rows.unbind, Rows.template, List.map_map, Function.comp_def,
      FieldValue.template_unbind]
  | query select => rw [Rows.unbind, Rows.template, select.template_unbind d, Rows.template]

theorem Update.assignmentTemplate_unbind (p : String × FieldValue) :
    Update.assignmentTemplate d (p.1, p.2.unbind) = Update.assignmentTemplate d p := by
  rw [Update.assignmentTemplate, p.2.template_unbind d, Update.assignmentTemplate]

/-- Taking off the nested dialects leaves the template as it is. -/
theorem Statement.template_unbindNested (s : Statement) :
    s.unbindNested.template d = s.template d := by
  cases s with
  | select s =>
    simp only [unbindNested, template, Select.template_with_dialect, s.template_unbind d]
  | insert i =>
    simp only [unbindNested, template, Insert.template, i.rows.template_unbind d]
  | update u =>
    simp only [unbindNested, template, Update.template, List.isEmpty_map, List.map_map,
      Function.comp_def, Update.assignmentTemplate_unbind,
      Condition.templates_unbind d .filter u.filters]
  | delete x =>
    simp only [unbindNested, template, Delete.template,
      Condition.templates_unbind d .filter x.filters]

end

/-! ## Main result -/

namespace Statement

theorem compile_unbindNested (s : Statement) : s.unbindNested.compile = s.compile := by
  simp only [compile, dialect_unbindNested, render_eq, template_unbindNested]

theorem compileWith_unbindNested (s : Statement) (ps : Parameters) (reset : Bool) :
    s.unbindNested.compileWith ps reset = s.compileWith ps reset := by
  simp only [compileWith, dialect_unbindNested, render_eq, template_unbindNested]

/-- Statements that differ only in the dialects of the selects nested in them compile to the same,
in both ways and into any parameters. -/
theorem compile_eq_of_unbindNested_eq {s s' : Statement} (h : s.unbindNested = s'.unbindNested) :
    s.compile = s'.compile ∧
      ∀ (ps : Parameters) (reset : Bool), s.compileWith ps reset = s'.compileWith ps reset := by
  refine ⟨?_, fun ps reset => ?_⟩
  · rw [← s.compile_unbindNested, h, s'.compile_unbindNested]
  · rw [← s.compileWith_unbindNested, h, s'.compileWith_unbindNested]

/-- A select with a branch, nested in a condition: bound to two dialects, or to none. -/
theorem compile_eq_of_unbindNested_eq_delete :
    let branch (o : Option Dialect) : Select := { Select.ofTable "b" with dialect := o }
    let nested (o o' : Option Dialect) : Select :=
      { Select.ofTable "a" with dialect := o, branches := [⟨true, branch o'⟩] }
    let s (o o' : Option Dialect) : Statement :=
      delete (Dialect.ansi.delete.fromTable "t" |>.filterEqual (.names "x") (.query (nested o o')))
    (s none none).unbindNested = (s (some .mysql) (some .sqlServer)).unbindNested ∧
      (s none none).compile = (s (some .mysql) (some .sqlServer)).compile ∧
      ∀ (ps : Parameters) (reset : Bool), (s none none).compileWith ps reset =
        (s (some .mysql) (some .sqlServer)).compileWith ps reset :=
  ⟨rfl, compile_eq_of_unbindNested_eq rfl⟩

end Statement

end PortableSql
