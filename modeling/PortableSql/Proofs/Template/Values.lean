import PortableSql.Proofs.Template.Statement

/-!
# Values in statements and templates

`Statement.mapValues` changes the values at their places in a statement and nothing else. The
template then changes in the same way (`Statement.template_mapValues`): its texts, and whether it
breaks off, do not depend on the values.
-/

namespace PortableSql

mutual

def Select.mapValues (f : Value → Value) : Select → Select
  | ⟨dialect, source, distinct, columns, joins, filters, groups, havings, order, limit, offset,
      branches⟩ =>
    ⟨dialect, Source.mapValues? f source, distinct, Column.mapValuesAll f columns,
      Join.mapValuesAll f joins, Condition.mapValuesAll f filters, groups,
      Condition.mapValuesAll f havings, order, limit, offset, Branch.mapValuesAll f branches⟩

def Source.mapValues? (f : Value → Value) : Option Source → Option Source
  | none => none
  | some s => some (s.mapValues f)

def Source.mapValues (f : Value → Value) : Source → Source
  | .table name asName => .table name asName
  | .query select asName => .query (select.mapValues f) asName

def Column.mapValuesAll (f : Value → Value) : List Column → List Column
  | [] => []
  | c :: cs => c.mapValues f :: Column.mapValuesAll f cs

def Column.mapValues (f : Value → Value) : Column → Column
  | ⟨.names s, asName⟩ => ⟨.names s, asName⟩
  | ⟨.fragment g, asName⟩ => ⟨.fragment (g.mapValues f), asName⟩
  | ⟨.query select, asName⟩ => ⟨.query (select.mapValues f), asName⟩

def Join.mapValuesAll (f : Value → Value) : List Join → List Join
  | [] => []
  | j :: js => j.mapValues f :: Join.mapValuesAll f js

def Join.mapValues (f : Value → Value) : Join → Join
  | ⟨kind, target, asName, conditions⟩ =>
    ⟨kind, target.mapValues f, asName, Expr.mapValuesAll f conditions⟩

def JoinTarget.mapValues (f : Value → Value) : JoinTarget → JoinTarget
  | .table name => .table name
  | .query select => .query (select.mapValues f)

def Expr.mapValuesAll (f : Value → Value) : List Expr → List Expr
  | [] => []
  | e :: es => e.mapValues f :: Expr.mapValuesAll f es

def Condition.mapValuesAll (f : Value → Value) : List Condition → List Condition
  | [] => []
  | c :: cs => c.mapValues f :: Condition.mapValuesAll f cs

def Condition.mapValues (f : Value → Value) : Condition → Condition
  | ⟨field, op, operand⟩ => ⟨field.mapValues f, op, operand.mapValues f⟩

/-- No operand at all is not the null value, and a list keeps its length. -/
def Operand.mapValues (f : Value → Value) : Operand → Operand
  | .null => .null
  | .scalar v => .scalar (f v)
  | .list vs => .list (vs.map f)
  | .query select => .query (select.mapValues f)
  | .fragment g => .fragment (g.mapValues f)

def Expr.mapValues (f : Value → Value) : Expr → Expr
  | .names s => .names s
  | .fragment g => .fragment (g.mapValues f)

def Call.mapValues (f : Value → Value) : Call → Call
  | ⟨name, arguments⟩ => ⟨name, Argument.mapValuesAll f arguments⟩

def Argument.mapValuesAll (f : Value → Value) : List Argument → List Argument
  | [] => []
  | a :: as => a.mapValues f :: Argument.mapValuesAll f as

def Argument.mapValues (f : Value → Value) : Argument → Argument
  | .names s => .names s
  | .value v => .value (f v)
  | .fragment g => .fragment (g.mapValues f)

def Fragment.mapValues (f : Value → Value) : Fragment → Fragment
  | .raw sql => .raw sql
  | .call c => .call (c.mapValues f)
  | .filter c => .filter (c.mapValues f)
  | .having c => .having (c.mapValues f)
  | .join j => .join (j.mapValues f)
  | .query select => .query (select.mapValues f)

def Branch.mapValuesAll (f : Value → Value) : List Branch → List Branch
  | [] => []
  | ⟨all, select⟩ :: bs => ⟨all, select.mapValues f⟩ :: Branch.mapValuesAll f bs

end

def FieldValue.mapValues (f : Value → Value) : FieldValue → FieldValue
  | value v => value (f v)
  | fragment g => fragment (g.mapValues f)

def Rows.mapValues (f : Value → Value) : Rows → Rows
  | values vs => values (vs.map (FieldValue.mapValues f))
  | query select => query (select.mapValues f)

def Insert.mapValues (f : Value → Value) (i : Insert) : Insert :=
  { i with rows := i.rows.mapValues f }

def Update.mapValues (f : Value → Value) (u : Update) : Update :=
  { u with
    assignments := u.assignments.map fun p => (p.1, p.2.mapValues f)
    filters := Condition.mapValuesAll f u.filters }

def Delete.mapValues (f : Value → Value) (x : Delete) : Delete :=
  { x with filters := Condition.mapValuesAll f x.filters }

def Statement.mapValues (f : Value → Value) : Statement → Statement
  | select s => select (s.mapValues f)
  | insert i => insert (i.mapValues f)
  | update u => update (u.mapValues f)
  | delete x => delete (x.mapValues f)

theorem Statement.dialect_mapValues (f : Value → Value) (s : Statement) :
    (s.mapValues f).dialect = s.dialect := by
  cases s with
  | select s =>
    cases s
    rfl
  | insert i => rfl
  | update u => rfl
  | delete x => rfl

/-! ## Templates -/

def Piece.mapValue (f : Value → Value) : Piece → Piece
  | text s => text s
  | value clause v => value clause (f v)

namespace Template

def mapValues (f : Value → Value) (t : Template) : Template :=
  ⟨t.pieces.map (Piece.mapValue f), t.failure⟩

section
variable (f : Value → Value)

theorem mapValues_text (s : String) : (text s).mapValues f = text s := rfl

theorem mapValues_value (clause : Clause) (v : Value) :
    (value clause v).mapValues f = value clause (f v) := rfl

theorem mapValues_fail (e : Error) : (fail e).mapValues f = fail e := rfl

theorem mapValues_append (s t : Template) :
    (s ++ t).mapValues f = s.mapValues f ++ t.mapValues f := by
  cases h : s.failure with
  | some e =>
    have h' : (s.mapValues f).failure = some e := h
    rw [append_of_failure h, append_of_failure h']
  | none =>
    have h' : (s.mapValues f).failure = none := h
    rw [append_of_success h, append_of_success h']
    simp only [mapValues, List.map_append]

theorem mapValues_concat (ts : List Template) :
    (concat ts).mapValues f = concat (ts.map (mapValues f)) := by
  induction ts with
  | nil => rfl
  | cons t ts ih => rw [concat, mapValues_append, ih, List.map_cons, concat]

theorem mapValues_separated (sep : String) (ts : List Template) :
    (separated sep ts).mapValues f = separated sep (ts.map (mapValues f)) := by
  fun_induction separated sep ts with
  | case1 => rfl
  | case2 t => rfl
  | case3 t u ts ih =>
    simp only [mapValues_append, mapValues_text, ih, List.map_cons, separated]

theorem mapValues_parenthesized (t : Template) :
    t.parenthesized.mapValues f = (t.mapValues f).parenthesized := by
  rw [parenthesized, mapValues_append, mapValues_append, mapValues_text, mapValues_text,
    parenthesized]

theorem mapValues_clause (keyword : String) (ts : List Template) :
    (clause keyword ts).mapValues f = clause keyword (ts.map (mapValues f)) := by
  cases ts with
  | nil => rfl
  | cons t ts =>
    simp only [clause, List.isEmpty_cons, List.map_cons, Bool.false_eq_true, ↓reduceIte,
      mapValues_append, mapValues_text, mapValues_separated]

theorem mapValues_columns (ts : List Template) :
    (columns ts).mapValues f = columns (ts.map (mapValues f)) := by
  cases ts with
  | nil => rfl
  | cons t ts =>
    simp only [columns, List.isEmpty_cons, List.map_cons, Bool.false_eq_true, ↓reduceIte,
      mapValues_separated]

end

end Template

section
variable (f : Value → Value)

theorem Column.length_mapValuesAll (cs : List Column) :
    (Column.mapValuesAll f cs).length = cs.length := by
  induction cs with
  | nil => rfl
  | cons c cs ih => rw [Column.mapValuesAll, List.length_cons, ih, List.length_cons]

theorem Select.columnCount_mapValues (s : Select) :
    (s.mapValues f).columnCount = s.columnCount := by
  cases s
  rw [Select.mapValues]
  simp only [columnCount, Column.count, Column.length_mapValuesAll]

theorem Operator.mapValues_scalarTemplate (op : Operator) (t : Template) :
    (op.scalarTemplate t).mapValues f = op.scalarTemplate (t.mapValues f) := by
  unfold scalarTemplate
  split
  · exact t.mapValues_parenthesized f
  · rfl

end

open Template

mutual

theorem Select.template_mapValues (d : Dialect) (f : Value → Value) :
    ∀ s : Select, (s.mapValues f).template d = (s.template d).mapValues f
  | ⟨_, none, _, _, _, _, _, _, _, _, _, _⟩ => by
    simp only [Select.mapValues, Source.mapValues?, Select.template, mapValues_fail]
  | ⟨_, some source, _, columns, joins, filters, _, havings, _, _, _, branches⟩ => by
    simp only [Select.mapValues, Source.mapValues?, Select.template, mapValues_append,
      mapValues_text, mapValues_columns, mapValues_concat, mapValues_clause, Column.count,
      Column.length_mapValuesAll, Column.templates_mapValues d f columns,
      source.template_mapValues d f, Join.templates_mapValues d f joins,
      Condition.templates_mapValues d f .filter filters,
      Condition.templates_mapValues d f .having havings, Branch.templates_mapValues d f _ branches]

theorem Source.template_mapValues (d : Dialect) (f : Value → Value) :
    ∀ s : Source, (s.mapValues f).template d = (s.template d).mapValues f
  | .table _ _ => by
    simp only [Source.mapValues, Source.template, mapValues_append, mapValues_text]
  | .query select _ => by
    simp only [Source.mapValues, Source.template, mapValues_append, mapValues_text,
      mapValues_parenthesized, select.template_mapValues d f]

theorem Column.templates_mapValues (d : Dialect) (f : Value → Value) : ∀ cs : List Column,
    Column.templates d (Column.mapValuesAll f cs) = (Column.templates d cs).map (mapValues f)
  | [] => rfl
  | c :: cs => by
    simp only [Column.mapValuesAll, Column.templates, List.map_cons, c.template_mapValues d f,
      Column.templates_mapValues d f cs]

theorem Column.template_mapValues (d : Dialect) (f : Value → Value) :
    ∀ c : Column, (c.mapValues f).template d = (c.template d).mapValues f
  | ⟨.names _, _⟩ => by
    simp only [Column.mapValues, Column.template, mapValues_append, mapValues_text]
  | ⟨.fragment g, _⟩ => by
    simp only [Column.mapValues, Column.template, mapValues_append, mapValues_text,
      g.template_mapValues d f]
  | ⟨.query _, none⟩ => by simp only [Column.mapValues, Column.template, mapValues_fail]
  | ⟨.query select, some _⟩ => by
    simp only [Column.mapValues, Column.template, mapValues_append, mapValues_text,
      mapValues_parenthesized, select.template_mapValues d f]

theorem Join.templates_mapValues (d : Dialect) (f : Value → Value) : ∀ js : List Join,
    Join.templates d (Join.mapValuesAll f js) = (Join.templates d js).map (mapValues f)
  | [] => rfl
  | j :: js => by
    simp only [Join.mapValuesAll, Join.templates, List.map_cons, mapValues_append, mapValues_text,
      j.template_mapValues d f, Join.templates_mapValues d f js]

theorem Join.template_mapValues (d : Dialect) (f : Value → Value) :
    ∀ j : Join, (j.mapValues f).template d = (j.template d).mapValues f
  | ⟨kind, target, asName, conditions⟩ => by
    have hconditions :
        (if kind = .cross then [] else Expr.templates d (Expr.mapValuesAll f conditions)) =
          (if kind = .cross then [] else Expr.templates d conditions).map (mapValues f) := by
      split
      · rfl
      · exact Expr.templates_mapValues d f conditions
    simp only [Join.mapValues, Join.template, mapValues_append, mapValues_text, mapValues_clause,
      target.template_mapValues d f asName, hconditions]

theorem JoinTarget.template_mapValues (d : Dialect) (f : Value → Value) :
    ∀ (t : JoinTarget) (asName : Option String),
      (t.mapValues f).template d asName = (t.template d asName).mapValues f
  | .table _, _ => by simp only [JoinTarget.mapValues, JoinTarget.template, mapValues_text]
  | .query _, none => by simp only [JoinTarget.mapValues, JoinTarget.template, mapValues_fail]
  | .query select, some _ => by
    simp only [JoinTarget.mapValues, JoinTarget.template, mapValues_parenthesized,
      select.template_mapValues d f]

theorem Expr.templates_mapValues (d : Dialect) (f : Value → Value) : ∀ es : List Expr,
    Expr.templates d (Expr.mapValuesAll f es) = (Expr.templates d es).map (mapValues f)
  | [] => rfl
  | e :: es => by
    simp only [Expr.mapValuesAll, Expr.templates, List.map_cons, e.template_mapValues d f,
      Expr.templates_mapValues d f es]

theorem Condition.templates_mapValues (d : Dialect) (f : Value → Value) (clause : Clause) :
    ∀ cs : List Condition, Condition.templates d clause (Condition.mapValuesAll f cs) =
      (Condition.templates d clause cs).map (mapValues f)
  | [] => rfl
  | c :: cs => by
    simp only [Condition.mapValuesAll, Condition.templates, List.map_cons,
      c.template_mapValues d f clause, Condition.templates_mapValues d f clause cs]

theorem Condition.template_mapValues (d : Dialect) (f : Value → Value) (clause : Clause) :
    ∀ c : Condition, (c.mapValues f).template d clause = (c.template d clause).mapValues f
  | ⟨field, op, operand⟩ => by
    simp only [Condition.mapValues, Condition.template, mapValues_append, mapValues_text,
      field.template_mapValues d f [], operand.template_mapValues d f clause op]

theorem Operand.template_mapValues (d : Dialect) (f : Value → Value) (clause : Clause)
    (op : Operator) :
    ∀ o : Operand, (o.mapValues f).template d clause op = (o.template d clause op).mapValues f
  | .null => by simp only [Operand.mapValues, Operand.template, mapValues_text]
  | .scalar _ => by
    simp only [Operand.mapValues, Operand.template, Operator.mapValues_scalarTemplate,
      mapValues_value]
  | .list _ => by
    simp only [Operand.mapValues, Operand.template, mapValues_parenthesized, mapValues_separated,
      List.map_map, Function.comp_def, mapValues_value]
  | .query select => by
    simp only [Operand.mapValues, Operand.template, mapValues_parenthesized,
      select.template_mapValues d f]
  | .fragment g => by
    simp only [Operand.mapValues, Operand.template, g.template_mapValues d f]

theorem Expr.template_mapValues (d : Dialect) (f : Value → Value) (bare : List String) :
    ∀ e : Expr, (e.mapValues f).template d bare = (e.template d bare).mapValues f
  | .names _ => by simp only [Expr.mapValues, Expr.template, mapValues_text]
  | .fragment g => by simp only [Expr.mapValues, Expr.template, g.template_mapValues d f]

theorem Call.template_mapValues (d : Dialect) (f : Value → Value) :
    ∀ c : Call, (c.mapValues f).template d = (c.template d).mapValues f
  | ⟨_, arguments⟩ => by
    simp only [Call.mapValues, Call.template, mapValues_append, mapValues_text,
      mapValues_parenthesized, mapValues_separated, Argument.templates_mapValues d f arguments]

theorem Argument.templates_mapValues (d : Dialect) (f : Value → Value) : ∀ as : List Argument,
    Argument.templates d (Argument.mapValuesAll f as) = (Argument.templates d as).map (mapValues f)
  | [] => rfl
  | a :: as => by
    simp only [Argument.mapValuesAll, Argument.templates, List.map_cons, a.template_mapValues d f,
      Argument.templates_mapValues d f as]

theorem Argument.template_mapValues (d : Dialect) (f : Value → Value) :
    ∀ a : Argument, (a.mapValues f).template d = (a.template d).mapValues f
  | .names _ => by simp only [Argument.mapValues, Argument.template, mapValues_text]
  | .value _ => by simp only [Argument.mapValues, Argument.template, mapValues_value]
  | .fragment g => by simp only [Argument.mapValues, Argument.template, g.template_mapValues d f]

theorem Fragment.template_mapValues (d : Dialect) (f : Value → Value) :
    ∀ g : Fragment, (g.mapValues f).template d = (g.template d).mapValues f
  | .raw _ => by simp only [Fragment.mapValues, Fragment.template, mapValues_text]
  | .call c => by simp only [Fragment.mapValues, Fragment.template, c.template_mapValues d f]
  | .filter c => by simp only [Fragment.mapValues, Fragment.template, c.template_mapValues d f]
  | .having c => by simp only [Fragment.mapValues, Fragment.template, c.template_mapValues d f]
  | .join j => by simp only [Fragment.mapValues, Fragment.template, j.template_mapValues d f]
  | .query select => by
    simp only [Fragment.mapValues, Fragment.template, mapValues_parenthesized,
      select.template_mapValues d f]

theorem Branch.templates_mapValues (d : Dialect) (f : Value → Value) (width : Nat) :
    ∀ bs : List Branch, Branch.templates d width (Branch.mapValuesAll f bs) =
      (Branch.templates d width bs).map (mapValues f)
  | [] => rfl
  | ⟨all, select⟩ :: bs => by
    simp only [Branch.mapValuesAll, Branch.templates, List.map_cons, Select.columnCount_mapValues,
      Branch.templates_mapValues d f width bs]
    split
    · rw [mapValues_append, mapValues_text, select.template_mapValues d f]
    · rw [mapValues_fail]

end

section
variable (d : Dialect) (f : Value → Value)

theorem FieldValue.template_mapValues (clause : Clause) (v : FieldValue) :
    (v.mapValues f).template d clause = (v.template d clause).mapValues f := by
  cases v with
  | value v => rfl
  | fragment g => exact g.template_mapValues d f

theorem Rows.template_mapValues (r : Rows) :
    (r.mapValues f).template d = (r.template d).mapValues f := by
  cases r with
  | values vs =>
    simp only [Rows.mapValues, Rows.template, mapValues_append, mapValues_text,
      mapValues_parenthesized, mapValues_separated, List.map_map, Function.comp_def,
      FieldValue.template_mapValues]
  | query select =>
    simp only [Rows.mapValues, Rows.template, mapValues_append, mapValues_text,
      select.template_mapValues d f]

theorem Insert.template_mapValues : ∀ i : Insert,
    (i.mapValues f).template d = (i.template d).mapValues f
  | ⟨_, none, _, _⟩ => rfl
  | ⟨_, some _, [], _⟩ => rfl
  | ⟨_, some _, _ :: _, rows⟩ => by
    simp only [Insert.mapValues, Insert.template, List.isEmpty_cons, Bool.false_eq_true, ↓reduceIte,
      mapValues_append, mapValues_text, rows.template_mapValues d f]

theorem Update.assignmentTemplate_mapValues (p : String × FieldValue) :
    Update.assignmentTemplate d (p.1, p.2.mapValues f) =
      (Update.assignmentTemplate d p).mapValues f := by
  simp only [Update.assignmentTemplate, mapValues_append, mapValues_text,
    p.2.template_mapValues d f]

theorem Update.template_mapValues : ∀ u : Update,
    (u.mapValues f).template d = (u.template d).mapValues f
  | ⟨_, none, _, _⟩ => rfl
  | ⟨_, some _, [], _⟩ => rfl
  | ⟨_, some _, p :: ps, filters⟩ => by
    simp only [Update.mapValues, Update.template, List.map_cons, List.isEmpty_cons,
      Bool.false_eq_true, ↓reduceIte, mapValues_append, mapValues_text, mapValues_separated,
      mapValues_clause, List.map_map, Function.comp_def, Update.assignmentTemplate_mapValues,
      Condition.templates_mapValues d f .filter filters]

theorem Delete.template_mapValues : ∀ x : Delete,
    (x.mapValues f).template d = (x.template d).mapValues f
  | ⟨_, none, _⟩ => rfl
  | ⟨_, some _, filters⟩ => by
    simp only [Delete.mapValues, Delete.template, mapValues_append, mapValues_text,
      mapValues_clause, Condition.templates_mapValues d f .filter filters]

theorem Statement.template_mapValues (s : Statement) :
    (s.mapValues f).template d = (s.template d).mapValues f := by
  cases s with
  | select s => exact s.template_mapValues d f
  | insert i => exact i.template_mapValues d f
  | update u => exact u.template_mapValues d f
  | delete x => exact x.template_mapValues d f

end

end PortableSql
