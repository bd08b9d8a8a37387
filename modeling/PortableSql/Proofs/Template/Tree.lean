import PortableSql.Proofs.Template.Basic

/-!
# Templates of selects and fragments

Every select and fragment has a template, and rendering it is rendering the template
(`Select.render_eq`, `Fragment.render_eq`): no part binds a value out of the order of the text,
binds one without writing it, or writes one without binding it. The proof follows the tree, with one
case for each kind of node.
-/

namespace PortableSql

open Template (empty text value fail)

/-- A value on the right of an operator; a single one after `IN` is a list. -/
def Operator.scalarTemplate (op : Operator) (t : Template) : Template :=
  if op = oneOf ∨ op = notOneOf then t.parenthesized else t

mutual

def Select.template (d : Dialect) : Select → Template
  | ⟨_, none, _, _, _, _, _, _, _, _, _, _⟩ => fail .missingSource
  | ⟨_, some source, distinct, columns, joins, filters, groups, havings, order, limit, offset,
      branches⟩ =>
    text (Select.headText distinct) ++ Template.columns (Column.templates d columns) ++
      text " FROM " ++ source.template d ++ Template.concat (Join.templates d joins) ++
      Template.clause "WHERE" (Condition.templates d .filter filters) ++
      text (Select.groupText d groups) ++
      Template.clause "HAVING" (Condition.templates d .having havings) ++
      text (Select.orderText d order) ++ text (Select.limitText limit offset) ++
      Template.concat (Branch.templates d (Column.count columns) branches)

def Source.template (d : Dialect) : Source → Template
  | .table name asName => text (d.quoteExpression [] name) ++ text (aliasText d asName)
  | .query select asName => (select.template d).parenthesized ++ text (aliasText d (some asName))

def Column.templates (d : Dialect) : List Column → List Template
  | [] => []
  | c :: cs => c.template d :: Column.templates d cs

def Column.template (d : Dialect) : Column → Template
  | ⟨.names s, asName⟩ => text (d.quoteExpression [] s) ++ text (aliasText d asName)
  | ⟨.fragment f, asName⟩ => f.template d ++ text (aliasText d asName)
  | ⟨.query _, none⟩ => fail (.missingAlias .column)
  | ⟨.query select, some asName⟩ =>
    (select.template d).parenthesized ++ text (aliasText d (some asName))

def Join.templates (d : Dialect) : List Join → List Template
  | [] => []
  | j :: js => (text " " ++ j.template d) :: Join.templates d js

def Join.template (d : Dialect) : Join → Template
  | ⟨kind, target, asName, conditions⟩ =>
    text (kind.text ++ " JOIN ") ++ target.template d asName ++ text (aliasText d asName) ++
      Template.clause "ON" (if kind = .cross then [] else Expr.templates d conditions)

def JoinTarget.template (d : Dialect) : JoinTarget → Option String → Template
  | .table name, _ => text (d.quoteExpression [] name)
  | .query _, none => fail (.missingAlias .join)
  | .query select, some _ => (select.template d).parenthesized

/-- The conditions of a join. -/
def Expr.templates (d : Dialect) : List Expr → List Template
  | [] => []
  | e :: es => e.template d ["="] :: Expr.templates d es

def Condition.templates (d : Dialect) (clause : Clause) : List Condition → List Template
  | [] => []
  | c :: cs => c.template d clause :: Condition.templates d clause cs

def Condition.template (d : Dialect) (clause : Clause) : Condition → Template
  | ⟨field, op, operand⟩ =>
    field.template d [] ++ text (" " ++ op.text ++ " ") ++ operand.template d clause op

def Operand.template (d : Dialect) (clause : Clause) (op : Operator) : Operand → Template
  | .null => text "NULL"
  | .scalar v => op.scalarTemplate (value clause v)
  | .list vs => (Template.separated ", " (vs.map (value clause))).parenthesized
  | .query select => (select.template d).parenthesized
  | .fragment f => f.template d

/-- An expression whose `bare` words are not quoted. -/
def Expr.template (d : Dialect) (bare : List String) : Expr → Template
  | .names s => text (d.quoteExpression bare s)
  | .fragment f => f.template d

def Call.template (d : Dialect) : Call → Template
  | ⟨name, arguments⟩ =>
    text name ++ (Template.separated ", " (Argument.templates d arguments)).parenthesized

def Argument.templates (d : Dialect) : List Argument → List Template
  | [] => []
  | a :: as => a.template d :: Argument.templates d as

def Argument.template (d : Dialect) : Argument → Template
  | .names s => text (d.quoteExpression Call.bareWords s)
  | .value v => value .function v
  | .fragment f => f.template d

def Fragment.template (d : Dialect) : Fragment → Template
  | .raw sql => text sql
  | .call c => c.template d
  | .filter c => c.template d .filter
  | .having c => c.template d .having
  | .join j => j.template d
  | .query select => (select.template d).parenthesized

/-- The selects combined with one of `width` columns. -/
def Branch.templates (d : Dialect) (width : Nat) : List Branch → List Template
  | [] => []
  | ⟨all, select⟩ :: bs =>
    (if width = select.columnCount then text (Branch.joiner all) ++ select.template d
      else fail (.columnCount width select.columnCount)) :: Branch.templates d width bs

end

/-! ## Agreement -/

theorem Operator.render_scalarTemplate (d : Dialect) (op : Operator) (t : Template) :
    (op.scalarTemplate t).render d = (do return op.scalarText (← t.render d)) := by
  unfold scalarTemplate scalarText
  split
  · rw [Template.render_parenthesized]
  · rw [bind_pure]

theorem Template.mapM_render_map_value (d : Dialect) (clause : Clause) (vs : List Value) :
    (vs.map (value clause)).mapM (render d) = vs.mapM (Render.value d clause.label) := by
  rw [List.mapM_map]
  simp only [Function.comp_def, render_value]

mutual

theorem Select.render_eq (d : Dialect) : ∀ s : Select, s.render d = (s.template d).render d
  | ⟨_, none, _, _, _, _, _, _, _, _, _, _⟩ => by
    rw [Select.render, Select.template, Template.render_fail]
  | ⟨_, some source, _, columns, joins, filters, _, havings, _, _, _, branches⟩ => by
    simp only [Select.render, Select.template, Column.renderAll_eq d columns, source.render_eq d,
      Join.renderAll_eq d joins, Condition.renderAll_eq d .filter filters,
      Condition.renderAll_eq d .having havings, Branch.renderAll_eq d _ branches,
      Template.render_append, Template.render_text, Template.render_columns,
      Template.render_concat, Template.render_clause, bind_assoc, pure_bind]

theorem Source.render_eq (d : Dialect) : ∀ s : Source, s.render d = (s.template d).render d
  | .table _ _ => by
    simp only [Source.render, Source.template, Template.render_append, Template.render_text,
      pure_bind]
  | .query select _ => by
    simp only [Source.render, Source.template, select.render_eq d, Template.render_append,
      Template.render_parenthesized, Template.render_text, bind_assoc, pure_bind]

theorem Column.renderAll_eq (d : Dialect) :
    ∀ cs : List Column, Column.renderAll d cs = (Column.templates d cs).mapM (Template.render d)
  | [] => rfl
  | c :: cs => by
    simp only [Column.renderAll, Column.templates, List.mapM_cons, c.render_eq d,
      Column.renderAll_eq d cs]

theorem Column.render_eq (d : Dialect) : ∀ c : Column, c.render d = (c.template d).render d
  | ⟨.names _, _⟩ => by
    simp only [Column.render, Column.template, Template.render_append, Template.render_text,
      pure_bind]
  | ⟨.fragment f, _⟩ => by
    simp only [Column.render, Column.template, f.render_eq d, Template.render_append,
      Template.render_text, pure_bind]
  | ⟨.query _, none⟩ => by rw [Column.render, Column.template, Template.render_fail]
  | ⟨.query select, some _⟩ => by
    simp only [Column.render, Column.template, select.render_eq d, Template.render_append,
      Template.render_parenthesized, Template.render_text, bind_assoc, pure_bind]

theorem Join.renderAll_eq (d : Dialect) :
    ∀ js : List Join, Join.renderAll d js = (Join.templates d js).mapM (Template.render d)
  | [] => rfl
  | j :: js => by
    simp only [Join.renderAll, Join.templates, List.mapM_cons, j.render_eq d,
      Join.renderAll_eq d js, Template.render_append, Template.render_text, bind_assoc, pure_bind]

theorem Join.render_eq (d : Dialect) : ∀ j : Join, j.render d = (j.template d).render d
  | ⟨kind, target, asName, conditions⟩ => by
    by_cases hk : kind = .cross
    · simp only [Join.render, Join.template, target.render_eq d asName, hk, ↓reduceIte,
        Template.render_append, Template.render_text, Template.render_clause, List.mapM_nil,
        bind_assoc, pure_bind]
    · simp only [Join.render, Join.template, target.render_eq d asName, hk, ↓reduceIte,
        Expr.renderAll_eq d conditions, Template.render_append, Template.render_text,
        Template.render_clause, bind_assoc, pure_bind]

theorem JoinTarget.render_eq (d : Dialect) :
    ∀ (t : JoinTarget) (asName : Option String), t.render d asName = (t.template d asName).render d
  | .table _, _ => by rw [JoinTarget.render, JoinTarget.template, Template.render_text]
  | .query _, none => by rw [JoinTarget.render, JoinTarget.template, Template.render_fail]
  | .query select, some _ => by
    rw [JoinTarget.render, JoinTarget.template, select.render_eq d, Template.render_parenthesized]

theorem Expr.renderAll_eq (d : Dialect) :
    ∀ es : List Expr, Expr.renderAll d es = (Expr.templates d es).mapM (Template.render d)
  | [] => rfl
  | e :: es => by
    simp only [Expr.renderAll, Expr.templates, List.mapM_cons, e.render_eq d,
      Expr.renderAll_eq d es]

theorem Condition.renderAll_eq (d : Dialect) (clause : Clause) : ∀ cs : List Condition,
    Condition.renderAll d clause cs = (Condition.templates d clause cs).mapM (Template.render d)
  | [] => rfl
  | c :: cs => by
    simp only [Condition.renderAll, Condition.templates, List.mapM_cons, c.render_eq d clause,
      Condition.renderAll_eq d clause cs]

theorem Condition.render_eq (d : Dialect) (clause : Clause) :
    ∀ c : Condition, c.render d clause = (c.template d clause).render d
  | ⟨field, op, operand⟩ => by
    simp only [Condition.render, Condition.template, field.render_eq d [],
      operand.render_eq d clause op, Template.render_append, Template.render_text, bind_assoc,
      pure_bind, String.append_assoc]

theorem Operand.render_eq (d : Dialect) (clause : Clause) (op : Operator) :
    ∀ o : Operand, o.render d clause op = (o.template d clause op).render d
  | .null => by rw [Operand.render, Operand.template, Template.render_text]
  | .scalar v => by
    rw [Operand.render, Operand.template, Operator.render_scalarTemplate, Template.render_value]
  | .list vs => by
    simp only [Operand.render, Operand.template, Template.render_parenthesized,
      Template.render_separated, Template.mapM_render_map_value, bind_assoc, pure_bind]
  | .query select => by
    rw [Operand.render, Operand.template, select.render_eq d, Template.render_parenthesized]
  | .fragment f => by rw [Operand.render, Operand.template, f.render_eq d]

theorem Expr.render_eq (d : Dialect) (bare : List String) :
    ∀ e : Expr, e.render d bare = (e.template d bare).render d
  | .names _ => by rw [Expr.render, Expr.template, Template.render_text]
  | .fragment f => by rw [Expr.render, Expr.template, f.render_eq d]

theorem Call.render_eq (d : Dialect) : ∀ c : Call, c.render d = (c.template d).render d
  | ⟨_, arguments⟩ => by
    simp only [Call.render, Call.template, Argument.renderAll_eq d arguments,
      Template.render_append, Template.render_text, Template.render_parenthesized,
      Template.render_separated, bind_assoc, pure_bind]

theorem Argument.renderAll_eq (d : Dialect) : ∀ as : List Argument,
    Argument.renderAll d as = (Argument.templates d as).mapM (Template.render d)
  | [] => rfl
  | a :: as => by
    simp only [Argument.renderAll, Argument.templates, List.mapM_cons, a.render_eq d,
      Argument.renderAll_eq d as]

theorem Argument.render_eq (d : Dialect) : ∀ a : Argument, a.render d = (a.template d).render d
  | .names _ => by rw [Argument.render, Argument.template, Template.render_text]
  | .value _ => by rw [Argument.render, Argument.template, Template.render_value]
  | .fragment f => by rw [Argument.render, Argument.template, f.render_eq d]

theorem Fragment.render_eq (d : Dialect) : ∀ f : Fragment, f.render d = (f.template d).render d
  | .raw _ => by rw [Fragment.render, Fragment.template, Template.render_text]
  | .call c => by rw [Fragment.render, Fragment.template, c.render_eq d]
  | .filter c => by rw [Fragment.render, Fragment.template, c.render_eq d]
  | .having c => by rw [Fragment.render, Fragment.template, c.render_eq d]
  | .join j => by rw [Fragment.render, Fragment.template, j.render_eq d]
  | .query select => by
    rw [Fragment.render, Fragment.template, select.render_eq d, Template.render_parenthesized]

theorem Branch.renderAll_eq (d : Dialect) (width : Nat) : ∀ bs : List Branch,
    Branch.renderAll d width bs = (Branch.templates d width bs).mapM (Template.render d)
  | [] => rfl
  | ⟨all, select⟩ :: bs => by
    rw [Branch.renderAll, Branch.templates, List.mapM_cons]
    split
    · simp only [select.render_eq d, Branch.renderAll_eq d width bs, Template.render_append,
        Template.render_text, bind_assoc, pure_bind]
    · rw [Template.render_fail, Render.throw_bind]

end

end PortableSql
