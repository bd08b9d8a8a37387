import PortableSql.Proofs.Failure
import PortableSql.Proofs.Template.Writing

/-!
# Complete statements

A statement is complete when all that is rendered of it is there: a source for every select, an
alias for every nested select that is a column or joined, as many columns in a branch as in the
select it belongs to, a table, and fields to write. The conditions of a cross join are never
rendered and need not be complete. A template breaks off exactly where something is missing
(`Statement.succeeds_template`), so a statement that is bound to a dialect compiles exactly when it
is complete (`Statement.outcome_template`).
-/

namespace PortableSql

mutual

/-- Branches are counted against the columns of this select, whatever was added to it after them. -/
def Select.isComplete : Select → Bool
  | ⟨_, none, _, _, _, _, _, _, _, _, _, _⟩ => false
  | ⟨_, some source, _, columns, joins, filters, _, havings, _, _, _, branches⟩ =>
    source.isComplete && Column.allComplete columns && Join.allComplete joins &&
      Condition.allComplete filters && Condition.allComplete havings &&
      Branch.allComplete (Column.count columns) branches

def Source.isComplete : Source → Bool
  | .table _ _ => true
  | .query select _ => select.isComplete

def Column.allComplete : List Column → Bool
  | [] => true
  | c :: cs => c.isComplete && Column.allComplete cs

def Column.isComplete : Column → Bool
  | ⟨.names _, _⟩ => true
  | ⟨.fragment f, _⟩ => f.isComplete
  | ⟨.query select, asName⟩ => asName.isSome && select.isComplete

def Join.allComplete : List Join → Bool
  | [] => true
  | j :: js => j.isComplete && Join.allComplete js

def Join.isComplete : Join → Bool
  | ⟨kind, target, asName, conditions⟩ =>
    target.isComplete asName && (kind == .cross || Expr.allComplete conditions)

def JoinTarget.isComplete : JoinTarget → Option String → Bool
  | .table _, _ => true
  | .query select, asName => asName.isSome && select.isComplete

def Expr.allComplete : List Expr → Bool
  | [] => true
  | e :: es => e.isComplete && Expr.allComplete es

def Condition.allComplete : List Condition → Bool
  | [] => true
  | c :: cs => c.isComplete && Condition.allComplete cs

def Condition.isComplete : Condition → Bool
  | ⟨field, _, operand⟩ => field.isComplete && operand.isComplete

def Operand.isComplete : Operand → Bool
  | .null | .scalar _ | .list _ => true
  | .query select => select.isComplete
  | .fragment f => f.isComplete

def Expr.isComplete : Expr → Bool
  | .names _ => true
  | .fragment f => f.isComplete

def Call.isComplete : Call → Bool
  | ⟨_, arguments⟩ => Argument.allComplete arguments

def Argument.allComplete : List Argument → Bool
  | [] => true
  | a :: as => a.isComplete && Argument.allComplete as

def Argument.isComplete : Argument → Bool
  | .names _ | .value _ => true
  | .fragment f => f.isComplete

def Fragment.isComplete : Fragment → Bool
  | .raw _ => true
  | .call c => c.isComplete
  | .filter c => c.isComplete
  | .having c => c.isComplete
  | .join j => j.isComplete
  | .query select => select.isComplete

def Branch.allComplete (width : Nat) : List Branch → Bool
  | [] => true
  | ⟨_, select⟩ :: bs =>
    width == select.columnCount && select.isComplete && Branch.allComplete width bs

end

def FieldValue.isComplete : FieldValue → Bool
  | value _ => true
  | fragment f => f.isComplete

def Rows.isComplete : Rows → Bool
  | values vs => vs.all FieldValue.isComplete
  | query select => select.isComplete

def Insert.isComplete (i : Insert) : Bool :=
  i.table.isSome && !i.fields.isEmpty && i.rows.isComplete

def Update.isComplete (u : Update) : Bool :=
  u.table.isSome && !u.assignments.isEmpty && (u.assignments.all fun p => p.2.isComplete) &&
    Condition.allComplete u.filters

def Delete.isComplete (x : Delete) : Bool := x.table.isSome && Condition.allComplete x.filters

def Statement.isComplete : Statement → Bool
  | select s => s.isComplete
  | insert i => i.isComplete
  | update u => u.isComplete
  | delete x => x.isComplete

/-! ## Templates that do not break off -/

namespace Template

def succeeds (t : Template) : Bool := t.failure.isNone

section
variable (s t : Template) (ts : List Template)

@[simp] theorem succeeds_empty : empty.succeeds = true := rfl

@[simp] theorem succeeds_text (x : String) : (text x).succeeds = true := rfl

@[simp] theorem succeeds_value (clause : Clause) (v : Value) : (value clause v).succeeds = true :=
  rfl

@[simp] theorem succeeds_fail (e : Error) : (fail e).succeeds = false := rfl

@[simp] theorem succeeds_append : (s ++ t).succeeds = (s.succeeds && t.succeeds) := by
  rw [succeeds, failure_append, succeeds, succeeds]
  cases s.failure <;> simp

@[simp] theorem succeeds_concat : (concat ts).succeeds = ts.all succeeds := by
  induction ts with
  | nil => rfl
  | cons t ts ih => rw [concat, succeeds_append, ih, List.all_cons]

@[simp] theorem succeeds_separated (sep : String) :
    (separated sep ts).succeeds = ts.all succeeds := by
  fun_induction separated sep ts with
  | case1 => rfl
  | case2 t => simp
  | case3 t u ts ih => simp [ih]

@[simp] theorem succeeds_parenthesized : t.parenthesized.succeeds = t.succeeds := by
  simp [parenthesized]

@[simp] theorem succeeds_clause (keyword : String) :
    (clause keyword ts).succeeds = ts.all succeeds := by
  cases ts <;> simp [clause]

@[simp] theorem succeeds_columns : (columns ts).succeeds = ts.all succeeds := by
  cases ts <;> simp [columns]

theorem exists_outcome_eq_ok_iff (x : String) :
    (∃ y, t.outcome x = .ok y) ↔ t.succeeds = true := by
  unfold outcome succeeds
  cases t.failure <;> simp

theorem Regular.isRendering_of_outcome {t : Template} (h : t.Regular) {x : String} {e : Error}
    (he : t.outcome x = .error e) : e.isRendering = true := by
  unfold outcome at he
  cases hf : t.failure with
  | none =>
    rw [hf] at he
    cases he
  | some e' =>
    rw [hf] at he
    cases he
    exact h e hf

end

end Template

open Template

theorem Operator.succeeds_scalarTemplate (op : Operator) (t : Template) :
    (op.scalarTemplate t).succeeds = t.succeeds := by
  unfold scalarTemplate
  split
  · exact t.succeeds_parenthesized
  · rfl

mutual

theorem Select.succeeds_template (d : Dialect) :
    ∀ s : Select, (s.template d).succeeds = s.isComplete
  | ⟨_, none, _, _, _, _, _, _, _, _, _, _⟩ => by
    rw [Select.template, Select.isComplete, succeeds_fail]
  | ⟨_, some source, _, columns, joins, filters, _, havings, _, _, _, branches⟩ => by
    simp only [Select.template, Select.isComplete, succeeds_append, succeeds_text,
      succeeds_columns, succeeds_concat, succeeds_clause, source.succeeds_template d,
      Column.succeeds_templates d columns, Join.succeeds_templates d joins,
      Condition.succeeds_templates d .filter filters,
      Condition.succeeds_templates d .having havings, Branch.succeeds_templates d _ branches,
      Bool.true_and, Bool.and_true]
    -- the columns come first in the text and the source in the tree
    rw [Bool.and_comm source.isComplete]

theorem Source.succeeds_template (d : Dialect) :
    ∀ s : Source, (s.template d).succeeds = s.isComplete
  | .table _ _ => by
    simp only [Source.template, Source.isComplete, succeeds_append, succeeds_text, Bool.and_self]
  | .query select _ => by
    simp only [Source.template, Source.isComplete, succeeds_append, succeeds_parenthesized,
      succeeds_text, select.succeeds_template d, Bool.and_true]

theorem Column.succeeds_templates (d : Dialect) :
    ∀ cs : List Column, (Column.templates d cs).all succeeds = Column.allComplete cs
  | [] => rfl
  | c :: cs => by
    rw [Column.templates, List.all_cons, c.succeeds_template d, Column.succeeds_templates d cs,
      Column.allComplete]

theorem Column.succeeds_template (d : Dialect) :
    ∀ c : Column, (c.template d).succeeds = c.isComplete
  | ⟨.names _, _⟩ => by
    simp only [Column.template, Column.isComplete, succeeds_append, succeeds_text, Bool.and_self]
  | ⟨.fragment f, _⟩ => by
    simp only [Column.template, Column.isComplete, succeeds_append, succeeds_text,
      f.succeeds_template d, Bool.and_true]
  | ⟨.query _, none⟩ => by
    rw [Column.template, Column.isComplete, succeeds_fail, Option.isSome_none, Bool.false_and]
  | ⟨.query select, some _⟩ => by
    simp only [Column.template, Column.isComplete, succeeds_append, succeeds_parenthesized,
      succeeds_text, select.succeeds_template d, Option.isSome_some, Bool.true_and, Bool.and_true]

theorem Join.succeeds_templates (d : Dialect) :
    ∀ js : List Join, (Join.templates d js).all succeeds = Join.allComplete js
  | [] => rfl
  | j :: js => by
    rw [Join.templates, List.all_cons, succeeds_append, succeeds_text, Bool.true_and,
      j.succeeds_template d, Join.succeeds_templates d js, Join.allComplete]

theorem Join.succeeds_template (d : Dialect) : ∀ j : Join, (j.template d).succeeds = j.isComplete
  | ⟨kind, target, asName, conditions⟩ => by
    have hconditions :
        (if kind = .cross then [] else Expr.templates d conditions).all succeeds =
          (kind == .cross || Expr.allComplete conditions) := by
      by_cases hk : kind = .cross
      · simp [hk]
      · simp [hk, Expr.succeeds_templates d conditions]
    simp only [Join.template, Join.isComplete, succeeds_append, succeeds_text, succeeds_clause,
      target.succeeds_template d asName, hconditions, Bool.true_and, Bool.and_true]

theorem JoinTarget.succeeds_template (d : Dialect) :
    ∀ (t : JoinTarget) (asName : Option String),
      (t.template d asName).succeeds = t.isComplete asName
  | .table _, _ => by rw [JoinTarget.template, JoinTarget.isComplete, succeeds_text]
  | .query _, none => by
    rw [JoinTarget.template, JoinTarget.isComplete, succeeds_fail, Option.isSome_none,
      Bool.false_and]
  | .query select, some _ => by
    rw [JoinTarget.template, JoinTarget.isComplete, succeeds_parenthesized,
      select.succeeds_template d, Option.isSome_some, Bool.true_and]

theorem Expr.succeeds_templates (d : Dialect) :
    ∀ es : List Expr, (Expr.templates d es).all succeeds = Expr.allComplete es
  | [] => rfl
  | e :: es => by
    rw [Expr.templates, List.all_cons, e.succeeds_template d, Expr.succeeds_templates d es,
      Expr.allComplete]

theorem Condition.succeeds_templates (d : Dialect) (clause : Clause) : ∀ cs : List Condition,
    (Condition.templates d clause cs).all succeeds = Condition.allComplete cs
  | [] => rfl
  | c :: cs => by
    rw [Condition.templates, List.all_cons, c.succeeds_template d clause,
      Condition.succeeds_templates d clause cs, Condition.allComplete]

theorem Condition.succeeds_template (d : Dialect) (clause : Clause) :
    ∀ c : Condition, (c.template d clause).succeeds = c.isComplete
  | ⟨field, op, operand⟩ => by
    simp only [Condition.template, Condition.isComplete, succeeds_append, succeeds_text,
      field.succeeds_template d [], operand.succeeds_template d clause op, Bool.and_true]

theorem Operand.succeeds_template (d : Dialect) (clause : Clause) (op : Operator) :
    ∀ o : Operand, (o.template d clause op).succeeds = o.isComplete
  | .null => by rw [Operand.template, Operand.isComplete, succeeds_text]
  | .scalar v => by
    rw [Operand.template, Operand.isComplete, op.succeeds_scalarTemplate, succeeds_value]
  | .list vs => by
    rw [Operand.template, Operand.isComplete, succeeds_parenthesized, succeeds_separated,
      List.all_map]
    exact List.all_eq_true.2 fun v _ => succeeds_value clause v
  | .query select => by
    rw [Operand.template, Operand.isComplete, succeeds_parenthesized, select.succeeds_template d]
  | .fragment f => by rw [Operand.template, Operand.isComplete, f.succeeds_template d]

theorem Expr.succeeds_template (d : Dialect) (bare : List String) :
    ∀ e : Expr, (e.template d bare).succeeds = e.isComplete
  | .names _ => by rw [Expr.template, Expr.isComplete, succeeds_text]
  | .fragment f => by rw [Expr.template, Expr.isComplete, f.succeeds_template d]

theorem Call.succeeds_template (d : Dialect) : ∀ c : Call, (c.template d).succeeds = c.isComplete
  | ⟨_, arguments⟩ => by
    rw [Call.template, Call.isComplete, succeeds_append, succeeds_text, Bool.true_and,
      succeeds_parenthesized, succeeds_separated, Argument.succeeds_templates d arguments]

theorem Argument.succeeds_templates (d : Dialect) :
    ∀ as : List Argument, (Argument.templates d as).all succeeds = Argument.allComplete as
  | [] => rfl
  | a :: as => by
    rw [Argument.templates, List.all_cons, a.succeeds_template d,
      Argument.succeeds_templates d as, Argument.allComplete]

theorem Argument.succeeds_template (d : Dialect) :
    ∀ a : Argument, (a.template d).succeeds = a.isComplete
  | .names _ => by rw [Argument.template, Argument.isComplete, succeeds_text]
  | .value v => by rw [Argument.template, Argument.isComplete, succeeds_value]
  | .fragment f => by rw [Argument.template, Argument.isComplete, f.succeeds_template d]

theorem Fragment.succeeds_template (d : Dialect) :
    ∀ f : Fragment, (f.template d).succeeds = f.isComplete
  | .raw _ => by rw [Fragment.template, Fragment.isComplete, succeeds_text]
  | .call c => by rw [Fragment.template, Fragment.isComplete, c.succeeds_template d]
  | .filter c => by rw [Fragment.template, Fragment.isComplete, c.succeeds_template d]
  | .having c => by rw [Fragment.template, Fragment.isComplete, c.succeeds_template d]
  | .join j => by rw [Fragment.template, Fragment.isComplete, j.succeeds_template d]
  | .query select => by
    rw [Fragment.template, Fragment.isComplete, succeeds_parenthesized, select.succeeds_template d]

theorem Branch.succeeds_templates (d : Dialect) (width : Nat) :
    ∀ bs : List Branch, (Branch.templates d width bs).all succeeds = Branch.allComplete width bs
  | [] => rfl
  | ⟨all, select⟩ :: bs => by
    rw [Branch.templates, List.all_cons, Branch.succeeds_templates d width bs, Branch.allComplete]
    by_cases hw : width = select.columnCount
    · simp [hw, select.succeeds_template d]
    · simp [hw]

end

section
variable (d : Dialect)

theorem FieldValue.succeeds_template (clause : Clause) (v : FieldValue) :
    (v.template d clause).succeeds = v.isComplete := by
  cases v with
  | value v => rfl
  | fragment f => exact f.succeeds_template d

theorem Rows.succeeds_template (r : Rows) : (r.template d).succeeds = r.isComplete := by
  cases r with
  | values vs =>
    simp only [Rows.template, Rows.isComplete, succeeds_append, succeeds_text,
      succeeds_parenthesized, succeeds_separated, List.all_map, Function.comp_def,
      FieldValue.succeeds_template, Bool.true_and]
  | query select =>
    simp only [Rows.template, Rows.isComplete, succeeds_append, succeeds_text,
      select.succeeds_template d, Bool.true_and]

theorem Insert.succeeds_template : ∀ i : Insert, (i.template d).succeeds = i.isComplete
  | ⟨_, none, _, _⟩ => rfl
  | ⟨_, some _, [], _⟩ => rfl
  | ⟨_, some _, _ :: _, rows⟩ => by
    simp only [Insert.template, Insert.isComplete, List.isEmpty_cons, Bool.false_eq_true,
      ↓reduceIte, succeeds_append, succeeds_text, rows.succeeds_template d, Option.isSome_some,
      Bool.not_false, Bool.true_and]

theorem Update.succeeds_template : ∀ u : Update, (u.template d).succeeds = u.isComplete
  | ⟨_, none, _, _⟩ => rfl
  | ⟨_, some _, [], _⟩ => rfl
  | ⟨_, some _, p :: ps, filters⟩ => by
    simp only [Update.template, Update.isComplete, List.isEmpty_cons, Bool.false_eq_true,
      ↓reduceIte, succeeds_append, succeeds_text, succeeds_separated, succeeds_clause,
      List.all_map, Function.comp_def, Update.assignmentTemplate, FieldValue.succeeds_template,
      Condition.succeeds_templates d .filter filters, Option.isSome_some, Bool.not_false,
      Bool.true_and]

theorem Delete.succeeds_template : ∀ x : Delete, (x.template d).succeeds = x.isComplete
  | ⟨_, none, _⟩ => rfl
  | ⟨_, some _, filters⟩ => by
    simp only [Delete.template, Delete.isComplete, succeeds_append, succeeds_text,
      succeeds_clause, Condition.succeeds_templates d .filter filters, Option.isSome_some,
      Bool.true_and]

theorem Statement.succeeds_template (s : Statement) : (s.template d).succeeds = s.isComplete := by
  cases s with
  | select s => exact s.succeeds_template d
  | insert i => exact i.succeeds_template d
  | update u => exact u.succeeds_template d
  | delete x => exact x.succeeds_template d

end

/-! ## Main result -/

/-- What a statement bound to a dialect compiles to is a text or an error of rendering, whatever
is written for its pieces. -/
theorem Statement.outcome_template (s : Statement) (d : Dialect) (x : String) :
    ((∃ t, (s.template d).outcome x = .ok t) ↔ s.isComplete = true) ∧
      ∀ e, (s.template d).outcome x = .error e → e.isRendering = true := by
  refine ⟨?_, fun e he => (s.regular d).isRendering_of_outcome he⟩
  rw [exists_outcome_eq_ok_iff, s.succeeds_template d]

/-- A statement compiles, in either way and into any parameters, exactly when it is bound to a
dialect and complete. Any error is the missing dialect or an error of rendering. -/
theorem Statement.compile_succeeds_iff (s : Statement) :
    (((∃ t, s.compile = .ok t) ↔ (∃ d, s.dialect = some d) ∧ s.isComplete = true) ∧
      ∀ e, s.compile = .error e → e = .unbound ∨ e.isRendering = true) ∧
    ∀ (ps : Parameters) (reset : Bool),
      ((∃ t, (s.compileWith ps reset).1 = .ok t) ↔
        (∃ d, s.dialect = some d) ∧ s.isComplete = true) ∧
      ∀ e, (s.compileWith ps reset).1 = .error e → e = .unbound ∨ e.isRendering = true := by
  cases hs : s.dialect with
  | none =>
    have hcompile : s.compile = .error .unbound := by simp only [compile, hs]
    have hwith (ps : Parameters) (reset : Bool) :
        (s.compileWith ps reset).1 = .error .unbound := by simp only [compileWith, hs]
    simp [hcompile, hwith]
  | some d =>
    have hbound : ∃ d', some d = some d' := ⟨d, rfl⟩
    simp only [compile_eq_writeAll hs, fst_compileWith hs, and_iff_right hbound]
    have houtcome (x : String) := s.outcome_template d x
    refine ⟨⟨(houtcome _).1, fun e he => .inr ((houtcome _).2 e he)⟩, fun ps reset => ?_⟩
    exact ⟨(houtcome _).1, fun e he => .inr ((houtcome _).2 e he)⟩

end PortableSql
