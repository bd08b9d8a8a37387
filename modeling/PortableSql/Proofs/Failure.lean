import PortableSql.Proofs.Template.Statement

/-!
# How rendering fails

Rendering stops at a part that is missing, at a branch of another width, or at a nested select
without its alias (`Statement.regular`). The other errors come from building a statement, and a
missing dialect is found before anything is rendered.
-/

namespace PortableSql

/-- The errors that rendering can give. -/
def Error.isRendering : Error → Bool
  | missingSource | missingTable | noFields _ | columnCount .. | missingAlias _ => true
  | _ => false

namespace Template

/-- A template that breaks off, if it does, with an error of rendering. -/
def Regular (t : Template) : Prop := ∀ e, t.failure = some e → e.isRendering = true

theorem regular_empty : empty.Regular := by simp [Regular, empty]

theorem regular_text (s : String) : (text s).Regular := by simp [Regular, text]

theorem regular_value (clause : Clause) (v : Value) : (value clause v).Regular := by
  simp [Regular, value]

theorem regular_fail {e : Error} (h : e.isRendering = true) : (fail e).Regular := by
  simp [Regular, fail, h]

section
variable {s t : Template} {ts : List Template}

theorem Regular.append (hs : s.Regular) (ht : t.Regular) : (s ++ t).Regular := by
  intro e he
  rw [failure_append] at he
  cases hf : s.failure with
  | none =>
    rw [hf, Option.none_or] at he
    exact ht e he
  | some e' =>
    rw [hf, Option.some_or] at he
    exact hs e (hf.trans he)

theorem Regular.concat (h : ∀ t ∈ ts, t.Regular) : (concat ts).Regular := by
  induction ts with
  | nil => exact regular_empty
  | cons t ts ih =>
    rw [List.forall_mem_cons] at h
    exact h.1.append (ih h.2)

theorem Regular.separated (sep : String) (h : ∀ t ∈ ts, t.Regular) :
    (separated sep ts).Regular := by
  fun_induction Template.separated sep ts with
  | case1 => exact regular_empty
  | case2 t => exact h t (List.mem_singleton_self t)
  | case3 t u ts ih =>
    rw [List.forall_mem_cons] at h
    exact (h.1.append (regular_text sep)).append (ih h.2)

theorem Regular.parenthesized (h : t.Regular) : t.parenthesized.Regular :=
  ((regular_text _).append h).append (regular_text _)

theorem Regular.clause (keyword : String) (h : ∀ t ∈ ts, t.Regular) :
    (clause keyword ts).Regular := by
  unfold Template.clause
  split
  · exact regular_empty
  · exact (regular_text _).append (.separated _ h)

theorem Regular.columns (h : ∀ t ∈ ts, t.Regular) : (columns ts).Regular := by
  unfold Template.columns
  split
  · exact regular_text _
  · exact .separated _ h

end

end Template

open Template

theorem Operator.regular_scalarTemplate (op : Operator) {t : Template} (h : t.Regular) :
    (op.scalarTemplate t).Regular := by
  unfold scalarTemplate
  split
  · exact h.parenthesized
  · exact h

mutual

theorem Select.regular (d : Dialect) : ∀ s : Select, (s.template d).Regular
  | ⟨_, none, _, _, _, _, _, _, _, _, _, _⟩ => by
    rw [Select.template]
    exact regular_fail rfl
  | ⟨_, some source, _, columns, joins, filters, _, havings, _, _, _, branches⟩ => by
    have hcolumns := Regular.columns (Column.regular_all d columns)
    have hsource := source.regular d
    have hjoins := Regular.concat (Join.regular_all d joins)
    have hfilters := Regular.clause "WHERE" (Condition.regular_all d .filter filters)
    have hhavings := Regular.clause "HAVING" (Condition.regular_all d .having havings)
    have hbranches := Regular.concat (Branch.regular_all d (Column.count columns) branches)
    rw [Select.template]
    exact (((((((((((regular_text _).append hcolumns).append (regular_text _)).append
      hsource).append hjoins).append hfilters).append (regular_text _)).append hhavings).append
      (regular_text _)).append (regular_text _)).append hbranches)

theorem Source.regular (d : Dialect) : ∀ s : Source, (s.template d).Regular
  | .table _ _ => by
    rw [Source.template]
    exact (regular_text _).append (regular_text _)
  | .query select _ => by
    rw [Source.template]
    exact (select.regular d).parenthesized.append (regular_text _)

theorem Column.regular_all (d : Dialect) :
    ∀ cs : List Column, ∀ t ∈ Column.templates d cs, t.Regular
  | [] => by
    rw [Column.templates]
    exact List.forall_mem_nil _
  | c :: cs => by
    rw [Column.templates, List.forall_mem_cons]
    exact ⟨c.regular d, Column.regular_all d cs⟩

theorem Column.regular (d : Dialect) : ∀ c : Column, (c.template d).Regular
  | ⟨.names _, _⟩ => by
    rw [Column.template]
    exact (regular_text _).append (regular_text _)
  | ⟨.fragment f, _⟩ => by
    rw [Column.template]
    exact (f.regular d).append (regular_text _)
  | ⟨.query _, none⟩ => by
    rw [Column.template]
    exact regular_fail rfl
  | ⟨.query select, some _⟩ => by
    rw [Column.template]
    exact (select.regular d).parenthesized.append (regular_text _)

theorem Join.regular_all (d : Dialect) : ∀ js : List Join, ∀ t ∈ Join.templates d js, t.Regular
  | [] => by
    rw [Join.templates]
    exact List.forall_mem_nil _
  | j :: js => by
    rw [Join.templates, List.forall_mem_cons]
    exact ⟨(regular_text _).append (j.regular d), Join.regular_all d js⟩

theorem Join.regular (d : Dialect) : ∀ j : Join, (j.template d).Regular
  | ⟨kind, target, asName, conditions⟩ => by
    have hconditions :
        ∀ t ∈ if kind = .cross then [] else Expr.templates d conditions, t.Regular := by
      split
      · exact List.forall_mem_nil _
      · exact Expr.regular_all d conditions
    rw [Join.template]
    exact (((regular_text _).append (target.regular d asName)).append (regular_text _)).append
      (.clause _ hconditions)

theorem JoinTarget.regular (d : Dialect) :
    ∀ (t : JoinTarget) (asName : Option String), (t.template d asName).Regular
  | .table _, _ => by
    rw [JoinTarget.template]
    exact regular_text _
  | .query _, none => by
    rw [JoinTarget.template]
    exact regular_fail rfl
  | .query select, some _ => by
    rw [JoinTarget.template]
    exact (select.regular d).parenthesized

theorem Expr.regular_all (d : Dialect) : ∀ es : List Expr, ∀ t ∈ Expr.templates d es, t.Regular
  | [] => by
    rw [Expr.templates]
    exact List.forall_mem_nil _
  | e :: es => by
    rw [Expr.templates, List.forall_mem_cons]
    exact ⟨e.regular d _, Expr.regular_all d es⟩

theorem Condition.regular_all (d : Dialect) (clause : Clause) :
    ∀ cs : List Condition, ∀ t ∈ Condition.templates d clause cs, t.Regular
  | [] => by
    rw [Condition.templates]
    exact List.forall_mem_nil _
  | c :: cs => by
    rw [Condition.templates, List.forall_mem_cons]
    exact ⟨c.regular d clause, Condition.regular_all d clause cs⟩

theorem Condition.regular (d : Dialect) (clause : Clause) :
    ∀ c : Condition, (c.template d clause).Regular
  | ⟨field, op, operand⟩ => by
    rw [Condition.template]
    exact ((field.regular d []).append (regular_text _)).append (operand.regular d clause op)

theorem Operand.regular (d : Dialect) (clause : Clause) (op : Operator) :
    ∀ o : Operand, (o.template d clause op).Regular
  | .null => by
    rw [Operand.template]
    exact regular_text _
  | .scalar v => by
    rw [Operand.template]
    exact op.regular_scalarTemplate (regular_value clause v)
  | .list vs => by
    have hvs : ∀ t ∈ vs.map (value clause), t.Regular :=
      List.forall_mem_map.2 fun v _ => regular_value clause v
    rw [Operand.template]
    exact (Regular.separated _ hvs).parenthesized
  | .query select => by
    rw [Operand.template]
    exact (select.regular d).parenthesized
  | .fragment f => by
    rw [Operand.template]
    exact f.regular d

theorem Expr.regular (d : Dialect) (bare : List String) : ∀ e : Expr, (e.template d bare).Regular
  | .names _ => by
    rw [Expr.template]
    exact regular_text _
  | .fragment f => by
    rw [Expr.template]
    exact f.regular d

theorem Call.regular (d : Dialect) : ∀ c : Call, (c.template d).Regular
  | ⟨_, arguments⟩ => by
    have harguments := Regular.separated ", " (Argument.regular_all d arguments)
    rw [Call.template]
    exact (regular_text _).append harguments.parenthesized

theorem Argument.regular_all (d : Dialect) :
    ∀ as : List Argument, ∀ t ∈ Argument.templates d as, t.Regular
  | [] => by
    rw [Argument.templates]
    exact List.forall_mem_nil _
  | a :: as => by
    rw [Argument.templates, List.forall_mem_cons]
    exact ⟨a.regular d, Argument.regular_all d as⟩

theorem Argument.regular (d : Dialect) : ∀ a : Argument, (a.template d).Regular
  | .names _ => by
    rw [Argument.template]
    exact regular_text _
  | .value v => by
    rw [Argument.template]
    exact regular_value _ v
  | .fragment f => by
    rw [Argument.template]
    exact f.regular d

theorem Fragment.regular (d : Dialect) : ∀ f : Fragment, (f.template d).Regular
  | .raw _ => by
    rw [Fragment.template]
    exact regular_text _
  | .call c => by
    rw [Fragment.template]
    exact c.regular d
  | .filter c => by
    rw [Fragment.template]
    exact c.regular d .filter
  | .having c => by
    rw [Fragment.template]
    exact c.regular d .having
  | .join j => by
    rw [Fragment.template]
    exact j.regular d
  | .query select => by
    rw [Fragment.template]
    exact (select.regular d).parenthesized

theorem Branch.regular_all (d : Dialect) (width : Nat) :
    ∀ bs : List Branch, ∀ t ∈ Branch.templates d width bs, t.Regular
  | [] => by
    rw [Branch.templates]
    exact List.forall_mem_nil _
  | ⟨all, select⟩ :: bs => by
    rw [Branch.templates, List.forall_mem_cons]
    refine ⟨?_, Branch.regular_all d width bs⟩
    split
    · exact (regular_text _).append (select.regular d)
    · exact regular_fail rfl

end

section
variable (d : Dialect)

theorem FieldValue.regular (clause : Clause) (v : FieldValue) : (v.template d clause).Regular := by
  cases v with
  | value v => exact regular_value clause v
  | fragment f => exact f.regular d

theorem Rows.regular (r : Rows) : (r.template d).Regular := by
  cases r with
  | values vs =>
    have hvs : ∀ t ∈ vs.map (FieldValue.template d .insert), t.Regular :=
      List.forall_mem_map.2 fun v _ => v.regular d .insert
    exact (regular_text _).append (Regular.separated _ hvs).parenthesized
  | query select => exact (regular_text _).append (select.regular d)

theorem Insert.regular (i : Insert) : (i.template d).Regular := by
  unfold Insert.template
  split
  · exact regular_fail rfl
  · split
    · exact regular_fail rfl
    · exact (regular_text _).append (i.rows.regular d)

theorem Update.regular (u : Update) : (u.template d).Regular := by
  have hassignments : ∀ t ∈ u.assignments.map (Update.assignmentTemplate d), t.Regular :=
    List.forall_mem_map.2 fun p _ => (regular_text _).append (p.2.regular d .update)
  have hfilters := Regular.clause "WHERE" (Condition.regular_all d .filter u.filters)
  unfold Update.template
  split
  · exact regular_fail rfl
  · split
    · exact regular_fail rfl
    · exact ((regular_text _).append (.separated _ hassignments)).append hfilters

theorem Delete.regular (x : Delete) : (x.template d).Regular := by
  unfold Delete.template
  split
  · exact regular_fail rfl
  · exact (regular_text _).append (.clause _ (Condition.regular_all d .filter x.filters))

theorem Statement.regular (s : Statement) : (s.template d).Regular := by
  cases s with
  | select s => exact s.regular d
  | insert i => exact i.regular d
  | update u => exact u.regular d
  | delete x => exact x.regular d

end

end PortableSql
