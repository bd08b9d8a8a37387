import PortableSql.Proofs.Template.Tree
import PortableSql.Statement

/-!
# Templates of statements

All four statements have templates too, and are rendered as these (`Statement.render_eq`).
-/

namespace PortableSql

open Template (text fail)

def FieldValue.template (d : Dialect) (clause : Clause) : FieldValue → Template
  | .value v => Template.value clause v
  | .fragment f => f.template d

def Rows.template (d : Dialect) : Rows → Template
  | .values vs => text " VALUES " ++
      (Template.separated ", " (vs.map (FieldValue.template d .insert))).parenthesized
  | .query select => text " " ++ select.template d

def Insert.template (d : Dialect) (i : Insert) : Template :=
  match i.table with
  | none => fail .missingTable
  | some table =>
    if i.fields.isEmpty then fail (.noFields .insert)
    else
      text ("INSERT INTO " ++ d.quoteExpression [] table ++ " " ++
        parenthesized (", ".intercalate (i.fields.map d.quoteName))) ++ i.rows.template d

def Update.assignmentTemplate (d : Dialect) (p : String × FieldValue) : Template :=
  text (d.quoteName p.1 ++ " = ") ++ p.2.template d .update

def Update.template (d : Dialect) (u : Update) : Template :=
  match u.table with
  | none => fail .missingTable
  | some table =>
    if u.assignments.isEmpty then fail (.noFields .update)
    else
      text ("UPDATE " ++ d.quoteExpression [] table ++ " SET ") ++
        Template.separated ", " (u.assignments.map (Update.assignmentTemplate d)) ++
        Template.clause "WHERE" (Condition.templates d .filter u.filters)

def Delete.template (d : Dialect) (x : Delete) : Template :=
  match x.table with
  | none => fail .missingTable
  | some table =>
    text ("DELETE FROM " ++ d.quoteExpression [] table) ++
      Template.clause "WHERE" (Condition.templates d .filter x.filters)

def Statement.template (d : Dialect) : Statement → Template
  | .select s => s.template d
  | .insert i => i.template d
  | .update u => u.template d
  | .delete x => x.template d

section
variable (d : Dialect)

theorem FieldValue.render_eq (clause : Clause) (v : FieldValue) :
    v.render d clause = (v.template d clause).render d := by
  cases v with
  | value v => rw [FieldValue.render, FieldValue.template, Template.render_value]
  | fragment f => exact f.render_eq d

theorem Rows.render_eq (r : Rows) : r.render d = (r.template d).render d := by
  cases r with
  | values vs =>
    have hvs : vs.mapM (FieldValue.render d .insert) =
        (vs.map (FieldValue.template d .insert)).mapM (Template.render d) := by
      rw [List.mapM_map]
      exact congrArg (vs.mapM ·) (funext (FieldValue.render_eq d .insert))
    simp only [Rows.render, Rows.template, hvs, Template.render_append, Template.render_text,
      Template.render_parenthesized, Template.render_separated, bind_assoc, pure_bind]
  | query select =>
    simp only [Rows.render, Rows.template, select.render_eq d, Template.render_append,
      Template.render_text, pure_bind]

theorem Insert.render_eq : ∀ i : Insert, i.render d = (i.template d).render d
  | ⟨_, none, _, _⟩ => by
    simp only [Insert.render, Insert.template, Template.render_fail]
  | ⟨_, some _, [], _⟩ => by
    simp only [Insert.render, Insert.template, List.isEmpty_nil, ↓reduceIte, Template.render_fail]
  | ⟨_, some _, _ :: _, rows⟩ => by
    simp only [Insert.render, Insert.template, List.isEmpty_cons, Bool.false_eq_true, ↓reduceIte,
      rows.render_eq d, Template.render_append, Template.render_text, pure_bind]

theorem Update.renderAssignment_eq (p : String × FieldValue) :
    Update.renderAssignment d p = (Update.assignmentTemplate d p).render d := by
  simp only [Update.renderAssignment, Update.assignmentTemplate, p.2.render_eq d,
    Template.render_append, Template.render_text, pure_bind]

theorem Update.render_eq : ∀ u : Update, u.render d = (u.template d).render d
  | ⟨_, none, _, _⟩ => by
    simp only [Update.render, Update.template, Template.render_fail]
  | ⟨_, some _, [], _⟩ => by
    simp only [Update.render, Update.template, List.isEmpty_nil, ↓reduceIte, Template.render_fail]
  | ⟨_, some _, p :: ps, filters⟩ => by
    have hps : (p :: ps).mapM (Update.renderAssignment d) =
        ((p :: ps).map (Update.assignmentTemplate d)).mapM (Template.render d) := by
      rw [List.mapM_map]
      exact congrArg ((p :: ps).mapM ·) (funext (Update.renderAssignment_eq d))
    simp only [Update.render, Update.template, List.isEmpty_cons, Bool.false_eq_true, ↓reduceIte,
      hps, Condition.renderAll_eq d .filter filters, Template.render_append, Template.render_text,
      Template.render_separated, Template.render_clause, bind_assoc, pure_bind]

theorem Delete.render_eq : ∀ x : Delete, x.render d = (x.template d).render d
  | ⟨_, none, _⟩ => by
    simp only [Delete.render, Delete.template, Template.render_fail]
  | ⟨_, some _, filters⟩ => by
    simp only [Delete.render, Delete.template, Condition.renderAll_eq d .filter filters,
      Template.render_append, Template.render_text, Template.render_clause, bind_assoc, pure_bind]

theorem Statement.render_eq (s : Statement) : s.render d = (s.template d).render d := by
  cases s with
  | select s => exact s.render_eq d
  | insert i => exact i.render_eq d
  | update u => exact u.render_eq d
  | delete x => exact x.render_eq d

end

end PortableSql
