import PortableSql.Rendering

/-!
# Templates

A template is a text with gaps for values and, when it breaks off, the reason. `Template.render`
writes the pieces from left to right, so that a template says once and for all what a rendering
binds and in which order. Appended templates are rendered one after the other (`render_append`).
-/

namespace PortableSql

theorem Render.throw_bind {α β : Type} (e : Error) (f : α → Render β) :
    (throw e >>= f : Render β) = throw e := rfl

theorem Render.run_throw {α : Type} (e : Error) (c : Option Parameters) :
    (throw e : Render α).run c = .error e c := rfl

inductive Piece where
  | text (s : String)
  | value (clause : Clause) (v : Value)

def Piece.render (d : Dialect) : Piece → Render String
  | text s => return s
  | value clause v => Render.value d clause.label v

def Piece.renderAll (d : Dialect) : List Piece → Render String
  | [] => return ""
  | p :: ps => return (← p.render d) ++ (← Piece.renderAll d ps)

theorem Piece.renderAll_append (d : Dialect) (ps qs : List Piece) :
    Piece.renderAll d (ps ++ qs) =
      (do return (← Piece.renderAll d ps) ++ (← Piece.renderAll d qs)) := by
  induction ps with
  | nil => simp only [List.nil_append, renderAll, pure_bind, String.empty_append, bind_pure]
  | cons p ps ih =>
    simp only [List.cons_append, renderAll, ih, bind_assoc, pure_bind, String.append_assoc]

structure Template where
  pieces : List Piece
  /-- Why nothing follows the pieces. -/
  failure : Option Error

namespace Template

def empty : Template := ⟨[], none⟩

def text (s : String) : Template := ⟨[.text s], none⟩

def value (clause : Clause) (v : Value) : Template := ⟨[.value clause v], none⟩

def fail (e : Error) : Template := ⟨[], some e⟩

/-- Nothing follows a failure. -/
protected def append (s t : Template) : Template :=
  match s.failure with
  | some _ => s
  | none => ⟨s.pieces ++ t.pieces, t.failure⟩

instance : Append Template := ⟨Template.append⟩

theorem append_of_failure {s : Template} {e : Error} (h : s.failure = some e) (t : Template) :
    s ++ t = s := by
  show Template.append s t = s
  simp [Template.append, h]

theorem append_of_success {s : Template} (h : s.failure = none) (t : Template) :
    s ++ t = ⟨s.pieces ++ t.pieces, t.failure⟩ := by
  show Template.append s t = _
  simp [Template.append, h]

theorem failure_append (s t : Template) : (s ++ t).failure = s.failure.or t.failure := by
  cases h : s.failure with
  | none => rw [append_of_success h, Option.none_or]
  | some e => rw [append_of_failure h, h, Option.some_or]

theorem append_empty (s : Template) : s ++ empty = s := by
  cases h : s.failure with
  | some e => exact append_of_failure h _
  | none => rw [append_of_success h, empty, List.append_nil, ← h]

theorem append_assoc (s t u : Template) : s ++ t ++ u = s ++ (t ++ u) := by
  cases hs : s.failure with
  | some e => rw [append_of_failure hs, append_of_failure hs, append_of_failure hs]
  | none =>
    cases ht : t.failure with
    | some e =>
      have hst : (s ++ t).failure = some e := by rw [failure_append, hs, Option.none_or, ht]
      rw [append_of_failure hst, append_of_failure ht]
    | none =>
      have hst : (s ++ t).failure = none := by rw [failure_append, hs, Option.none_or, ht]
      rw [append_of_success hst, append_of_success hs, append_of_success hs,
        append_of_success ht, List.append_assoc]

def concat : List Template → Template
  | [] => empty
  | t :: ts => t ++ concat ts

theorem concat_append (ts us : List Template) : concat (ts ++ us) = concat ts ++ concat us := by
  induction ts with
  | nil => rfl
  | cons t ts ih => rw [List.cons_append, concat, ih, concat, append_assoc]

/-- Templates with `sep` between them. -/
def separated (sep : String) : List Template → Template
  | [] => empty
  | [t] => t
  | t :: u :: ts => t ++ text sep ++ separated sep (u :: ts)

def parenthesized (t : Template) : Template := text "(" ++ t ++ text ")"

/-- The template of `clauseText`. -/
def clause (keyword : String) (ts : List Template) : Template :=
  if ts.isEmpty then empty else text (" " ++ keyword ++ " ") ++ separated " AND " ts

/-- The template of `Select.columnsText`. -/
def columns (ts : List Template) : Template :=
  if ts.isEmpty then text "*" else separated ", " ts

/-! ## Rendering -/

def render (d : Dialect) (t : Template) : Render String := do
  let s ← Piece.renderAll d t.pieces
  match t.failure with
  | none => return s
  | some e => throw e

section
variable (d : Dialect)

@[simp] theorem render_empty : empty.render d = pure "" := by
  simp [render, empty, Piece.renderAll]

@[simp] theorem render_text (s : String) : (text s).render d = pure s := by
  simp [render, text, Piece.renderAll, Piece.render]

@[simp] theorem render_value (clause : Clause) (v : Value) :
    (value clause v).render d = Render.value d clause.label v := by
  simp [render, value, Piece.renderAll, Piece.render]

@[simp] theorem render_fail (e : Error) : (fail e).render d = throw e := by
  simp [render, fail, Piece.renderAll]

theorem render_append (s t : Template) :
    (s ++ t).render d = (do return (← s.render d) ++ (← t.render d)) := by
  cases h : s.failure with
  | some e => simp only [append_of_failure h, render, h, bind_assoc, Render.throw_bind]
  | none =>
    rw [append_of_success h]
    cases ht : t.failure <;>
      simp only [render, h, ht, Piece.renderAll_append, bind_assoc, pure_bind,
        Render.throw_bind]

theorem render_concat (ts : List Template) :
    (concat ts).render d = (do return String.join (← ts.mapM (render d))) := by
  induction ts with
  | nil => simp [concat]
  | cons t ts ih => simp [concat, render_append, ih]

theorem render_separated (sep : String) (ts : List Template) :
    (separated sep ts).render d = (do return sep.intercalate (← ts.mapM (render d))) := by
  fun_induction separated sep ts with
  | case1 => simp
  | case2 t => simp
  | case3 t u ts ih => simp [render_append, ih, String.append_assoc]

theorem render_parenthesized (t : Template) :
    t.parenthesized.render d = (do return PortableSql.parenthesized (← t.render d)) := by
  simp [parenthesized, render_append, PortableSql.parenthesized]

theorem render_clause (keyword : String) (ts : List Template) :
    (clause keyword ts).render d = (do return clauseText keyword (← ts.mapM (render d))) := by
  cases ts with
  | nil => simp [clause, clauseText]
  | cons t ts => simp [clause, clauseText, render_append, render_separated]

theorem render_columns (ts : List Template) :
    (columns ts).render d = (do return Select.columnsText (← ts.mapM (render d))) := by
  cases ts with
  | nil => simp [columns, Select.columnsText]
  | cons t ts => simp [columns, Select.columnsText, render_separated]

end

end Template

end PortableSql
