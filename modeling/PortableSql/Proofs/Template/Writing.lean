import PortableSql.Proofs.Layout

/-!
# Writing from any context

Rendered from any context, a list of pieces writes its texts and something for each value, and
never stops; what a value leaves in the context is what the next piece starts from. So a template
fails in every context or in none, and what a statement compiles to is what its pieces write
(`Statement.compile_eq_writeAll`, `Statement.fst_compileWith`), from whatever parameters.
-/

namespace PortableSql

/-- What the values of a statement are written to: parameters, if the dialect binds values. -/
def Dialect.context (d : Dialect) (ps : Parameters) : Option Parameters :=
  if d.binds then some ps else none

namespace Piece

/-- What a piece writes in a context. -/
def write (d : Dialect) (c : Option Parameters) : Piece → String
  | text s => s
  | value clause v =>
    match c with
    | none => d.literal v
    | some ps => d.marker (ps.nextName clause.label) (ps.bind clause.label v).size

/-- The context that a piece leaves. -/
def pass (c : Option Parameters) : Piece → Option Parameters
  | text _ => c
  | value clause v => c.map fun ps => ps.bind clause.label v

def writeAll (d : Dialect) : Option Parameters → List Piece → String
  | _, [] => ""
  | c, p :: ps => p.write d c ++ writeAll d (p.pass c) ps

def passAll (c : Option Parameters) (ps : List Piece) : Option Parameters := ps.foldl pass c

theorem passAll_none (ps : List Piece) : passAll none ps = none := by
  induction ps with
  | nil => rfl
  | cons p ps ih =>
    cases p with
    | text s => exact ih
    | value clause v => exact ih

theorem exists_passAll_some (ps : Parameters) (pieces : List Piece) :
    ∃ qs, passAll (some ps) pieces = some qs := by
  induction pieces generalizing ps with
  | nil => exact ⟨ps, rfl⟩
  | cons p pieces ih =>
    cases p with
    | text s => exact ih ps
    | value clause v => exact ih (ps.bind clause.label v)

section
variable (d : Dialect) (c : Option Parameters)

theorem run_render (p : Piece) : (p.render d).run c = .ok (p.write d c) (p.pass c) := by
  cases p with
  | text s => rfl
  | value clause v => cases c <;> rfl

theorem run_renderAll (ps : List Piece) :
    (renderAll d ps).run c = .ok (writeAll d c ps) (passAll c ps) := by
  induction ps generalizing c with
  | nil => rfl
  | cons p ps ih =>
    simp only [renderAll, EStateM.run_bind, run_render, ih, EStateM.run_pure, writeAll, passAll,
      List.foldl_cons]

theorem writeAll_append (ps qs : List Piece) :
    writeAll d c (ps ++ qs) = writeAll d c ps ++ writeAll d (passAll c ps) qs := by
  induction ps generalizing c with
  | nil => rw [List.nil_append, writeAll, String.empty_append, passAll, List.foldl_nil]
  | cons p ps ih =>
    rw [List.cons_append, writeAll, ih, writeAll, String.append_assoc, passAll, passAll,
      List.foldl_cons]

end

end Piece

namespace Template
variable (d : Dialect) (s t : Template)

theorem run_render (c : Option Parameters) :
    (t.render d).run c =
      match t.failure with
      | none => .ok (Piece.writeAll d c t.pieces) (Piece.passAll c t.pieces)
      | some e => .error e (Piece.passAll c t.pieces) := by
  simp only [render, EStateM.run_bind, Piece.run_renderAll]
  cases t.failure <;> rfl

theorem inline_render_eq_writeAll :
    (t.render d).inline = t.outcome (Piece.writeAll d none t.pieces) := by
  rw [Render.inline, run_render, outcome]
  cases t.failure <;> rfl

theorem bound_render_eq (ps : Parameters) :
    (t.render d).bound d ps =
      (t.outcome (Piece.writeAll d (d.context ps) t.pieces),
        (Piece.passAll (d.context ps) t.pieces).getD ps) := by
  rw [Render.bound, ← Dialect.context, run_render, outcome]
  cases t.failure <;> rfl

theorem fst_bound_render (ps : Parameters) :
    ((t.render d).bound d ps).1 = t.outcome (Piece.writeAll d (d.context ps) t.pieces) := by
  rw [bound_render_eq]

/-! ## Two templates -/

/-- What is written in the context of parameters leaves such a context. -/
theorem context_passAll (ps : Parameters) (pieces : List Piece) :
    d.context ((Piece.passAll (d.context ps) pieces).getD ps) =
      Piece.passAll (d.context ps) pieces := by
  unfold Dialect.context
  cases d.binds with
  | true =>
    obtain ⟨qs, hqs⟩ := Piece.exists_passAll_some ps pieces
    simp only [↓reduceIte, hqs, Option.getD_some]
  | false => simp only [Bool.false_eq_true, ↓reduceIte, Piece.passAll_none]

/-- Where nothing is bound, nothing is left. -/
theorem getD_passAll (c : Option Parameters) (pieces : List Piece) (ps : Parameters) :
    (Piece.passAll c pieces).getD ps = (Piece.passAll c pieces).getD (c.getD ps) := by
  cases c with
  | none => rfl
  | some qs =>
    obtain ⟨rs, hrs⟩ := Piece.exists_passAll_some qs pieces
    rw [hrs, Option.getD_some, Option.getD_some]

theorem inline_render_append :
    ((s ++ t).render d).inline =
      (do return (← (s.render d).inline) ++ (← (t.render d).inline)) := by
  simp only [inline_render_eq_writeAll, outcome]
  cases hs : s.failure with
  | some e =>
    rw [append_of_failure hs, hs]
    rfl
  | none =>
    rw [append_of_success hs, Piece.writeAll_append, Piece.passAll_none]
    cases t.failure <;> rfl

/-- The second template starts from the parameters that the first one leaves. -/
theorem bound_render_append (ps : Parameters) :
    ((s ++ t).render d).bound d ps =
      match (s.render d).bound d ps with
      | (.error e, qs) => (.error e, qs)
      | (.ok a, qs) => (((t.render d).bound d qs).1.map (a ++ ·), ((t.render d).bound d qs).2) := by
  simp only [bound_render_eq, outcome]
  cases hs : s.failure with
  | some e => simp only [append_of_failure hs, hs]
  | none =>
    have hpass : Piece.passAll (d.context ps) (s.pieces ++ t.pieces) =
        Piece.passAll (Piece.passAll (d.context ps) s.pieces) t.pieces := List.foldl_append
    simp only [append_of_success hs, Piece.writeAll_append, context_passAll, hpass]
    rw [getD_passAll]
    cases t.failure <;> rfl

end Template

namespace Statement
variable {s : Statement} {d : Dialect} (hs : s.dialect = some d)
include hs

theorem compile_eq_writeAll :
    s.compile = (s.template d).outcome (Piece.writeAll d none (s.template d).pieces) := by
  simp only [compile, hs, s.render_eq d, Template.inline_render_eq_writeAll]

theorem fst_compileWith (ps : Parameters) (reset : Bool) :
    (s.compileWith ps reset).1 =
      (s.template d).outcome
        (Piece.writeAll d (d.context (ps.start reset)) (s.template d).pieces) := by
  simp only [compileWith, hs, s.render_eq d, Template.fst_bound_render]

end Statement

end PortableSql
