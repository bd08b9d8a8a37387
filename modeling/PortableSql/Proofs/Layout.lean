import PortableSql.Proofs.Numbering
import PortableSql.Proofs.Template.Statement

/-!
# Layouts

The layout of a template is its text cut at the values: a first text, and gaps with the text that
follows each. Inlined, every gap holds the literal of its value (`Template.inline_render`). Bound to
numbered parameters, the gaps hold the markers of the next numbers, and the parameters get one entry
for each gap, in the order of the text (`Template.bound_render`).
-/

namespace PortableSql

/-- A place for a value, and the text from there to the next gap or the end. -/
structure Gap where
  clause : Clause
  value : Value
  tail : String

structure Layout where
  head : String
  gaps : List Gap

namespace Layout

def ofPieces : List Piece → Layout
  | [] => ⟨"", []⟩
  | .text s :: ps => ⟨s ++ (ofPieces ps).head, (ofPieces ps).gaps⟩
  | .value clause v :: ps => ⟨"", ⟨clause, v, (ofPieces ps).head⟩ :: (ofPieces ps).gaps⟩

def literalText (d : Dialect) (l : Layout) : String :=
  l.head ++ String.join (l.gaps.map fun g => d.literal g.value ++ g.tail)

/-- The text with markers; the first gap is parameter number `n`. -/
def markerText (d : Dialect) (n : Nat) (l : Layout) : String :=
  l.head ++ String.join
    ((l.gaps.zipIdx n).map fun (g, i) => d.marker (g.clause.name i) i ++ g.tail)

/-- What the gaps bind; the first is parameter number `n`. -/
def entries (n : Nat) (l : Layout) : List (String × Value) :=
  (l.gaps.zipIdx n).map fun (g, i) => (g.clause.name i, g.value)

/-- Entries with the next numbers keep parameters numbered. -/
theorem numbered_extend (l : Layout) {ps : Parameters} (hp : ps.Numbered) :
    (ps.extend (l.entries (ps.size + 1))).Numbered := by
  obtain ⟨head, gaps⟩ := l
  induction gaps generalizing ps with
  | nil =>
    rw [entries, List.zipIdx_nil, List.map_nil, Parameters.extend_nil]
    exact hp
  | cons g gs ih =>
    have hn := ih (hp.bind g.clause g.value)
    rw [hp.bind_eq, Parameters.size_extend, Parameters.extend_extend] at hn
    exact hn

end Layout

section
variable (d : Dialect)

theorem Render.run_value_none (label : String) (v : Value) :
    (Render.value d label v).run none = .ok (d.literal v) none := rfl

/-- A value becomes the marker of the next number, and the last entry. -/
theorem Render.run_value_some (clause : Clause) (v : Value) {ps : Parameters} (h : ps.Numbered) :
    (Render.value d clause.label v).run (some ps) =
      .ok (d.marker (clause.name (ps.size + 1)) (ps.size + 1))
        (some (ps.extend [(clause.name (ps.size + 1), v)])) := by
  have hrun : (Render.value d clause.label v).run (some ps) =
      .ok (d.marker (ps.nextName clause.label) (ps.bind clause.label v).size)
        (some (ps.bind clause.label v)) := rfl
  rw [hrun, h.nextName_eq, h.bind_eq, Parameters.size_extend, List.length_singleton]

theorem Piece.run_renderAll_none (ps : List Piece) :
    (Piece.renderAll d ps).run none = .ok ((Layout.ofPieces ps).literalText d) none := by
  induction ps with
  | nil => rfl
  | cons p ps ih =>
    cases p with
    | text s =>
      simp only [renderAll, Piece.render, pure_bind, EStateM.run_bind, ih, EStateM.run_pure,
        Layout.literalText, Layout.ofPieces, String.append_assoc]
    | value clause v =>
      simp only [renderAll, Piece.render, EStateM.run_bind, Render.run_value_none, ih,
        EStateM.run_pure, Layout.literalText, Layout.ofPieces, List.map_cons, String.join_cons,
        String.empty_append, String.append_assoc]

/-- Numbered parameters get what the gaps bind. -/
theorem Piece.run_renderAll_some (ps : List Piece) {qs : Parameters} (hq : qs.Numbered) :
    (Piece.renderAll d ps).run (some qs) =
      .ok ((Layout.ofPieces ps).markerText d (qs.size + 1))
        (some (qs.extend ((Layout.ofPieces ps).entries (qs.size + 1)))) := by
  induction ps generalizing qs with
  | nil => simp [renderAll, Layout.ofPieces, Layout.entries, Layout.markerText,
      Parameters.extend_nil]
  | cons p ps ih =>
    cases p with
    | text s =>
      simp only [renderAll, Piece.render, pure_bind, EStateM.run_bind, ih hq, EStateM.run_pure,
        Layout.markerText, Layout.ofPieces, Layout.entries, String.append_assoc]
    | value clause v =>
      have hrun := ih (hq.bind clause v)
      simp only [hq.bind_eq, Parameters.size_extend, List.length_singleton,
        Parameters.extend_extend] at hrun
      simp only [renderAll, Piece.render, EStateM.run_bind, Render.run_value_some d clause v hq,
        hrun, EStateM.run_pure, Layout.ofPieces, Layout.markerText, Layout.entries,
        List.zipIdx_cons, List.map_cons, String.join_cons, String.empty_append,
        String.append_assoc, List.singleton_append]

end

namespace Template
variable (d : Dialect)

def layout (t : Template) : Layout := .ofPieces t.pieces

/-- What a rendering gives that writes `s` for the pieces. -/
def outcome (t : Template) (s : String) : Except Error String :=
  match t.failure with
  | none => .ok s
  | some e => .error e

theorem outcome_eq_ok_iff {t : Template} {x y : String} :
    t.outcome x = .ok y ↔ t.failure = none ∧ x = y := by
  unfold outcome
  cases t.failure <;> simp

/-- Inlined, the layout with literals, unless the template breaks off. -/
theorem inline_render (t : Template) :
    (t.render d).inline = t.outcome (t.layout.literalText d) := by
  rw [Render.inline, render, outcome]
  cases t.failure with
  | none => simp only [EStateM.run_bind, Piece.run_renderAll_none, EStateM.run_pure, layout]
  | some e => simp only [EStateM.run_bind, Piece.run_renderAll_none, Render.run_throw]

/-- Where nothing is bound, the inlined text. -/
theorem bound_render_of_not_binds (t : Template) (ps : Parameters) (hd : d.binds = false) :
    (t.render d).bound d ps = ((t.render d).inline, ps) := by
  rw [inline_render, Render.bound, render, hd, outcome]
  cases t.failure with
  | none =>
    simp only [Bool.false_eq_true, ↓reduceIte, EStateM.run_bind, Piece.run_renderAll_none,
      EStateM.run_pure, layout, Option.getD_none]
  | some e =>
    simp only [Bool.false_eq_true, ↓reduceIte, EStateM.run_bind, Piece.run_renderAll_none,
      Render.run_throw, Option.getD_none]

/-- Bound, the layout with markers; what the gaps bind stays bound when the template breaks off. -/
theorem bound_render (t : Template) {ps : Parameters} (hd : d.binds = true) (hp : ps.Numbered) :
    (t.render d).bound d ps =
      (t.outcome (t.layout.markerText d (ps.size + 1)),
        ps.extend (t.layout.entries (ps.size + 1))) := by
  have hrun := Piece.run_renderAll_some d t.pieces hp
  rw [Render.bound, render, hd, outcome]
  cases t.failure with
  | none =>
    simp only [↓reduceIte, EStateM.run_bind, hrun, EStateM.run_pure, layout, Option.getD_some]
  | some e =>
    simp only [↓reduceIte, EStateM.run_bind, hrun, Render.run_throw, layout, Option.getD_some]

end Template

end PortableSql
