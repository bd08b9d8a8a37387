import PortableSql.Proofs.Compilation
import PortableSql.Proofs.Template.Writing

/-!
# Filters that are added

The filters of an update or a delete come last in its text and bind last. So one filter more is
written behind what was there, after the values that were bound, and changes nothing before it
(`addFilter_appends`).
-/

namespace PortableSql

namespace Render

/-- `y` is rendered as `x` is, and behind it are `joiner` and what `w` gives. Parameters that come
from a run of compilations are left to `w` as `x` leaves them, and `w` only adds to them. -/
structure Appends (d : Dialect) (joiner : String) (x w y : Render String) : Prop where
  inline_error : ∀ e, x.inline = .error e → y.inline = .error e
  inline_ok : ∀ t, x.inline = .ok t → y.inline = w.inline.map fun s => t ++ joiner ++ s
  bound_error : ∀ cs e qs, x.bound d (Parameters.after cs) = (.error e, qs) →
    y.bound d (Parameters.after cs) = (.error e, qs)
  bound_ok : ∀ cs t qs, x.bound d (Parameters.after cs) = (.ok t, qs) →
    y.bound d (Parameters.after cs) =
        ((w.bound d qs).1.map fun s => t ++ joiner ++ s, (w.bound d qs).2) ∧
      qs.entries <+: (w.bound d qs).2.entries

end Render

namespace Template

/-- Numbered parameters stay numbered, and rendering only adds to them. -/
theorem numbered_bound_render (d : Dialect) (t : Template) {ps : Parameters} (hp : ps.Numbered) :
    ((t.render d).bound d ps).2.Numbered ∧
      ps.entries <+: ((t.render d).bound d ps).2.entries := by
  cases hd : d.binds with
  | true =>
    rw [bound_render d t hd hp]
    exact ⟨t.layout.numbered_extend hp, List.prefix_append _ _⟩
  | false =>
    rw [bound_render_of_not_binds d t ps hd]
    exact ⟨hp, List.prefix_refl _⟩

/-! ## One template more -/

theorem separated_concat (sep : String) {ts : List Template} (hts : ts ≠ []) (t : Template) :
    separated sep (ts ++ [t]) = separated sep ts ++ (text sep ++ t) := by
  fun_induction separated sep ts with
  | case1 => exact absurd rfl hts
  | case2 u => rw [List.singleton_append, separated, separated, append_assoc]
  | case3 u v us ih =>
    rw [List.cons_append, List.cons_append, separated, ← List.cons_append,
      ih (List.cons_ne_nil v us), append_assoc, append_assoc, append_assoc]

/-- What stands before one condition more. -/
def clauseJoiner (keyword : String) (ts : List Template) : String :=
  if ts.isEmpty then " " ++ keyword ++ " " else " AND "

theorem clause_concat (keyword : String) (ts : List Template) (t : Template) :
    clause keyword (ts ++ [t]) =
      clause keyword ts ++ (text (clauseJoiner keyword ts) ++ t) := by
  cases ts with
  | nil => rfl
  | cons u us =>
    have hconcat := separated_concat " AND " (List.cons_ne_nil u us) t
    rw [clause, if_neg (by simp), hconcat, clause, if_neg (by simp), clauseJoiner,
      if_neg (by simp), append_assoc]

end Template

theorem Condition.templates_concat (d : Dialect) (clause : Clause) (cs : List Condition)
    (c : Condition) :
    Condition.templates d clause (cs ++ [c]) =
      Condition.templates d clause cs ++ [c.template d clause] := by
  induction cs with
  | nil => rfl
  | cons b cs ih => rw [List.cons_append, Condition.templates, ih, Condition.templates]; rfl

/-- What stands before one filter more. -/
def filterJoiner (filters : List Condition) : String :=
  if filters.isEmpty then " WHERE " else " AND "

section
variable (d : Dialect) (w : Condition)

theorem clause_filters_concat (filters : List Condition) :
    Template.clause "WHERE" (Condition.templates d .filter (filters ++ [w])) =
      Template.clause "WHERE" (Condition.templates d .filter filters) ++
        (Template.text (filterJoiner filters) ++ w.template d .filter) := by
  have hjoiner : Template.clauseJoiner "WHERE" (Condition.templates d .filter filters) =
      filterJoiner filters := by
    cases filters <;> rfl
  rw [Condition.templates_concat, Template.clause_concat, hjoiner]

theorem Update.template_addFilter (u : Update) :
    (u.addFilter w).template d =
      u.template d ++ (Template.text (filterJoiner u.filters) ++ w.template d .filter) := by
  obtain ⟨dialect, table, assignments, filters⟩ := u
  cases table with
  | none => rfl
  | some table =>
    cases assignments with
    | nil => rfl
    | cons p ps =>
      simp only [addFilter, template, List.isEmpty_cons, Bool.false_eq_true, ↓reduceIte,
        clause_filters_concat, Template.append_assoc]

theorem Delete.template_addFilter (x : Delete) :
    (x.addFilter w).template d =
      x.template d ++ (Template.text (filterJoiner x.filters) ++ w.template d .filter) := by
  obtain ⟨dialect, table, filters⟩ := x
  cases table with
  | none => rfl
  | some table =>
    simp only [addFilter, template, clause_filters_concat, Template.append_assoc]

end

/-! ## Main result -/

namespace Template

section
variable (d : Dialect) (joiner : String) (s t : Template)

theorem inline_render_text_append :
    ((text joiner ++ t).render d).inline = (t.render d).inline.map (joiner ++ ·) := by
  rw [inline_render_append, render_text]
  cases (t.render d).inline <;> rfl

theorem bound_render_text_append (ps : Parameters) :
    ((text joiner ++ t).render d).bound d ps =
      (((t.render d).bound d ps).1.map (joiner ++ ·), ((t.render d).bound d ps).2) := by
  have htext : ((text joiner).render d).bound d ps = (.ok joiner, ps) := by
    rw [bound_render_eq]
    cases hd : d.binds <;> simp [outcome, text, Dialect.context, hd, Piece.writeAll, Piece.write,
      Piece.passAll, Piece.pass]
  rw [bound_render_append, htext]

theorem map_append_map (a b : String) (x : Except Error String) :
    (x.map (b ++ ·)).map (a ++ ·) = x.map fun s => a ++ b ++ s := by
  cases x with
  | error e => rfl
  | ok s => exact congrArg Except.ok String.append_assoc.symm

theorem appends_append :
    Render.Appends d joiner (s.render d) (t.render d) ((s ++ (text joiner ++ t)).render d) where
  inline_error e h := by
    rw [inline_render_append, h]
    rfl
  inline_ok a h := by
    rw [inline_render_append, h, inline_render_text_append, ← map_append_map]
    cases (t.render d).inline <;> rfl
  bound_error cs e qs h := by
    rw [bound_render_append, h]
  bound_ok cs a qs h := by
    have hqs : qs.Numbered := by
      have hn := (numbered_bound_render d s (Parameters.numbered_after cs)).1
      rwa [h] at hn
    refine ⟨?_, (numbered_bound_render d t hqs).2⟩
    rw [bound_render_append, h]
    simp only [bound_render_text_append, map_append_map]

end

end Template

/-- One filter more is written behind an update or a delete, and what it binds behind what was
bound. Where the statement fails, it fails alike with the filter, and else only the filter can. -/
theorem addFilter_appends (d : Dialect) (w : Condition) :
    (∀ u : Update, Render.Appends d (filterJoiner u.filters) (u.render d) (w.render d .filter)
      ((u.addFilter w).render d)) ∧
    ∀ x : Delete, Render.Appends d (filterJoiner x.filters) (x.render d) (w.render d .filter)
      ((x.addFilter w).render d) := by
  refine ⟨fun u => ?_, fun x => ?_⟩
  · rw [u.render_eq d, w.render_eq d, (u.addFilter w).render_eq d, u.template_addFilter d w]
    exact Template.appends_append d _ _ _
  · rw [x.render_eq d, w.render_eq d, (x.addFilter w).render_eq d, x.template_addFilter d w]
    exact Template.appends_append d _ _ _

/-- One filter more behind a value, and behind a nested select without a source, which stops the
delete when a value is bound already; both after a compilation that has bound one. -/
theorem addFilter_appends_delete :
    let run : List Compilation := [⟨.delete (Dialect.ansi.delete.fromTable "t"
      |>.filterEqual (.fragment (.raw "1")) (.scalar (.int 6))), false⟩]
    let w : Condition := .equals (.fragment (.raw "3")) (.scalar (.int 8))
    let x := Dialect.ansi.delete.fromTable "t"
      |>.filterEqual (.fragment (.raw "2")) (.scalar (.int 7))
    let y := x.filterEqual (.fragment (.raw "4")) (.query .empty)
    let start := "DELETE FROM " ++ Dialect.ansi.quoteExpression [] "t"
    let entries : List (String × Value) := [("where1", .int 6), ("where2", .int 7)]
    (x.render .ansi).inline = .ok (start ++ " WHERE 2 = 7") ∧
      ((x.addFilter w).render .ansi).inline =
        .ok (start ++ " WHERE 2 = 7" ++ " AND " ++ "3 = 8") ∧
      (x.render .ansi).bound .ansi (.after run) =
        (.ok (start ++ " WHERE 2 = :where2"), ⟨entries, 2⟩) ∧
      ((x.addFilter w).render .ansi).bound .ansi (.after run) =
        (.ok (start ++ " WHERE 2 = :where2" ++ " AND " ++ "3 = :where3"),
          ⟨entries ++ [("where3", .int 8)], 3⟩) ∧
      (y.render .ansi).inline = .error .missingSource ∧
      ((y.addFilter w).render .ansi).inline = .error .missingSource ∧
      (y.render .ansi).bound .ansi (.after run) = (.error .missingSource, ⟨entries, 2⟩) ∧
      ((y.addFilter w).render .ansi).bound .ansi (.after run) =
        (.error .missingSource, ⟨entries, 2⟩) := by
  intro run w x y start entries
  have hx := (addFilter_appends .ansi w).2 x
  have hy := (addFilter_appends .ansi w).2 y
  have hinline : (x.render .ansi).inline = .ok (start ++ " WHERE 2 = 7") := rfl
  have hbound : (x.render .ansi).bound .ansi (.after run) =
      (.ok (start ++ " WHERE 2 = :where2"), ⟨entries, 2⟩) := by
    -- names are compared, which `rfl` decides in closed terms only
    dsimp only [run, x, start, entries]
    rfl
  have hfilter : (w.render .ansi .filter).bound .ansi ⟨entries, 2⟩ =
      (.ok "3 = :where3", ⟨entries ++ [("where3", .int 8)], 3⟩) := by
    dsimp only [w, entries]
    rfl
  have herror : (y.render .ansi).inline = .error .missingSource := rfl
  have hboundError : (y.render .ansi).bound .ansi (.after run) =
      (.error .missingSource, ⟨entries, 2⟩) := by
    dsimp only [run, x, y, entries]
    rfl
  have happended := (hx.bound_ok run _ _ hbound).1
  rw [hfilter] at happended
  exact ⟨hinline, hx.inline_ok _ hinline, hbound, happended, herror, hy.inline_error _ herror,
    hboundError, hy.bound_error run _ _ hboundError⟩

end PortableSql
