import PortableSql.Proofs.Template.Values

/-!
# Bound values do not show

Where values are bound, the text depends on the parameters only through their names and their
counter, and not at all on the values of the statement (`Statement.compileWith_mapValues`). So two
statements that differ in values alone cannot be told apart by their SQL.
-/

namespace PortableSql

namespace Parameters

/-- Parameters that differ in their values only. -/
structure Alike (ps qs : Parameters) : Prop where
  names_eq : ps.names = qs.names
  counter_eq : ps.counter = qs.counter

theorem Alike.refl (ps : Parameters) : ps.Alike ps := ⟨rfl, rfl⟩

section
variable {ps qs rs : Parameters}

theorem Alike.symm (h : ps.Alike qs) : qs.Alike ps := ⟨h.names_eq.symm, h.counter_eq.symm⟩

theorem Alike.trans (h : ps.Alike qs) (h' : qs.Alike rs) : ps.Alike rs :=
  ⟨h.names_eq.trans h'.names_eq, h.counter_eq.trans h'.counter_eq⟩

theorem Alike.start (h : ps.Alike qs) (reset : Bool) : (ps.start reset).Alike (qs.start reset) := by
  cases reset with
  | false => exact h
  | true => exact .refl _

theorem length_names (ps : Parameters) : ps.names.length = ps.size := by
  rw [names, List.length_map, size]

theorem Alike.size_eq (h : ps.Alike qs) : ps.size = qs.size := by
  rw [← length_names, h.names_eq, length_names]

theorem Alike.nextName_eq (h : ps.Alike qs) (label : String) :
    ps.nextName label = qs.nextName label := by
  rw [nextName, h.counter_eq, nextName]

/-- What binding does to the names does not depend on the value. -/
theorem names_bind (ps : Parameters) (label : String) (v : Value) :
    (ps.bind label v).names =
      if ps.nextName label ∈ ps.names then ps.names else ps.names ++ [ps.nextName label] := by
  rw [names, bind]
  split
  · next h => exact map_fst_put_of_mem v h
  · next h =>
    rw [put_of_notMem v h, List.map_append]
    rfl

theorem Alike.bind (h : ps.Alike qs) (label : String) (v w : Value) :
    (ps.bind label v).Alike (qs.bind label w) := by
  refine ⟨?_, congrArg (· + 1) h.counter_eq⟩
  rw [names_bind, names_bind, h.nextName_eq, h.names_eq]

end

end Parameters

section
variable (d : Dialect) (f : Value → Value) {ps qs : Parameters}

/-- A marker is made of a name and a position. -/
theorem Render.run_value_alike (label : String) (v w : Value) (h : ps.Alike qs) :
    ∃ s, (Render.value d label v).run (some ps) = .ok s (some (ps.bind label v)) ∧
      (Render.value d label w).run (some qs) = .ok s (some (qs.bind label w)) := by
  refine ⟨d.marker (ps.nextName label) (ps.bind label v).size, rfl, ?_⟩
  rw [h.nextName_eq, (h.bind label v w).size_eq]
  rfl

theorem Piece.run_renderAll_alike (pieces : List Piece) (h : ps.Alike qs) :
    ∃ s ps' qs', ps'.Alike qs' ∧ (Piece.renderAll d pieces).run (some ps) = .ok s (some ps') ∧
      (Piece.renderAll d (pieces.map (Piece.mapValue f))).run (some qs) = .ok s (some qs') := by
  induction pieces generalizing ps qs with
  | nil => exact ⟨"", ps, qs, h, rfl, rfl⟩
  | cons p pieces ih =>
    cases p with
    | text t =>
      obtain ⟨s, ps', qs', h', hrun, hrun'⟩ := ih h
      refine ⟨t ++ s, ps', qs', h', ?_, ?_⟩
      · simp only [renderAll, Piece.render, pure_bind, EStateM.run_bind, hrun, EStateM.run_pure]
      · simp only [List.map_cons, Piece.mapValue, renderAll, Piece.render, pure_bind,
          EStateM.run_bind, hrun', EStateM.run_pure]
    | value clause v =>
      obtain ⟨m, hm, hm'⟩ := Render.run_value_alike d clause.label v (f v) h
      obtain ⟨s, ps', qs', h', hrun, hrun'⟩ := ih (h.bind clause.label v (f v))
      refine ⟨m ++ s, ps', qs', h', ?_, ?_⟩
      · simp only [renderAll, Piece.render, EStateM.run_bind, hm, hrun, EStateM.run_pure]
      · simp only [List.map_cons, Piece.mapValue, renderAll, Piece.render, EStateM.run_bind, hm',
          hrun', EStateM.run_pure]

theorem Template.bound_mapValues (t : Template) (hd : d.binds = true) (h : ps.Alike qs) :
    ((t.render d).bound d ps).1 = (((t.mapValues f).render d).bound d qs).1 ∧
      ((t.render d).bound d ps).2.Alike (((t.mapValues f).render d).bound d qs).2 := by
  obtain ⟨s, ps', qs', h', hrun, hrun'⟩ := Piece.run_renderAll_alike d f t.pieces h
  simp only [Render.bound, hd, ↓reduceIte, render, mapValues, EStateM.run_bind, hrun, hrun']
  cases t.failure with
  | none => exact ⟨rfl, h'⟩
  | some e => exact ⟨rfl, h'⟩

end

namespace Statement
variable {d : Dialect} {ps qs : Parameters}

/-- No change of the values changes the text, and the parameters only change in theirs. -/
theorem compileWith_mapValues (f : Value → Value) {s : Statement} (hs : s.dialect = some d)
    (hd : d.binds = true) (h : ps.Alike qs) (reset : Bool) :
    (s.compileWith ps reset).1 = ((s.mapValues f).compileWith qs reset).1 ∧
      (s.compileWith ps reset).2.Alike ((s.mapValues f).compileWith qs reset).2 := by
  have hs' : (s.mapValues f).dialect = some d := (s.dialect_mapValues f).trans hs
  simp only [compileWith, hs, hs', render_eq, template_mapValues]
  exact Template.bound_mapValues d f _ hd (h.start reset)

/-- The statement with its values forgotten. -/
def blank (s : Statement) : Statement := s.mapValues fun _ => .null

/-- Statements that differ in their values only give the same SQL or the same error, and parameters
that differ in their values only. -/
theorem compileWith_eq_of_blank_eq {s s' : Statement} (hs : s.dialect = some d)
    (hd : d.binds = true) (hblank : s.blank = s'.blank) (hnames : ps.names = qs.names)
    (hcounter : ps.counter = qs.counter) (reset : Bool) :
    (s.compileWith ps reset).1 = (s'.compileWith qs reset).1 ∧
      (s.compileWith ps reset).2.names = (s'.compileWith qs reset).2.names ∧
      (s.compileWith ps reset).2.counter = (s'.compileWith qs reset).2.counter := by
  have hs' : s'.dialect = some d := by
    rw [← hs, ← s.dialect_mapValues fun _ => .null, ← s'.dialect_mapValues fun _ => .null]
    exact congrArg Statement.dialect hblank.symm
  obtain ⟨htext, halike⟩ := compileWith_mapValues (fun _ => .null) hs hd ⟨hnames, hcounter⟩ reset
  obtain ⟨htext', halike'⟩ := compileWith_mapValues (fun _ => .null) hs' hd (.refl qs) reset
  have hsame : s.mapValues (fun _ => .null) = s'.mapValues fun _ => .null := hblank
  rw [hsame] at htext halike
  have h := halike.trans halike'.symm
  exact ⟨htext.trans htext'.symm, h.names_eq, h.counter_eq⟩

theorem compileWith_eq_of_blank_eq_update :
    let s := update (Dialect.ansi.update.setTable "t" |>.set "name" (.value (.text "x'")))
    let s' := update (Dialect.ansi.update.setTable "t" |>.set "name" (.value .null))
    let ps : Parameters := ⟨[("where1", .int 1)], 1⟩
    let qs : Parameters := ⟨[("where1", .text "y")], 1⟩
    s.dialect = some .ansi ∧ Dialect.ansi.binds = true ∧ s.blank = s'.blank ∧
      ps.names = qs.names ∧ ps.counter = qs.counter ∧
      (s.compileWith ps false).1 = (s'.compileWith qs false).1 ∧
      (s.compileWith ps false).2.names = (s'.compileWith qs false).2.names ∧
      (s.compileWith ps false).2.counter = (s'.compileWith qs false).2.counter :=
  ⟨rfl, rfl, rfl, rfl, rfl, compileWith_eq_of_blank_eq (d := .ansi) rfl rfl rfl rfl rfl false⟩

end Statement

end PortableSql
