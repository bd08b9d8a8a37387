import PortableSql.Proofs.Failure
import PortableSql.Proofs.Layout

/-!
# Compilations

A run is a sequence of compilations into the same parameters, from empty ones on. Some may fail,
some may empty the parameters first, and their dialects need not agree. What one compilation can do
(`Statement.compileWith_cases`) keeps the parameters numbered, so every run does
(`Parameters.numbered_after`).
-/

namespace PortableSql

theorem Template.Regular.outcome_ne_unbound {t : Template} (h : t.Regular) (s : String) :
    t.outcome s ≠ .error .unbound := by
  unfold outcome
  cases hf : t.failure with
  | none => exact nofun
  | some e =>
    rintro ⟨⟩
    exact absurd (h _ hf) (by decide)

namespace Statement
variable {s : Statement} {d : Dialect}

theorem compile_eq (hs : s.dialect = some d) :
    s.compile = (s.template d).outcome ((s.template d).layout.literalText d) := by
  simp only [compile, hs, s.render_eq d, Template.inline_render]

theorem compileWith_of_binds (hs : s.dialect = some d) (hd : d.binds = true) {ps : Parameters}
    (hp : ps.Numbered) (reset : Bool) :
    s.compileWith ps reset =
      ((s.template d).outcome ((s.template d).layout.markerText d ((ps.start reset).size + 1)),
        (ps.start reset).extend ((s.template d).layout.entries ((ps.start reset).size + 1))) := by
  simp only [compileWith, hs, s.render_eq d, Template.bound_render d _ hd (hp.start reset)]

theorem compileWith_of_not_binds (hs : s.dialect = some d) (hd : d.binds = false)
    (ps : Parameters) (reset : Bool) : s.compileWith ps reset = (s.compile, ps.start reset) := by
  simp only [compileWith, compile, hs, s.render_eq d, Template.bound_render_of_not_binds d _ _ hd]

theorem compileWith_of_unbound (hs : s.dialect = none) (ps : Parameters) (reset : Bool) :
    s.compileWith ps reset = (.error .unbound, ps) := by
  simp only [compileWith, hs]

/-- What one call can do: refuse for want of a dialect and change nothing, or add what the gaps of a
layout bind to what it starts from. It may fail then, but not for that reason. -/
theorem compileWith_cases (s : Statement) {ps : Parameters} (hp : ps.Numbered) (reset : Bool) :
    s.compileWith ps reset = (.error .unbound, ps) ∨
      ∃ (x : Except Error String) (l : Layout), x ≠ .error .unbound ∧
        s.compileWith ps reset =
          (x, (ps.start reset).extend (l.entries ((ps.start reset).size + 1))) := by
  cases hs : s.dialect with
  | none => exact .inl (compileWith_of_unbound hs ps reset)
  | some d =>
    have hne := (s.regular d).outcome_ne_unbound
    cases hd : d.binds with
    | true => exact .inr ⟨_, _, hne _, compileWith_of_binds hs hd hp reset⟩
    | false =>
      -- a layout without gaps binds nothing
      refine .inr ⟨s.compile, ⟨"", []⟩, ?_, ?_⟩
      · rw [compile_eq hs]
        exact hne _
      · rw [compileWith_of_not_binds hs hd, Layout.entries, List.zipIdx_nil, List.map_nil,
          Parameters.extend_nil]

section
variable (s : Statement) {ps : Parameters} (hp : ps.Numbered)
include hp

/-- One call keeps parameters numbered, whether it succeeds or not. -/
theorem numbered_compileWith (reset : Bool) : (s.compileWith ps reset).2.Numbered := by
  obtain h | ⟨x, l, -, h⟩ := s.compileWith_cases hp reset
  · rw [h]
    exact hp
  · rw [h]
    exact l.numbered_extend (hp.start reset)

/-- Where nothing is emptied, a call only adds to the parameters. -/
theorem exists_extend_compileWith : ∃ es, (s.compileWith ps false).2 = ps.extend es := by
  obtain h | ⟨x, l, -, h⟩ := s.compileWith_cases hp false
  · exact ⟨[], by rw [h, Parameters.extend_nil]⟩
  · exact ⟨_, congrArg Prod.snd h⟩

theorem compileWith_of_fst_eq_unbound {reset : Bool}
    (herror : (s.compileWith ps reset).1 = .error .unbound) : (s.compileWith ps reset).2 = ps := by
  obtain h | ⟨x, l, hne, h⟩ := s.compileWith_cases hp reset
  · rw [h]
  · rw [h] at herror
    exact absurd herror hne

end

end Statement

/-- A statement compiled into parameters, which may be emptied first. -/
structure Compilation where
  statement : Statement
  reset : Bool

def Compilation.run (c : Compilation) (ps : Parameters) : Except Error String × Parameters :=
  c.statement.compileWith ps c.reset

/-- The parameters after a run that started with none. -/
def Parameters.after (cs : List Compilation) : Parameters :=
  cs.foldl (fun ps c => (c.run ps).2) .empty

theorem Parameters.after_concat (cs : List Compilation) (c : Compilation) :
    after (cs ++ [c]) = (c.run (after cs)).2 := by
  simp only [after, List.foldl_append, List.foldl_cons, List.foldl_nil]

theorem Parameters.numbered_after (cs : List Compilation) : (after cs).Numbered := by
  suffices h : ∀ ps : Parameters, ps.Numbered →
      (cs.foldl (fun ps c => (c.run ps).2) ps).Numbered from h _ .empty
  induction cs with
  | nil => exact fun _ hp => hp
  | cons c cs ih => exact fun _ hp => ih _ (c.statement.numbered_compileWith hp c.reset)

/-! ## Main results -/

/-- Both ways of compiling a statement fill the gaps of one layout, or fail with one error. -/
theorem Statement.compile_agrees {s : Statement} {d : Dialect} (hs : s.dialect = some d) :
    (d.binds = true →
      (∃ e, s.compile = .error e ∧
        ∀ cs reset, (s.compileWith (Parameters.after cs) reset).1 = .error e) ∨
      ∃ l : Layout, s.compile = .ok (l.literalText d) ∧
        ∀ cs reset, let start := (Parameters.after cs).start reset
          s.compileWith (Parameters.after cs) reset =
            (.ok (l.markerText d (start.size + 1)), start.extend (l.entries (start.size + 1)))) ∧
    (d.binds = false →
      ∀ cs reset, s.compileWith (Parameters.after cs) reset =
        (s.compile, (Parameters.after cs).start reset)) := by
  refine ⟨fun hd => ?_, fun hd cs reset => compileWith_of_not_binds hs hd _ reset⟩
  have hwith (cs : List Compilation) (reset : Bool) :=
    compileWith_of_binds hs hd (Parameters.numbered_after cs) reset
  rw [compile_eq hs]
  cases hf : (s.template d).failure with
  | some e =>
    refine .inl ⟨e, by simp only [Template.outcome, hf], fun cs reset => ?_⟩
    rw [hwith, Template.outcome, hf]
  | none =>
    refine .inr ⟨(s.template d).layout, by simp only [Template.outcome, hf], fun cs reset => ?_⟩
    rw [hwith, Template.outcome, hf]

/-- An update that binds in two clauses, the second time inside a nested select, has a layout. -/
theorem Statement.compile_agrees_nested :
    let groups := Select.ofTable "g"
      |>.addColumn (.names "id")
      |>.filterEqual (.names "open") (.scalar (.bool true))
    let s := update (Dialect.ansi.update.setTable "t"
      |>.set "name" (.value (.text "x"))
      |>.filterEqual (.names "group") (.query groups))
    s.dialect = some .ansi ∧ Dialect.ansi.binds = true ∧
      ∃ l : Layout, s.compile = .ok (l.literalText .ansi) ∧
        ∀ cs reset, let start := (Parameters.after cs).start reset
          s.compileWith (Parameters.after cs) reset =
            (.ok (l.markerText .ansi (start.size + 1)),
              start.extend (l.entries (start.size + 1))) := by
  intro groups s
  have hok : ∃ t, s.compile = .ok t := ⟨_, rfl⟩
  obtain ⟨t, ht⟩ := hok
  refine ⟨rfl, rfl, ?_⟩
  obtain ⟨e, he, -⟩ | hlayout := (compile_agrees (s := s) (d := .ansi) rfl).1 rfl
  · cases ht.symm.trans he
  · exact hlayout

/-- After every call of a run the parameters are numbered and their names differ. A call that
empties nothing only adds to them, and one that fails for want of a dialect leaves them alone. -/
theorem Parameters.after_invariant (cs : List Compilation) (c : Compilation) :
    (after (cs ++ [c])).Numbered ∧ (after (cs ++ [c])).names.Nodup ∧
      (c.reset = false → (after cs).entries <+: (after (cs ++ [c])).entries) ∧
      ((c.run (after cs)).1 = .error .unbound → after (cs ++ [c]) = after cs) := by
  have hn := numbered_after cs
  have hn' := numbered_after (cs ++ [c])
  refine ⟨hn', hn'.names_nodup, fun hreset => ?_, fun herror => ?_⟩
  · obtain ⟨es, hes⟩ := c.statement.exists_extend_compileWith hn
    rw [after_concat, Compilation.run, hreset, hes]
    exact List.prefix_append _ _
  · rw [after_concat]
    exact c.statement.compileWith_of_fst_eq_unbound hn herror

end PortableSql
