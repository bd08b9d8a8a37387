import PortableSql.Proofs.Building

/-!
# The order of calls

A call on a select belongs to one of its facets: it reads and writes that facet and no other
(`Select.Step.run_eq`). So a run of calls is as many runs side by side as there are facets. What it
leaves in a facet is what the calls of that facet leave there (`Select.exists_after_steps`), and it
is refused only where the calls of one facet are (`Select.exists_after`). Therefore calls of
different facets may change places.
-/

namespace PortableSql

namespace Select

/-! ## Facets -/

/-- The parts of a select that calls set or extend apart from one another. Columns and branches are
one facet: whether a branch can be added depends on the columns there are. -/
inductive Facet where
  | dialect
  | source
  | distinct
  | columns
  | joins
  | filters
  | groups
  | havings
  | order
  | limit
  | offset
  deriving DecidableEq, Repr

/-- The facet that a call belongs to. -/
def Step.facet : Step → Facet
  | bind _ => .dialect
  | fromTable _ | fromTableAs .. | fromQuery .. => .source
  | setDistinct _ => .distinct
  | setColumns _ | addColumn _ | addColumnAs .. | addColumnQuery .. | combine .. => .columns
  | addJoin _ | joinOn .. | joinAs .. | crossJoin _ => .joins
  | addFilter _ | filterEqual .. | filterBy .. => .filters
  | groupBy _ => .groups
  | addHaving _ | havingBy .. => .havings
  | orderBy .. => .order
  | setLimit _ => .limit
  | setOffset _ => .offset

/-- The select with one facet of another. -/
def put (s : Select) : Facet → Select → Select
  | .dialect, t => { s with dialect := t.dialect }
  | .source, t => { s with source := t.source }
  | .distinct, t => { s with distinct := t.distinct }
  | .columns, t => { s with columns := t.columns, branches := t.branches }
  | .joins, t => { s with joins := t.joins }
  | .filters, t => { s with filters := t.filters }
  | .groups, t => { s with groups := t.groups }
  | .havings, t => { s with havings := t.havings }
  | .order, t => { s with order := t.order }
  | .limit, t => { s with limit := t.limit }
  | .offset, t => { s with offset := t.offset }

/-- The select with nothing but one facet. -/
def only (s : Select) (g : Facet) : Select := empty.put g s

section
variable {s s' t : Select} {g : Facet}

theorem only_put (s t : Select) (g : Facet) : (s.put g t).only g = t.only g := by
  cases g <;> rfl

theorem only_put_of_ne {g' : Facet} (h : g ≠ g') : (s.put g' t).only g = s.only g := by
  cases g <;> cases g' <;> first | rfl | exact absurd rfl h

/-- What looks at one facet is the same for selects that agree on it. -/
theorem apply_eq_of_only_eq {α : Type} (f : Select → α) (hf : ∀ r : Select, f (r.only g) = f r)
    (h : s.only g = t.only g) : f s = f t := by
  rw [← hf s, h, hf t]

/-- A select is its facets. -/
theorem eq_of_only_eq (h : ∀ g, s.only g = t.only g) : s = t := by
  have hdialect := apply_eq_of_only_eq dialect (fun _ => rfl) (h .dialect)
  have hsource := apply_eq_of_only_eq source (fun _ => rfl) (h .source)
  have hdistinct := apply_eq_of_only_eq distinct (fun _ => rfl) (h .distinct)
  have hcolumns := apply_eq_of_only_eq columns (fun _ => rfl) (h .columns)
  have hjoins := apply_eq_of_only_eq joins (fun _ => rfl) (h .joins)
  have hfilters := apply_eq_of_only_eq filters (fun _ => rfl) (h .filters)
  have hgroups := apply_eq_of_only_eq groups (fun _ => rfl) (h .groups)
  have hhavings := apply_eq_of_only_eq havings (fun _ => rfl) (h .havings)
  have horder := apply_eq_of_only_eq order (fun _ => rfl) (h .order)
  have hlimit := apply_eq_of_only_eq limit (fun _ => rfl) (h .limit)
  have hoffset := apply_eq_of_only_eq offset (fun _ => rfl) (h .offset)
  have hbranches := apply_eq_of_only_eq branches (fun _ => rfl) (h .columns)
  cases s
  cases t
  simp_all only

/-! ## Steps -/

/-- A call does to its facet what it does where nothing else is, and nothing to the other facets. -/
theorem Step.run_eq (c : Step) (s : Select) :
    c.run s = (c.run (s.only c.facet)).map (s.put c.facet) := by
  cases c with
  | fromQuery select asName =>
    simp only [run, Select.fromQuery]
    cases alias? asName <;> rfl
  | addColumnQuery select asName =>
    simp only [run, Select.addColumnQuery]
    cases Column.query select asName <;> rfl
  | joinAs kind table e =>
    simp only [run, Select.joinAs]
    cases JoinKind.ofText kind <;> rfl
  | filterBy e o spelling =>
    simp only [run, Select.filterBy]
    cases Condition.of e o spelling <;> rfl
  | havingBy e o spelling =>
    simp only [run, Select.havingBy]
    cases Condition.ofGroup e o spelling <;> rfl
  | combine all select =>
    -- the only call that reads what it does not write, and still in its own facet
    have hcount : (s.only .columns).columnCount = s.columnCount := rfl
    simp only [run, Select.combine, facet, hcount]
    split <;> rfl
  | _ => rfl

variable {c : Step}

theorem Step.only_run_of_ne (h : c.run s = .ok t) (hg : g ≠ c.facet) : t.only g = s.only g := by
  rw [c.run_eq s] at h
  obtain ⟨u, -, rfl⟩ := Except.exists_of_map_eq_ok h
  exact only_put_of_ne hg

/-- Whether a call is refused, and what it does, depends on its facet alone. -/
theorem Step.exists_run_of_only_eq (hs : s.only c.facet = s'.only c.facet) (h : c.run s = .ok t) :
    ∃ t', c.run s' = .ok t' ∧ t.only c.facet = t'.only c.facet := by
  rw [c.run_eq s, hs] at h
  obtain ⟨u, hu, rfl⟩ := Except.exists_of_map_eq_ok h
  refine ⟨s'.put c.facet u, ?_, ?_⟩
  · rw [c.run_eq s', hu]
    rfl
  · rw [only_put, only_put]

/-! ## Runs -/

/-- The select after a sequence of calls, or why one of them was refused. -/
def after (s : Select) (steps : List Step) : Except Error Select := steps.foldlM Step.run s

theorem after_cons_eq_ok_iff {xs : List Step} :
    s.after (c :: xs) = .ok t ↔ ∃ u, c.run s = .ok u ∧ u.after xs = .ok t := by
  simp only [after, List.foldlM_cons]
  cases c.run s with
  | error e => exact ⟨nofun, nofun⟩
  | ok u =>
    constructor
    · exact fun h => ⟨u, rfl, h⟩
    · rintro ⟨v, hv, h⟩
      cases hv
      exact h

/-- The calls of a facet in a sequence of calls. -/
def Facet.steps (g : Facet) (xs : List Step) : List Step := xs.filter fun c => c.facet = g

theorem Facet.steps_cons_self (c : Step) (xs : List Step) :
    c.facet.steps (c :: xs) = c :: c.facet.steps xs :=
  List.filter_cons_of_pos (decide_eq_true rfl)

theorem Facet.steps_cons_of_ne {xs : List Step} (h : g ≠ c.facet) :
    g.steps (c :: xs) = g.steps xs :=
  List.filter_cons_of_neg (by simpa using h.symm)

/-- What a run leaves in a facet is what the calls of the facet leave there, also where the other
facets start from something else. -/
theorem exists_after_steps {xs : List Step} (hs : s.only g = s'.only g) (h : s.after xs = .ok t) :
    ∃ t', s'.after (g.steps xs) = .ok t' ∧ t.only g = t'.only g := by
  induction xs generalizing s s' with
  | nil =>
    cases h
    exact ⟨s', rfl, hs⟩
  | cons c xs ih =>
    obtain ⟨u, hu, h⟩ := after_cons_eq_ok_iff.1 h
    -- a call of the facet is in both runs; any other is in the long run only, and keeps the facet
    by_cases hg : g = c.facet
    · subst hg
      obtain ⟨u', hu', honly⟩ := Step.exists_run_of_only_eq hs hu
      obtain ⟨t', ht', hgoal⟩ := ih honly h
      rw [Facet.steps_cons_self]
      exact ⟨t', after_cons_eq_ok_iff.2 ⟨u', hu', ht'⟩, hgoal⟩
    · have honly : u.only g = s'.only g := (Step.only_run_of_ne hu hg).trans hs
      rw [Facet.steps_cons_of_ne hg]
      exact ih honly h

/-- A run is refused only where the calls of one facet are. -/
theorem exists_after {xs : List Step}
    (h : ∀ g, ∃ s' t' : Select, s.only g = s'.only g ∧ s'.after (g.steps xs) = .ok t') :
    ∃ t, s.after xs = .ok t := by
  induction xs generalizing s with
  | nil => exact ⟨s, rfl⟩
  | cons c xs ih =>
    obtain ⟨s', t', hs, ht'⟩ := h c.facet
    rw [Facet.steps_cons_self] at ht'
    obtain ⟨u', hu', hrest⟩ := after_cons_eq_ok_iff.1 ht'
    obtain ⟨u, hu, honly⟩ := Step.exists_run_of_only_eq hs.symm hu'
    have hfacets : ∀ g, ∃ s' t' : Select,
        u.only g = s'.only g ∧ s'.after (g.steps xs) = .ok t' := by
      intro g
      by_cases hg : g = c.facet
      · subst hg
        exact ⟨u', t', honly.symm, hrest⟩
      · obtain ⟨r, t, hr, ht⟩ := h g
        rw [Facet.steps_cons_of_ne hg] at ht
        exact ⟨r, t, (Step.only_run_of_ne hu hg).trans hr, ht⟩
    obtain ⟨t, ht⟩ := ih hfacets
    exact ⟨t, after_cons_eq_ok_iff.2 ⟨u, hu, ht⟩⟩

end

/-! ## Main result -/

/-- The same calls, those of each facet in the same order. -/
def Reordered (xs ys : List Step) : Prop := ∀ g : Facet, g.steps xs = g.steps ys

namespace Reordered
variable {xs ys : List Step}

theorem symm (h : Reordered xs ys) : Reordered ys xs := fun g => (h g).symm

theorem perm (h : Reordered xs ys) : xs.Perm ys := by
  classical
  have hcount (c : Step) (zs : List Step) : (c.facet.steps zs).count c = zs.count c :=
    List.count_filter (by simp)
  refine List.perm_iff_count.2 fun c => ?_
  rw [← hcount c xs, h c.facet, hcount c ys]

/-- Nothing of a run depends on how the calls of different facets are interleaved. -/
theorem after_eq (h : Reordered xs ys) {s t : Select} (ht : s.after xs = .ok t) :
    s.after ys = .ok t := by
  have hfacets : ∀ g, ∃ t', s.after (g.steps ys) = .ok t' ∧ t.only g = t'.only g := by
    intro g
    rw [← h g]
    exact exists_after_steps rfl ht
  have hok : ∃ u, s.after ys = .ok u := by
    refine exists_after fun g => ?_
    obtain ⟨t', ht', -⟩ := hfacets g
    exact ⟨s, t', rfl, ht'⟩
  obtain ⟨u, hu⟩ := hok
  have heq : t = u := by
    refine eq_of_only_eq fun g => ?_
    obtain ⟨t', ht', honly⟩ := hfacets g
    obtain ⟨u', hu', honly'⟩ := exists_after_steps (g := g) rfl hu
    rw [ht'] at hu'
    cases hu'
    exact honly.trans honly'.symm
  rw [heq]
  exact hu

end Reordered

end Select

namespace Statement

/-- Two sequences of calls that differ only in how calls of different facets are interleaved are
refused together, or build selects that compile to the same, in both ways and into any
parameters. -/
theorem compile_eq_of_reordered {xs ys : List Select.Step} (h : Select.Reordered xs ys)
    (s : Select) :
    ((∃ t, s.after xs = .ok t) ↔ ∃ u, s.after ys = .ok u) ∧
      ∀ t u, s.after xs = .ok t → s.after ys = .ok u →
        (select t).compile = (select u).compile ∧
          ∀ (ps : Parameters) (reset : Bool),
            (select t).compileWith ps reset = (select u).compileWith ps reset := by
  constructor
  · constructor
    · rintro ⟨t, ht⟩
      exact ⟨t, h.after_eq ht⟩
    · rintro ⟨u, hu⟩
      exact ⟨u, h.symm.after_eq hu⟩
  · intro t u ht hu
    have hu' : s.after ys = .ok t := h.after_eq ht
    rw [hu] at hu'
    cases hu'
    exact ⟨rfl, fun ps reset => rfl⟩

/-- A branch is added before the table and the dialect are known, but after the column. -/
theorem compile_eq_of_reordered_branch :
    let c := Select.Step.addColumn (.names "a")
    let u := Select.Step.combine true ((Select.ofTable "u").addColumn (.names "b"))
    let xs := [.bind .ansi, .fromTable "t", c, .filterEqual (.names "x") (.scalar (.int 1)), u]
    let ys := [.filterEqual (.names "x") (.scalar (.int 1)), c, u, .fromTable "t", .bind .ansi]
    Select.Reordered xs ys ∧
      ((∃ t, Select.empty.after xs = .ok t) ↔ ∃ t, Select.empty.after ys = .ok t) ∧
      ∃ t t', Select.empty.after xs = .ok t ∧ Select.empty.after ys = .ok t' ∧
        (select t).compile = (select t').compile ∧
          ∀ (ps : Parameters) (reset : Bool),
            (select t).compileWith ps reset = (select t').compileWith ps reset := by
  intro c u xs ys
  have h : Select.Reordered xs ys := fun g => by cases g <;> rfl
  obtain ⟨hbuilt, hcompiled⟩ := compile_eq_of_reordered h Select.empty
  exact ⟨h, hbuilt, _, _, rfl, rfl, hcompiled _ _ rfl rfl⟩

end Statement

end PortableSql
