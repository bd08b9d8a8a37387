import PortableSql.Proofs.Building
import PortableSql.Proofs.Template.Writing

/-!
# Fields and their values

An insert keeps fields and values in two lists, though callers give them in pairs. Every call keeps
the lists in step with the pairs given since the last call that replaced them
(`Insert.Aligned.run`), so every sequence of calls does (`Insert.aligned_build`), and an insert that
compiles lists the fields and the values of these pairs, each in its place (`Insert.Aligned.lists`).
-/

namespace PortableSql

namespace Render

theorem exists_run_of_inline {x : Render String} {t : String} (h : x.inline = .ok t) :
    ∃ c, x.run none = .ok t c := by
  unfold inline at h
  cases hx : x.run none with
  | ok s c =>
    rw [hx] at h
    cases h
    exact ⟨c, rfl⟩
  | error e c =>
    rw [hx] at h
    cases h

theorem exists_run_of_bound {d : Dialect} {x : Render String} {ps : Parameters} {t : String}
    (h : (x.bound d ps).1 = .ok t) : ∃ c, x.run (d.context ps) = .ok t c := by
  unfold bound at h
  rw [← Dialect.context] at h
  cases hx : x.run (d.context ps) with
  | ok s c =>
    rw [hx] at h
    cases h
    exact ⟨c, rfl⟩
  | error e c =>
    rw [hx] at h
    cases h

end Render

namespace Insert

/-! ## What the calls give -/

/-- The pairs that a call gives. -/
def Step.pairs : Step → List (String × FieldValue)
  | addValue field v => [(field, v)]
  | addValue? field (some v) => [(field, .value v)]
  | addRaw field sql => [(field, .raw sql)]
  | setValues pairs => pairs
  | bind _ | intoTable _ | addValue? _ none | fromQuery .. => []

/-- Whether a call takes the place of all that was given before it. -/
def Step.replaces : Step → Bool
  | setValues _ | fromQuery .. => true
  | _ => false

/-- The pairs after a call on top of those before it. -/
def Step.give (ps : List (String × FieldValue)) (c : Step) : List (String × FieldValue) :=
  if c.replaces then c.pairs else ps ++ c.pairs

/-- The pairs that a sequence of calls gives. -/
def given (steps : List Step) : List (String × FieldValue) := steps.foldl Step.give []

/-- The lists of an insert hold the pairs; or its rows are those of a select, no pair was given
since, and each field has a column. -/
structure Aligned (i : Insert) (ps : List (String × FieldValue)) : Prop where
  values : ∀ vs, i.rows = .values vs → i.fields = ps.map Prod.fst ∧ vs = ps.map Prod.snd
  query : ∀ select, i.rows = .query select → ps = [] ∧ i.fields.length = select.columnCount

/-! ## Steps and runs -/

section
variable {i j : Insert} {ps : List (String × FieldValue)}

theorem aligned_empty : empty.Aligned [] := by
  refine ⟨fun vs h => ?_, nofun⟩
  cases h
  exact ⟨rfl, rfl⟩

/-- A call that gives nothing and touches neither the fields nor the rows. -/
theorem Aligned.keep (h : i.Aligned ps) {c : Step} (hpairs : c.pairs = [])
    (hreplaces : c.replaces = false) (hfields : j.fields = i.fields) (hrows : j.rows = i.rows) :
    j.Aligned (c.give ps) := by
  have hgive : c.give ps = ps := by simp [Step.give, hreplaces, hpairs]
  rw [hgive]
  refine ⟨fun vs hvs => ?_, fun select hselect => ?_⟩
  · rw [hfields]
    exact h.values vs (hrows.symm.trans hvs)
  · rw [hfields]
    exact h.query select (hrows.symm.trans hselect)

/-- A pair comes last in both lists, or first where a select is dropped. -/
theorem Aligned.addValue (h : i.Aligned ps) (field : String) (v : FieldValue) :
    (i.addValue field v).Aligned (ps ++ [(field, v)]) := by
  cases hrows : i.rows with
  | values vs =>
    obtain ⟨hfields, hvs⟩ := h.values vs hrows
    have hadd : i.addValue field v =
        { i with fields := i.fields ++ [field], rows := .values (vs ++ [v]) } := by
      rw [Insert.addValue, hrows]
    rw [hadd]
    refine ⟨fun ws hws => ?_, nofun⟩
    cases hws
    simp only [List.map_append, List.map_cons, List.map_nil]
    exact ⟨congrArg (· ++ [field]) hfields, congrArg (· ++ [v]) hvs⟩
  | query select =>
    obtain ⟨hps, -⟩ := h.query select hrows
    have hadd : i.addValue field v = { i with fields := [field], rows := .values [v] } := by
      rw [Insert.addValue, hrows]
    rw [hadd, hps]
    refine ⟨fun ws hws => ?_, nofun⟩
    cases hws
    exact ⟨rfl, rfl⟩

theorem aligned_setValues (i : Insert) (ps : List (String × FieldValue)) :
    (i.setValues ps).Aligned ps := by
  refine ⟨fun vs hvs => ?_, nofun⟩
  cases hvs
  exact ⟨rfl, rfl⟩

theorem aligned_fromQuery {fields : List String} {select : Select}
    (h : i.fromQuery fields select = .ok j) : j.Aligned [] := by
  unfold fromQuery at h
  split at h
  · next hcount =>
    cases h
    refine ⟨nofun, fun select' hselect => ?_⟩
    cases hselect
    exact ⟨rfl, hcount⟩
  · cases h

/-- Only a select can be refused. -/
theorem Step.exists_run (c : Step) (i : Insert) (h : c.pairs ≠ []) : ∃ j, c.run i = .ok j := by
  cases c with
  | fromQuery fields select => exact absurd rfl h
  | _ => exact ⟨_, rfl⟩

/-- One call keeps an insert aligned with what was given. -/
theorem Aligned.run (h : i.Aligned ps) {c : Step} (hrun : c.run i = .ok j) :
    j.Aligned (c.give ps) := by
  cases c with
  | bind d =>
    cases hrun
    exact h.keep rfl rfl rfl rfl
  | intoTable name =>
    cases hrun
    exact h.keep rfl rfl rfl rfl
  | addValue field v =>
    cases hrun
    exact h.addValue field v
  | addValue? field v =>
    cases hrun
    cases v with
    | none => exact h.keep rfl rfl rfl rfl
    | some v => exact h.addValue field (.value v)
  | addRaw field sql =>
    cases hrun
    exact h.addValue field (.raw sql)
  | setValues pairs =>
    cases hrun
    exact aligned_setValues i pairs
  | fromQuery fields select => exact aligned_fromQuery hrun

/-- Every sequence of calls keeps an insert aligned with what it gives. -/
theorem aligned_build {steps : List Step} (h : build steps = .ok i) : i.Aligned (given steps) := by
  suffices hrun : ∀ (j : Insert) (ps : List (String × FieldValue)), j.Aligned ps →
      steps.foldlM Step.run j = .ok i → i.Aligned (steps.foldl Step.give ps) from
    hrun empty [] aligned_empty h
  clear h
  induction steps with
  | nil =>
    intro j ps hj h
    cases h
    exact hj
  | cons c steps ih =>
    intro j ps hj h
    rw [List.foldlM_cons] at h
    cases hc : c.run j with
    | error e =>
      rw [hc] at h
      cases h
    | ok k =>
      rw [hc] at h
      exact ih k (c.give ps) (hj.run hc) h

end

/-! ## The text -/

/-- The texts that the values of pairs write, one after the other, from a context on. -/
inductive Written (d : Dialect) :
    Option Parameters → List (String × FieldValue) → List String → Prop where
  | nil {c : Option Parameters} : Written d c [] []
  | cons {c c' : Option Parameters} {field t : String} {v : FieldValue}
      {ps : List (String × FieldValue)} {ts : List String} :
      (v.render d .insert).run c = .ok t c' → Written d c' ps ts →
        Written d c ((field, v) :: ps) (t :: ts)

section
variable {d : Dialect} {c c' : Option Parameters} {ps : List (String × FieldValue)}

theorem Written.length_eq {ts : List String} (h : Written d c ps ts) : ts.length = ps.length := by
  induction h with
  | nil => rfl
  | cons _ _ ih => rw [List.length_cons, ih, List.length_cons]

theorem written_of_run_mapM {ts : List String}
    (h : ((ps.map Prod.snd).mapM (FieldValue.render d .insert)).run c = .ok ts c') :
    Written d c ps ts := by
  induction ps generalizing c ts with
  | nil =>
    cases h
    exact .nil
  | cons p ps ih =>
    obtain ⟨field, v⟩ := p
    rw [List.map_cons, List.mapM_cons, EStateM.run_bind] at h
    cases hv : (v.render d .insert).run c with
    | error e c₁ =>
      rw [hv] at h
      cases h
    | ok t c₁ =>
      simp only [hv, EStateM.run_bind] at h
      cases hps : ((ps.map Prod.snd).mapM (FieldValue.render d .insert)).run c₁ with
      | error e c₂ =>
        rw [hps] at h
        cases h
      | ok ts' c₂ =>
        rw [hps] at h
        cases h
        exact .cons hv (ih hps)

/-- The text that lists the fields of pairs and, in the same order, what their values write. -/
def Lists (d : Dialect) (c : Option Parameters) (i : Insert) (ps : List (String × FieldValue))
    (t : String) : Prop :=
  ∃ table texts, i.table = some table ∧ ps ≠ [] ∧ Written d c ps texts ∧
    texts.length = ps.length ∧
    t = "INSERT INTO " ++ d.quoteExpression [] table ++ " " ++
      parenthesized (", ".intercalate (ps.map fun p => d.quoteName p.1)) ++ " VALUES " ++
      parenthesized (", ".intercalate texts)

theorem Aligned.lists {i : Insert} (h : i.Aligned ps) {vs : List FieldValue}
    (hrows : i.rows = .values vs) {t : String} (hrun : (i.render d).run c = .ok t c') :
    i.Lists d c ps t := by
  obtain ⟨hfields, hvs⟩ := h.values vs hrows
  unfold render at hrun
  cases htable : i.table with
  | none =>
    rw [htable] at hrun
    cases hrun
  | some table =>
    rw [htable] at hrun
    by_cases hempty : i.fields.isEmpty = true
    · simp only [hempty] at hrun
      cases hrun
    · have hps : ps ≠ [] := by
        rintro rfl
        exact hempty (by rw [hfields]; rfl)
      simp only [hempty, Bool.false_eq_true, ↓reduceIte, hrows, Rows.render, EStateM.run_bind,
        hvs] at hrun
      cases htexts : ((ps.map Prod.snd).mapM (FieldValue.render d .insert)).run c with
      | error e c₁ =>
        rw [htexts] at hrun
        cases hrun
      | ok texts c₁ =>
        rw [htexts] at hrun
        have hwritten := written_of_run_mapM htexts
        refine ⟨table, texts, htable, hps, hwritten, hwritten.length_eq, ?_⟩
        cases hrun
        simp only [hfields, List.map_map, Function.comp_def, String.append_assoc]

end

/-! ## Main result -/

/-- An insert with values has the pairs given, in both lists and in its text, however it is
compiled. One with a select has a field for each column, and a pair given to it drops the select. -/
theorem build_aligned {steps : List Step} {i : Insert} (h : build steps = .ok i) :
    (∀ vs, i.rows = .values vs →
      i.fields.length = vs.length ∧ i.fields.zip vs = given steps ∧
      ∀ d, i.dialect = some d →
        (∀ t, (Statement.insert i).compile = .ok t → i.Lists d none (given steps) t) ∧
        ∀ ps reset t, ((Statement.insert i).compileWith ps reset).1 = .ok t →
          i.Lists d (d.context (ps.start reset)) (given steps) t) ∧
    ∀ select, i.rows = .query select →
      i.fields.length = select.columnCount ∧
      ∀ (c : Step) (field : String) (v : FieldValue), c.pairs = [(field, v)] →
        ∃ j, c.run i = .ok j ∧ j.fields = [field] ∧ j.rows = .values [v] := by
  have haligned := aligned_build h
  refine ⟨fun vs hrows => ?_, fun select hrows => ?_⟩
  · obtain ⟨hfields, hvs⟩ := haligned.values vs hrows
    refine ⟨?_, ?_, fun d hd => ⟨fun t ht => ?_, fun ps reset t ht => ?_⟩⟩
    · rw [hfields, hvs, List.length_map, List.length_map]
    · rw [hfields, hvs, List.zip_map']
      exact List.map_id _
    · simp only [Statement.compile, Statement.dialect, hd] at ht
      obtain ⟨c, hrun⟩ := Render.exists_run_of_inline ht
      exact haligned.lists hrows hrun
    · simp only [Statement.compileWith, Statement.dialect, hd] at ht
      obtain ⟨c, hrun⟩ := Render.exists_run_of_bound ht
      exact haligned.lists hrows hrun
  · obtain ⟨hgiven, hcount⟩ := haligned.query select hrows
    refine ⟨hcount, fun c field v hpairs => ?_⟩
    have hgive : c.give (given steps) = [(field, v)] := by
      simp [Step.give, hgiven, hpairs]
    obtain ⟨j, hj⟩ := c.exists_run i (by simp [hpairs])
    have haligned' := haligned.run hj
    rw [hgive] at haligned'
    cases hrows' : j.rows with
    | values vs =>
      obtain ⟨hfields, rfl⟩ := haligned'.values vs hrows'
      exact ⟨j, hj, hfields, hrows'⟩
    | query select' => cases (haligned'.query select' hrows').1

/-- A select with one column, before and after two pairs take its place. -/
theorem build_aligned_after_select :
    let steps := [Step.bind .ansi, .intoTable "t", .fromQuery ["a"] (.ofTable "g")]
    let more := steps ++ [.addValue? "b" (some (.int 1)), .addValue? "c" none, .addRaw "d" "now()"]
    (∃ i, build steps = .ok i ∧ i.rows = .query (.ofTable "g") ∧ i.fields.length = 1 ∧
      ∃ j, (Step.addRaw "d" "now()").run i = .ok j ∧ j.fields = ["d"] ∧
        j.rows = .values [.raw "now()"]) ∧
    ∃ i t, build more = .ok i ∧ i.rows = .values [.value (.int 1), .raw "now()"] ∧
      i.fields.zip [.value (.int 1), .raw "now()"] = given more ∧
      (Statement.insert i).compile = .ok t ∧ i.Lists .ansi none (given more) t := by
  intro steps more
  have hselect : build steps = .ok ⟨some .ansi, some "t", ["a"], .query (.ofTable "g")⟩ := rfl
  have hpairs : build more =
      .ok ⟨some .ansi, some "t", ["b", "d"], .values [.value (.int 1), .raw "now()"]⟩ := rfl
  have hok : ∃ t, (Statement.insert
      ⟨some .ansi, some "t", ["b", "d"], .values [.value (.int 1), .raw "now()"]⟩).compile =
        .ok t := ⟨_, rfl⟩
  obtain ⟨t, ht⟩ := hok
  obtain ⟨hcount, hnext⟩ := (build_aligned hselect).2 _ rfl
  obtain ⟨-, hzip, htext⟩ := (build_aligned hpairs).1 _ rfl
  exact ⟨⟨_, hselect, rfl, hcount, hnext (.addRaw "d" "now()") "d" (.raw "now()") rfl⟩,
    _, t, hpairs, rfl, hzip, ht, (htext .ansi rfl).1 t ht⟩

end Insert

end PortableSql
