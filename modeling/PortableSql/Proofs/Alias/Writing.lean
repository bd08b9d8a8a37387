import PortableSql.Proofs.Alias.Basic
import PortableSql.Proofs.Template.Writing

/-!
# Where aliases are written

What a statement writes is a list of slots: pieces of their own, and its aliases, each after `AS`.
Renaming changes nothing but the names in the slots (`Statement.writtenAs_rename`), so the text
holds all listed aliases in their order and depends on no other.
-/

namespace PortableSql

/-- A piece of a text that renaming leaves alone, or an alias. -/
inductive Slot where
  | fixed (p : Piece)
  | named (a : Alias)

namespace Slot

def alias? : Slot → Option Alias
  | fixed _ => none
  | named a => some a

def rename (f : Alias → String) : Slot → Slot
  | fixed p => fixed p
  | named a => named ⟨a.site, f a⟩

def piece (d : Dialect) : Slot → Piece
  | fixed p => p
  | named a => .text (aliasText d (some a.name))

theorem rename_name (s : Slot) : s.rename Alias.name = s := by
  cases s <;> rfl

end Slot

namespace Template

/-- The aliases that the templates of all renamings show, at the same places. -/
def Shows (d : Dialect) (as : List Alias) (t : (Alias → String) → Template) : Prop :=
  ∃ slots : List Slot, slots.filterMap Slot.alias? = as ∧
    ∀ f, (t f).failure = none → (t f).pieces = slots.map fun s => (s.rename f).piece d

/-- Lists of as many templates for all renamings, with the aliases that they show together. -/
inductive ShowsAll (d : Dialect) : List Alias → ((Alias → String) → List Template) → Prop where
  | nil : ShowsAll d [] fun _ => []
  | cons {as bs : List Alias} {t : (Alias → String) → Template}
      {ts : (Alias → String) → List Template} :
      Shows d as t → ShowsAll d bs ts → ShowsAll d (as ++ bs) fun f => t f :: ts f

section
variable {d : Dialect}

theorem shows_empty : Shows d [] fun _ => empty := ⟨[], rfl, fun _ _ => rfl⟩

theorem shows_text (s : String) : Shows d [] fun _ => text s :=
  ⟨[.fixed (.text s)], rfl, fun _ _ => rfl⟩

theorem shows_value (clause : Clause) (v : Value) : Shows d [] fun _ => value clause v :=
  ⟨[.fixed (.value clause v)], rfl, fun _ _ => rfl⟩

/-- What breaks off shows nothing. -/
theorem shows_fail (as : List Alias) (e : Error) : Shows d as fun _ => fail e := by
  refine ⟨as.map .named, ?_, fun _ h => nomatch h⟩
  rw [List.filterMap_map]
  exact List.filterMap_some

theorem shows_aliasText (site : AliasSite) (asName : Option String) :
    Shows d (Alias.ofName site asName)
      fun f => text (aliasText d (Alias.rename? f site asName)) := by
  cases asName with
  | none => exact shows_text _
  | some a => exact ⟨[.named ⟨site, a⟩], rfl, fun _ _ => rfl⟩

section
variable {as bs : List Alias} {s t : (Alias → String) → Template}
  {ts : (Alias → String) → List Template}

theorem Shows.append (hs : Shows d as s) (ht : Shows d bs t) :
    Shows d (as ++ bs) fun f => s f ++ t f := by
  obtain ⟨slots, rfl, hs⟩ := hs
  obtain ⟨slots', rfl, ht⟩ := ht
  refine ⟨slots ++ slots', List.filterMap_append, fun f hf => ?_⟩
  rw [failure_append, Option.or_eq_none_iff] at hf
  show (s f ++ t f).pieces = _
  rw [append_of_success hf.1, hs f hf.1, ht f hf.2, List.map_append]

theorem Shows.append_text (hs : Shows d as s) (u : String) :
    Shows d as fun f => s f ++ text u := by
  simpa only [List.append_nil] using hs.append (shows_text u)

theorem Shows.text_append (u : String) (ht : Shows d as t) :
    Shows d as fun f => text u ++ t f := by
  simpa only [List.nil_append] using (shows_text u).append ht

theorem Shows.parenthesized (ht : Shows d as t) : Shows d as fun f => (t f).parenthesized :=
  (ht.text_append _).append_text _

theorem ShowsAll.concat (h : ShowsAll d as ts) : Shows d as fun f => concat (ts f) := by
  induction h with
  | nil => exact shows_empty
  | cons ht _ ih => exact ht.append ih

theorem ShowsAll.separated (sep : String) (h : ShowsAll d as ts) :
    Shows d as fun f => separated sep (ts f) := by
  induction h with
  | nil => exact shows_empty
  | cons ht hts ih =>
    cases hts with
    | nil => simpa only [List.append_nil, Template.separated] using ht
    | cons hu hus => exact (ht.append_text sep).append ih

theorem ShowsAll.clause (keyword : String) (h : ShowsAll d as ts) :
    Shows d as fun f => clause keyword (ts f) := by
  cases h with
  | nil => exact shows_empty
  | cons ht hts => exact (ShowsAll.separated " AND " (.cons ht hts)).text_append _

theorem ShowsAll.columns (h : ShowsAll d as ts) : Shows d as fun f => columns (ts f) := by
  cases h with
  | nil => exact shows_text "*"
  | cons ht hts => exact ShowsAll.separated ", " (.cons ht hts)

/-- A list of templates from the members of a list. -/
theorem showsAll_map {α : Type} {aliases : α → List Alias} {t : α → (Alias → String) → Template}
    (xs : List α) (h : ∀ x, Shows d (aliases x) (t x)) :
    ShowsAll d (xs.flatMap aliases) fun f => xs.map (t · f) := by
  induction xs with
  | nil => exact .nil
  | cons x xs ih => exact .cons (h x) ih

end

end

end Template

open Template

theorem Operator.shows_scalarTemplate {d : Dialect} {as : List Alias}
    {t : (Alias → String) → Template} (op : Operator) (h : Shows d as t) :
    Shows d as fun f => op.scalarTemplate (t f) := by
  by_cases hop : op = oneOf ∨ op = notOneOf
  · simp only [scalarTemplate, if_pos hop]
    exact h.parenthesized
  · simp only [scalarTemplate, if_neg hop]
    exact h

mutual

theorem Select.shows (d : Dialect) :
    ∀ s : Select, Shows d s.aliases fun f => (s.rename f).template d
  | ⟨_, none, _, _, _, _, _, _, _, _, _, _⟩ => by
    simp only [Select.rename, Source.rename?, Select.template]
    exact shows_fail _ _
  | ⟨_, some source, distinct, columns, joins, filters, groups, havings, order, limit, offset,
      branches⟩ => by
    have hcolumns := (Column.showsAll d columns).columns
    have hsource := source.shows d
    have hjoins := (Join.showsAll d joins).concat
    have hfilters := (Condition.showsAll d .filter filters).clause "WHERE"
    have hhavings := (Condition.showsAll d .having havings).clause "HAVING"
    have hbranches := (Branch.showsAll d (Column.count columns) branches).concat
    simp only [Select.rename, Source.rename?, Select.template, Select.aliases, Source.aliases?,
      Column.count, Column.length_renameAll]
    exact ((((((((((hcolumns.text_append _).append_text _).append hsource).append hjoins).append
      hfilters).append_text _).append hhavings).append_text _).append_text _).append hbranches)

theorem Source.shows (d : Dialect) :
    ∀ s : Source, Shows d s.aliases fun f => (s.rename f).template d
  | .table _ asName => by
    simp only [Source.rename, Source.template, Source.aliases]
    exact (shows_aliasText .table asName).text_append _
  | .query select asName => by
    simp only [Source.rename, Source.template, Source.aliases]
    exact (select.shows d).parenthesized.append (shows_aliasText .query (some asName))

theorem Column.showsAll (d : Dialect) : ∀ cs : List Column,
    ShowsAll d (Column.aliasesAll cs) fun f => Column.templates d (Column.renameAll f cs)
  | [] => by
    simp only [Column.renameAll, Column.templates, Column.aliasesAll]
    exact .nil
  | c :: cs => by
    simp only [Column.renameAll, Column.templates, Column.aliasesAll]
    exact .cons (c.shows d) (Column.showsAll d cs)

theorem Column.shows (d : Dialect) :
    ∀ c : Column, Shows d c.aliases fun f => (c.rename f).template d
  | ⟨.names _, asName⟩ => by
    simp only [Column.rename, Column.template, Column.aliases]
    exact (shows_aliasText .column asName).text_append _
  | ⟨.fragment g, asName⟩ => by
    simp only [Column.rename, Column.template, Column.aliases]
    exact (g.shows d).append (shows_aliasText .column asName)
  | ⟨.query _, none⟩ => by
    simp only [Column.rename, Alias.rename?, Option.map_none, Column.template]
    exact shows_fail _ _
  | ⟨.query select, some a⟩ => by
    simp only [Column.rename, Alias.rename?, Option.map_some, Column.template, Column.aliases]
    exact (select.shows d).parenthesized.append (shows_aliasText .column (some a))

theorem Join.showsAll (d : Dialect) : ∀ js : List Join,
    ShowsAll d (Join.aliasesAll js) fun f => Join.templates d (Join.renameAll f js)
  | [] => by
    simp only [Join.renameAll, Join.templates, Join.aliasesAll]
    exact .nil
  | j :: js => by
    simp only [Join.renameAll, Join.templates, Join.aliasesAll]
    exact .cons ((j.shows d).text_append _) (Join.showsAll d js)

theorem Join.shows (d : Dialect) : ∀ j : Join, Shows d j.aliases fun f => (j.rename f).template d
  | ⟨kind, target, asName, conditions⟩ => by
    have htarget := (target.shows d asName).text_append (kind.text ++ " JOIN ")
    have hasName := htarget.append (shows_aliasText .join asName)
    simp only [Join.rename, Join.template, Join.aliases]
    by_cases hkind : kind = .cross
    · simp only [if_pos hkind]
      exact hasName.append (ShowsAll.nil.clause "ON")
    · simp only [if_neg hkind]
      exact hasName.append ((Expr.showsAll d conditions).clause "ON")

theorem JoinTarget.shows (d : Dialect) : ∀ (t : JoinTarget) (asName : Option String),
    Shows d t.aliases fun f => (t.rename f).template d (Alias.rename? f .join asName)
  | .table _, _ => by
    simp only [JoinTarget.rename, JoinTarget.template, JoinTarget.aliases]
    exact shows_text _
  | .query _, none => by
    simp only [JoinTarget.rename, Alias.rename?, Option.map_none, JoinTarget.template]
    exact shows_fail _ _
  | .query select, some _ => by
    simp only [JoinTarget.rename, Alias.rename?, Option.map_some, JoinTarget.template,
      JoinTarget.aliases]
    exact (select.shows d).parenthesized

theorem Expr.showsAll (d : Dialect) : ∀ es : List Expr,
    ShowsAll d (Expr.aliasesAll es) fun f => Expr.templates d (Expr.renameAll f es)
  | [] => by
    simp only [Expr.renameAll, Expr.templates, Expr.aliasesAll]
    exact .nil
  | e :: es => by
    simp only [Expr.renameAll, Expr.templates, Expr.aliasesAll]
    exact .cons (e.shows d _) (Expr.showsAll d es)

theorem Condition.showsAll (d : Dialect) (clause : Clause) : ∀ cs : List Condition,
    ShowsAll d (Condition.aliasesAll cs)
      fun f => Condition.templates d clause (Condition.renameAll f cs)
  | [] => by
    simp only [Condition.renameAll, Condition.templates, Condition.aliasesAll]
    exact .nil
  | c :: cs => by
    simp only [Condition.renameAll, Condition.templates, Condition.aliasesAll]
    exact .cons (c.shows d clause) (Condition.showsAll d clause cs)

theorem Condition.shows (d : Dialect) (clause : Clause) :
    ∀ c : Condition, Shows d c.aliases fun f => (c.rename f).template d clause
  | ⟨field, op, operand⟩ => by
    simp only [Condition.rename, Condition.template, Condition.aliases]
    exact ((field.shows d []).append_text _).append (operand.shows d clause op)

theorem Operand.shows (d : Dialect) (clause : Clause) (op : Operator) :
    ∀ o : Operand, Shows d o.aliases fun f => (o.rename f).template d clause op
  | .null => by
    simp only [Operand.rename, Operand.template, Operand.aliases]
    exact shows_text _
  | .scalar v => by
    simp only [Operand.rename, Operand.template, Operand.aliases]
    exact op.shows_scalarTemplate (shows_value clause v)
  | .list vs => by
    have hvs : ShowsAll d (vs.flatMap fun _ => []) fun _ => vs.map (value clause) :=
      showsAll_map vs (shows_value clause)
    rw [List.flatMap_eq_nil_iff.2 fun _ _ => rfl] at hvs
    simp only [Operand.rename, Operand.template, Operand.aliases]
    exact (hvs.separated ", ").parenthesized
  | .query select => by
    simp only [Operand.rename, Operand.template, Operand.aliases]
    exact (select.shows d).parenthesized
  | .fragment g => by
    simp only [Operand.rename, Operand.template, Operand.aliases]
    exact g.shows d

theorem Expr.shows (d : Dialect) (bare : List String) :
    ∀ e : Expr, Shows d e.aliases fun f => (e.rename f).template d bare
  | .names _ => by
    simp only [Expr.rename, Expr.template, Expr.aliases]
    exact shows_text _
  | .fragment g => by
    simp only [Expr.rename, Expr.template, Expr.aliases]
    exact g.shows d

theorem Call.shows (d : Dialect) : ∀ c : Call, Shows d c.aliases fun f => (c.rename f).template d
  | ⟨_, arguments⟩ => by
    have harguments := (Argument.showsAll d arguments).separated ", "
    simp only [Call.rename, Call.template, Call.aliases]
    exact harguments.parenthesized.text_append _

theorem Argument.showsAll (d : Dialect) : ∀ as : List Argument,
    ShowsAll d (Argument.aliasesAll as) fun f => Argument.templates d (Argument.renameAll f as)
  | [] => by
    simp only [Argument.renameAll, Argument.templates, Argument.aliasesAll]
    exact .nil
  | a :: as => by
    simp only [Argument.renameAll, Argument.templates, Argument.aliasesAll]
    exact .cons (a.shows d) (Argument.showsAll d as)

theorem Argument.shows (d : Dialect) :
    ∀ a : Argument, Shows d a.aliases fun f => (a.rename f).template d
  | .names _ => by
    simp only [Argument.rename, Argument.template, Argument.aliases]
    exact shows_text _
  | .value v => by
    simp only [Argument.rename, Argument.template, Argument.aliases]
    exact shows_value _ v
  | .fragment g => by
    simp only [Argument.rename, Argument.template, Argument.aliases]
    exact g.shows d

theorem Fragment.shows (d : Dialect) :
    ∀ g : Fragment, Shows d g.aliases fun f => (g.rename f).template d
  | .raw _ => by
    simp only [Fragment.rename, Fragment.template, Fragment.aliases]
    exact shows_text _
  | .call c => by
    simp only [Fragment.rename, Fragment.template, Fragment.aliases]
    exact c.shows d
  | .filter c => by
    simp only [Fragment.rename, Fragment.template, Fragment.aliases]
    exact c.shows d .filter
  | .having c => by
    simp only [Fragment.rename, Fragment.template, Fragment.aliases]
    exact c.shows d .having
  | .join j => by
    simp only [Fragment.rename, Fragment.template, Fragment.aliases]
    exact j.shows d
  | .query select => by
    simp only [Fragment.rename, Fragment.template, Fragment.aliases]
    exact (select.shows d).parenthesized

theorem Branch.showsAll (d : Dialect) (width : Nat) : ∀ bs : List Branch,
    ShowsAll d (Branch.aliasesAll bs) fun f => Branch.templates d width (Branch.renameAll f bs)
  | [] => by
    simp only [Branch.renameAll, Branch.templates, Branch.aliasesAll]
    exact .nil
  | ⟨all, select⟩ :: bs => by
    simp only [Branch.renameAll, Branch.templates, Branch.aliasesAll, Select.columnCount_rename]
    refine .cons ?_ (Branch.showsAll d width bs)
    by_cases hwidth : width = select.columnCount
    · simp only [if_pos hwidth]
      exact (select.shows d).text_append _
    · simp only [if_neg hwidth]
      exact shows_fail _ _

end

section
variable (d : Dialect)

theorem FieldValue.shows (clause : Clause) (v : FieldValue) :
    Shows d v.aliases fun f => (v.rename f).template d clause := by
  cases v with
  | value v => exact shows_value clause v
  | fragment g => exact g.shows d

theorem Rows.shows (r : Rows) : Shows d r.aliases fun f => (r.rename f).template d := by
  cases r with
  | values vs =>
    have hvs := (showsAll_map vs (FieldValue.shows d .insert)).separated ", "
    simp only [Rows.rename, Rows.template, Rows.aliases, List.map_map]
    exact hvs.parenthesized.text_append _
  | query select => exact (select.shows d).text_append _

theorem Insert.shows (i : Insert) :
    Shows d i.aliases fun f => ({ i with rows := i.rows.rename f } : Insert).template d := by
  obtain ⟨_, _ | table, fields, rows⟩ := i
  · exact shows_fail _ _
  · cases hfields : fields.isEmpty with
    | true =>
      simp only [Insert.template, hfields, ↓reduceIte]
      exact shows_fail _ _
    | false =>
      simp only [Insert.template, hfields, Bool.false_eq_true, ↓reduceIte]
      exact (rows.shows d).text_append _

theorem Update.shows (u : Update) :
    Shows d u.aliases fun f => ({ u with
      assignments := u.assignments.map fun p => (p.1, p.2.rename f)
      filters := Condition.renameAll f u.filters } : Update).template d := by
  obtain ⟨_, _ | table, assignments, filters⟩ := u
  · exact shows_fail _ _
  · have hassignment (p : String × FieldValue) : Shows d p.2.aliases
        fun f => Update.assignmentTemplate d (p.1, p.2.rename f) := by
      simp only [Update.assignmentTemplate]
      exact (p.2.shows d .update).text_append _
    have hassignments := (showsAll_map assignments hassignment).separated ", "
    have hfilters := (Condition.showsAll d .filter filters).clause "WHERE"
    cases hempty : assignments.isEmpty with
    | true =>
      simp only [Update.template, List.isEmpty_map, hempty, ↓reduceIte]
      exact shows_fail _ _
    | false =>
      simp only [Update.template, List.isEmpty_map, hempty, Bool.false_eq_true, ↓reduceIte,
        List.map_map, Update.aliases]
      exact (hassignments.text_append _).append hfilters

theorem Delete.shows (x : Delete) :
    Shows d x.aliases
      fun f => ({ x with filters := Condition.renameAll f x.filters } : Delete).template d := by
  obtain ⟨_, _ | table, filters⟩ := x
  · exact shows_fail _ _
  · exact ((Condition.showsAll d .filter filters).clause "WHERE").text_append _

theorem Statement.shows (s : Statement) :
    Shows d s.aliases fun f => (s.rename f).template d := by
  cases s with
  | select s => exact s.shows d
  | insert i => exact i.shows d
  | update u => exact u.shows d
  | delete x => exact x.shows d

end

/-! ## Compiled statements -/

namespace Statement

/-- The slots are what is written wherever the statement compiles. -/
def WrittenAs (s : Statement) (d : Dialect) (slots : List Slot) : Prop :=
  (∀ t, s.compile = .ok t → t = Piece.writeAll d none (slots.map (Slot.piece d))) ∧
    ∀ ps reset t, (s.compileWith ps reset).1 = .ok t →
      t = Piece.writeAll d (d.context (ps.start reset)) (slots.map (Slot.piece d))

/-- A statement writes its aliases, and the rest is the same under every renaming. -/
theorem writtenAs_rename {s : Statement} {d : Dialect} (hs : s.dialect = some d) :
    ∃ slots : List Slot, slots.filterMap Slot.alias? = s.aliases ∧
      ∀ f, (s.rename f).WrittenAs d (slots.map (Slot.rename f)) := by
  obtain ⟨slots, halias, hshows⟩ := s.shows d
  refine ⟨slots, halias, fun f => ?_⟩
  have hdialect : (s.rename f).dialect = some d := (s.dialect_rename f).trans hs
  have houtcome {x t : String} (h : ((s.rename f).template d).outcome x = .ok t) :
      t = x ∧ ((s.rename f).template d).pieces =
        (slots.map (Slot.rename f)).map (Slot.piece d) := by
    obtain ⟨hfailure, rfl⟩ := outcome_eq_ok_iff.1 h
    rw [hshows f hfailure, List.map_map]
    exact ⟨rfl, rfl⟩
  refine ⟨fun t ht => ?_, fun ps reset t ht => ?_⟩
  · rw [compile_eq_writeAll hdialect] at ht
    obtain ⟨rfl, hpieces⟩ := houtcome ht
    rw [hpieces]
  · rw [fst_compileWith hdialect] at ht
    obtain ⟨rfl, hpieces⟩ := houtcome ht
    rw [hpieces]

end Statement

end PortableSql
