import PortableSql.Proofs.Alias.Writing
import PortableSql.Proofs.Building

/-!
# Blank aliases

A blank alias of a column or a join is none, and a nested select is refused one. Only the table of a
select gets any alias as it is. Every call keeps it so that no other alias is blank
(`Built.checked`), so a built statement writes a blank alias only where a select has a table under
one.
-/

namespace PortableSql

theorem alias?_eq_some_iff {s a : String} :
    alias? s = some a ↔ Text.isBlankText s = false ∧ s = a := by
  unfold alias?
  cases Text.isBlankText s <;> simp

namespace Alias

/-- No alias is blank but those of tables. -/
def Checked (as : List Alias) : Prop :=
  ∀ a ∈ as, Text.isBlankText a.name = true → a.site = .table

section
variable {as bs : List Alias}

theorem checked_nil : Checked [] := List.forall_mem_nil _

theorem checked_append : Checked (as ++ bs) ↔ Checked as ∧ Checked bs := List.forall_mem_append

theorem checked_table (asName : Option String) : Checked (ofName .table asName) := by
  cases asName with
  | none => exact checked_nil
  | some a => exact List.forall_mem_singleton.2 fun _ => rfl

theorem checked_alias? (site : AliasSite) (s : String) : Checked (ofName site (alias? s)) := by
  cases h : alias? s with
  | none => exact checked_nil
  | some a =>
    obtain ⟨hblank, rfl⟩ := alias?_eq_some_iff.1 h
    refine List.forall_mem_singleton.2 fun htrue => ?_
    rw [hblank] at htrue
    cases htrue

theorem checked_flatMap {α : Type} {f : α → List Alias} {xs : List α} :
    Checked (xs.flatMap f) ↔ ∀ x ∈ xs, Checked (f x) := List.forall_mem_flatMap

end

end Alias

open Alias (Checked)

/-! ## Lists of parts -/

theorem Column.aliasesAll_eq (cs : List Column) :
    Column.aliasesAll cs = cs.flatMap Column.aliases := by
  induction cs with
  | nil => rfl
  | cons c cs ih => rw [Column.aliasesAll, ih, List.flatMap_cons]

theorem Join.aliasesAll_eq (js : List Join) : Join.aliasesAll js = js.flatMap Join.aliases := by
  induction js with
  | nil => rfl
  | cons j js ih => rw [Join.aliasesAll, ih, List.flatMap_cons]

theorem Expr.aliasesAll_eq (es : List Expr) : Expr.aliasesAll es = es.flatMap Expr.aliases := by
  induction es with
  | nil => rfl
  | cons e es ih => rw [Expr.aliasesAll, ih, List.flatMap_cons]

theorem Condition.aliasesAll_eq (cs : List Condition) :
    Condition.aliasesAll cs = cs.flatMap Condition.aliases := by
  induction cs with
  | nil => rfl
  | cons c cs ih => rw [Condition.aliasesAll, ih, List.flatMap_cons]

theorem Argument.aliasesAll_eq (as : List Argument) :
    Argument.aliasesAll as = as.flatMap Argument.aliases := by
  induction as with
  | nil => rfl
  | cons a as ih => rw [Argument.aliasesAll, ih, List.flatMap_cons]

theorem Branch.aliasesAll_eq (bs : List Branch) :
    Branch.aliasesAll bs = bs.flatMap fun b => b.select.aliases := by
  induction bs with
  | nil => rfl
  | cons b bs ih =>
    obtain ⟨all, select⟩ := b
    rw [Branch.aliasesAll, ih, List.flatMap_cons]

def Part.aliases : Part → List Alias
  | select s => s.aliases
  | insert i => i.aliases
  | update u => u.aliases
  | delete x => x.aliases
  | column c => c.aliases
  | join j => j.aliases
  | condition c => c.aliases
  | operand o => o.aliases
  | expr e => e.aliases
  | call c => c.aliases
  | argument a => a.aliases
  | fragment f => f.aliases
  | fieldValue v => v.aliases

theorem Statement.aliases_part (s : Statement) : s.part.aliases = s.aliases := by
  cases s <;> rfl

/-! ## Columns, joins and conditions -/

namespace Column

theorem checked_named {c : Column} (h : Checked c.aliases) (asName : String) :
    Checked (c.named asName).aliases := by
  obtain ⟨_ | _ | _, _⟩ := c
  · exact Alias.checked_alias? _ _
  · exact Alias.checked_append.2 ⟨(Alias.checked_append.1 h).1, Alias.checked_alias? _ _⟩
  · exact Alias.checked_append.2 ⟨(Alias.checked_append.1 h).1, Alias.checked_alias? _ _⟩

theorem checked_query {s : Select} {asName : String} {c : Column} (h : Checked s.aliases)
    (hc : Column.query s asName = .ok c) : Checked c.aliases := by
  unfold Column.query at hc
  split at hc
  · cases hc
  · rename_i a ha
    cases hc
    rw [Column.aliases, ← ha]
    exact Alias.checked_append.2 ⟨h, Alias.checked_alias? _ _⟩

end Column

namespace Join

theorem checked_iff (j : Join) :
    Checked j.aliases ↔ Checked j.target.aliases ∧ Checked (Alias.ofName .join j.asName) ∧
      (j.kind ≠ .cross → ∀ e ∈ j.conditions, Checked e.aliases) := by
  obtain ⟨kind, target, asName, conditions⟩ := j
  rw [Join.aliases, Alias.checked_append, Alias.checked_append, and_assoc]
  by_cases hkind : kind = .cross
  · simp [hkind, Alias.checked_nil]
  · simp [hkind, Expr.aliasesAll_eq, Alias.checked_flatMap]

theorem checked_table (kind : JoinKind) (name : String) : Checked (Join.table kind name).aliases :=
  (checked_iff _).2 ⟨Alias.checked_nil, Alias.checked_nil, fun _ => List.forall_mem_nil _⟩

theorem checked_query {kind : JoinKind} {s : Select} {asName : String} {j : Join}
    (h : Checked s.aliases) (hj : Join.query kind s asName = .ok j) : Checked j.aliases := by
  unfold Join.query at hj
  split at hj
  · cases hj
  · rename_i a ha
    cases hj
    refine (checked_iff _).2 ⟨h, ?_, fun _ => List.forall_mem_nil _⟩
    rw [← ha]
    exact Alias.checked_alias? _ _

theorem checked_named {j : Join} (h : Checked j.aliases) (asName : String) :
    Checked (j.named asName).aliases := by
  obtain ⟨htarget, -, hconditions⟩ := (checked_iff j).1 h
  exact (checked_iff _).2 ⟨htarget, Alias.checked_alias? _ _, hconditions⟩

theorem checked_onCondition {j : Join} {e : Expr} (h : Checked j.aliases) (he : Checked e.aliases) :
    Checked (j.onCondition e).aliases := by
  obtain ⟨htarget, hasName, hconditions⟩ := (checked_iff j).1 h
  refine (checked_iff _).2 ⟨htarget, hasName, fun hkind => ?_⟩
  exact List.forall_mem_append.2 ⟨hconditions hkind, List.forall_mem_singleton.2 he⟩

end Join

namespace Condition
variable {e : Expr} {o : Operand} {c : Condition} (h : ∀ p ∈ parts e o, Checked p.aliases)
include h

theorem checked_mk (op : Operator) : Checked (⟨e, op, o⟩ : Condition).aliases := by
  rw [parts, List.forall_mem_cons, List.forall_mem_singleton] at h
  exact Alias.checked_append.2 h

theorem checked_equals : Checked (equals e o).aliases := checked_mk h _

theorem checked_of {spelling : String} (hc : Condition.of e o spelling = .ok c) :
    Checked c.aliases := by
  unfold Condition.of at hc
  split at hc
  · cases hc
  · split at hc
    · cases hc
    · cases hc
      exact checked_mk h _

theorem checked_ofGroup {spelling : String} (hc : Condition.ofGroup e o spelling = .ok c) :
    Checked c.aliases := by
  unfold Condition.ofGroup at hc
  split at hc
  · cases hc
  · exact checked_of h hc

end Condition

theorem Call.checked_push {c : Call} {a : Argument} (h : Checked c.aliases)
    (ha : Checked a.aliases) : Checked (c.push a).aliases := by
  obtain ⟨name, arguments⟩ := c
  rw [Call.aliases, Argument.aliasesAll_eq, Alias.checked_flatMap] at h
  rw [Call.push, Call.aliases, Argument.aliasesAll_eq, Alias.checked_flatMap]
  exact List.forall_mem_append.2 ⟨h, List.forall_mem_singleton.2 ha⟩

/-! ## Calls -/

/-- Every part of a select that has aliases has checked ones. -/
structure Select.Checked (s : Select) : Prop where
  columns : ∀ c ∈ s.columns, Alias.Checked c.aliases
  source : Alias.Checked (Source.aliases? s.source)
  joins : ∀ j ∈ s.joins, Alias.Checked j.aliases
  filters : ∀ c ∈ s.filters, Alias.Checked c.aliases
  havings : ∀ c ∈ s.havings, Alias.Checked c.aliases
  branches : ∀ b ∈ s.branches, Alias.Checked b.select.aliases

namespace Select

theorem checked_iff (s : Select) : Alias.Checked s.aliases ↔ s.Checked := by
  obtain ⟨_, source, _, columns, joins, filters, _, havings, _, _, _, branches⟩ := s
  simp only [aliases, Column.aliasesAll_eq, Join.aliasesAll_eq, Condition.aliasesAll_eq,
    Branch.aliasesAll_eq, Alias.checked_append, Alias.checked_flatMap]
  constructor
  · rintro ⟨⟨⟨⟨⟨hcolumns, hsource⟩, hjoins⟩, hfilters⟩, hhavings⟩, hbranches⟩
    exact ⟨hcolumns, hsource, hjoins, hfilters, hhavings, hbranches⟩
  · rintro ⟨hcolumns, hsource, hjoins, hfilters, hhavings, hbranches⟩
    exact ⟨⟨⟨⟨⟨hcolumns, hsource⟩, hjoins⟩, hfilters⟩, hhavings⟩, hbranches⟩

section
variable {s s' : Select}

theorem checked_empty : empty.Checked :=
  ⟨List.forall_mem_nil _, Alias.checked_nil, List.forall_mem_nil _, List.forall_mem_nil _,
    List.forall_mem_nil _, List.forall_mem_nil _⟩

theorem Checked.addColumn (h : s.Checked) {c : Column} (hc : Alias.Checked c.aliases) :
    (s.addColumn c).Checked :=
  { h with columns := List.forall_mem_append.2 ⟨h.columns, List.forall_mem_singleton.2 hc⟩ }

theorem Checked.addJoin (h : s.Checked) {j : Join} (hj : Alias.Checked j.aliases) :
    (s.addJoin j).Checked :=
  { h with joins := List.forall_mem_append.2 ⟨h.joins, List.forall_mem_singleton.2 hj⟩ }

theorem Checked.joinOn (h : s.Checked) (kind : JoinKind) (table : String) {e : Expr}
    (he : Alias.Checked e.aliases) : (s.joinOn kind table e).Checked :=
  h.addJoin (Join.checked_onCondition (Join.checked_table kind table) he)

theorem Checked.addFilter (h : s.Checked) {c : Condition} (hc : Alias.Checked c.aliases) :
    (s.addFilter c).Checked :=
  { h with filters := List.forall_mem_append.2 ⟨h.filters, List.forall_mem_singleton.2 hc⟩ }

theorem Checked.addHaving (h : s.Checked) {c : Condition} (hc : Alias.Checked c.aliases) :
    (s.addHaving c).Checked :=
  { h with havings := List.forall_mem_append.2 ⟨h.havings, List.forall_mem_singleton.2 hc⟩ }

theorem Checked.fromQuery (h : s.Checked) {select : Select} {asName : String}
    (hselect : Alias.Checked select.aliases) (hs : s.fromQuery select asName = .ok s') :
    s'.Checked := by
  unfold Select.fromQuery at hs
  split at hs
  · cases hs
  · rename_i a ha
    cases hs
    refine { h with source := ?_ }
    rw [Source.aliases?, Source.aliases, ← ha]
    exact Alias.checked_append.2 ⟨hselect, Alias.checked_alias? _ _⟩

theorem Checked.combine (h : s.Checked) {all : Bool} {select : Select}
    (hselect : Alias.Checked select.aliases) (hs : s.combine all select = .ok s') :
    s'.Checked := by
  unfold Select.combine at hs
  split at hs
  · cases hs
    exact { h with
      branches := List.forall_mem_append.2 ⟨h.branches, List.forall_mem_singleton.2 hselect⟩ }
  · cases hs

/-- A call given checked parts keeps a select checked. -/
theorem Checked.run (h : s.Checked) {c : Step} (hparts : ∀ p ∈ c.parts, Alias.Checked p.aliases)
    (hrun : c.run s = .ok s') : s'.Checked := by
  cases c with
  | bind d =>
    cases hrun
    exact { h with }
  | fromTable name =>
    cases hrun
    exact { h with source := Alias.checked_table none }
  | fromTableAs name asName =>
    cases hrun
    exact { h with source := Alias.checked_table (some asName) }
  | fromQuery select asName =>
    exact h.fromQuery (hparts (.select select) (List.mem_singleton_self _)) hrun
  | setDistinct b =>
    cases hrun
    exact { h with }
  | setColumns cs =>
    cases hrun
    exact { h with columns := fun c hc => hparts (.column c) (List.mem_map_of_mem hc) }
  | addColumn c =>
    cases hrun
    exact h.addColumn (hparts (.column c) (List.mem_singleton_self _))
  | addColumnAs c asName =>
    cases hrun
    exact h.addColumn (Column.checked_named (hparts (.column c) (List.mem_singleton_self _)) asName)
  | addColumnQuery select asName =>
    obtain ⟨c, hc, rfl⟩ := Except.exists_of_map_eq_ok hrun
    have hselect := hparts (.select select) (List.mem_singleton_self _)
    exact h.addColumn (Column.checked_query hselect hc)
  | addJoin j =>
    cases hrun
    exact h.addJoin (hparts (.join j) (List.mem_singleton_self _))
  | joinOn kind table e =>
    cases hrun
    exact h.joinOn kind table (hparts (.expr e) (List.mem_singleton_self _))
  | joinAs kind table e =>
    obtain ⟨kind, -, rfl⟩ := Except.exists_of_map_eq_ok hrun
    exact h.joinOn kind table (hparts (.expr e) (List.mem_singleton_self _))
  | crossJoin table =>
    cases hrun
    exact h.addJoin (Join.checked_table .cross table)
  | addFilter c =>
    cases hrun
    exact h.addFilter (hparts (.condition c) (List.mem_singleton_self _))
  | filterEqual e o =>
    cases hrun
    exact h.addFilter (Condition.checked_equals hparts)
  | filterBy e o spelling =>
    obtain ⟨c, hc, rfl⟩ := Except.exists_of_map_eq_ok hrun
    exact h.addFilter (Condition.checked_of hparts hc)
  | groupBy fields =>
    cases hrun
    exact { h with }
  | addHaving c =>
    cases hrun
    exact h.addHaving (hparts (.condition c) (List.mem_singleton_self _))
  | havingBy e o spelling =>
    obtain ⟨c, hc, rfl⟩ := Except.exists_of_map_eq_ok hrun
    exact h.addHaving (Condition.checked_ofGroup hparts hc)
  | orderBy fields direction =>
    cases hrun
    exact { h with }
  | setLimit n =>
    cases hrun
    exact { h with }
  | setOffset n =>
    cases hrun
    exact { h with }
  | combine all select => exact h.combine (hparts (.select select) (List.mem_singleton_self _)) hrun

end

end Select

namespace Insert
variable {i i' : Insert}

theorem checked_addValue (h : Checked i.aliases) (field : String) {v : FieldValue}
    (hv : Checked v.aliases) : Checked (i.addValue field v).aliases := by
  obtain ⟨_, _, _, vs | select⟩ := i
  · rw [aliases, Rows.aliases, Alias.checked_flatMap] at h
    refine Alias.checked_flatMap.2 (List.forall_mem_append.2 ⟨h, ?_⟩)
    exact List.forall_mem_singleton.2 hv
  · exact Alias.checked_flatMap.2 (List.forall_mem_singleton.2 hv)

/-- A call given checked parts keeps an insert checked. -/
theorem checked_run (h : Checked i.aliases) {c : Step} (hparts : ∀ p ∈ c.parts, Checked p.aliases)
    (hrun : c.run i = .ok i') : Checked i'.aliases := by
  cases c with
  | bind d =>
    cases hrun
    exact h
  | intoTable name =>
    cases hrun
    exact h
  | addValue field v =>
    cases hrun
    exact checked_addValue h field (hparts (.fieldValue v) (List.mem_singleton_self _))
  | addValue? field v =>
    cases hrun
    cases v with
    | none => exact h
    | some v => exact checked_addValue h field Alias.checked_nil
  | addRaw field sql =>
    cases hrun
    exact checked_addValue h field Alias.checked_nil
  | setValues pairs =>
    cases hrun
    refine Alias.checked_flatMap.2 (List.forall_mem_map.2 fun p hp => ?_)
    exact hparts (.fieldValue p.2) (List.mem_map_of_mem hp)
  | fromQuery fields select =>
    change i.fromQuery fields select = .ok i' at hrun
    unfold Insert.fromQuery at hrun
    split at hrun
    · cases hrun
      exact hparts (.select select) (List.mem_singleton_self _)
    · cases hrun

end Insert

namespace Update
variable {u u' : Update}

theorem checked_iff (u : Update) :
    Checked u.aliases ↔ (∀ p ∈ u.assignments, Checked p.2.aliases) ∧
      ∀ c ∈ u.filters, Checked c.aliases := by
  rw [aliases, Alias.checked_append, Alias.checked_flatMap, Condition.aliasesAll_eq,
    Alias.checked_flatMap]

theorem checked_set (h : Checked u.aliases) (field : String) {v : FieldValue}
    (hv : Checked v.aliases) : Checked (u.set field v).aliases := by
  obtain ⟨hassignments, hfilters⟩ := u.checked_iff.1 h
  refine (checked_iff _).2 ⟨List.forall_mem_append.2 ⟨hassignments, ?_⟩, hfilters⟩
  exact List.forall_mem_singleton.2 hv

theorem checked_addFilter (h : Checked u.aliases) {c : Condition} (hc : Checked c.aliases) :
    Checked (u.addFilter c).aliases := by
  obtain ⟨hassignments, hfilters⟩ := u.checked_iff.1 h
  refine (checked_iff _).2 ⟨hassignments, List.forall_mem_append.2 ⟨hfilters, ?_⟩⟩
  exact List.forall_mem_singleton.2 hc

/-- A call given checked parts keeps an update checked. -/
theorem checked_run (h : Checked u.aliases) {c : Step} (hparts : ∀ p ∈ c.parts, Checked p.aliases)
    (hrun : c.run u = .ok u') : Checked u'.aliases := by
  cases c with
  | bind d =>
    cases hrun
    exact h
  | setTable name =>
    cases hrun
    exact h
  | set field v =>
    cases hrun
    exact checked_set h field (hparts (.fieldValue v) (List.mem_singleton_self _))
  | set? field v =>
    cases hrun
    cases v with
    | none => exact h
    | some v => exact checked_set h field Alias.checked_nil
  | setRaw field sql =>
    cases hrun
    exact checked_set h field Alias.checked_nil
  | setAll pairs =>
    cases hrun
    refine (checked_iff _).2 ⟨fun p hp => ?_, (u.checked_iff.1 h).2⟩
    exact hparts (.fieldValue p.2) (List.mem_map_of_mem hp)
  | addFilter c =>
    cases hrun
    exact checked_addFilter h (hparts (.condition c) (List.mem_singleton_self _))
  | filterEqual e o =>
    cases hrun
    exact checked_addFilter h (Condition.checked_equals hparts)
  | filterBy e o spelling =>
    obtain ⟨c, hc, rfl⟩ := Except.exists_of_map_eq_ok hrun
    exact checked_addFilter h (Condition.checked_of hparts hc)

end Update

namespace Delete
variable {x x' : Delete}

theorem checked_addFilter (h : Checked x.aliases) {c : Condition} (hc : Checked c.aliases) :
    Checked (x.addFilter c).aliases := by
  rw [aliases, Condition.aliasesAll_eq, Alias.checked_flatMap] at h ⊢
  exact List.forall_mem_append.2 ⟨h, List.forall_mem_singleton.2 hc⟩

/-- A call given checked parts keeps a delete checked. -/
theorem checked_run (h : Checked x.aliases) {c : Step} (hparts : ∀ p ∈ c.parts, Checked p.aliases)
    (hrun : c.run x = .ok x') : Checked x'.aliases := by
  cases c with
  | bind d =>
    cases hrun
    exact h
  | fromTable name =>
    cases hrun
    exact h
  | addFilter c =>
    cases hrun
    exact checked_addFilter h (hparts (.condition c) (List.mem_singleton_self _))
  | filterEqual e o =>
    cases hrun
    exact checked_addFilter h (Condition.checked_equals hparts)
  | filterBy e o spelling =>
    obtain ⟨c, hc, rfl⟩ := Except.exists_of_map_eq_ok hrun
    exact checked_addFilter h (Condition.checked_of hparts hc)

end Delete

/-- Whatever is built, no alias in it is blank but those of tables. -/
theorem Part.Built.checked {p : Part} (h : p.Built) : Checked p.aliases := by
  induction h with
  | emptySelect => exact Select.empty.checked_iff.2 Select.checked_empty
  | emptyInsert | emptyUpdate | emptyDelete => exact Alias.checked_nil
  | runSelect _ _ hrun ih ihparts =>
    exact (Select.checked_iff _).2 (((Select.checked_iff _).1 ih).run ihparts hrun)
  | runInsert _ _ hrun ih ihparts => exact Insert.checked_run ih ihparts hrun
  | runUpdate _ _ hrun ih ihparts => exact Update.checked_run ih ihparts hrun
  | runDelete _ _ hrun ih ihparts => exact Delete.checked_run ih ihparts hrun
  | columnNames s => exact Alias.checked_nil
  | columnFragment _ ih => exact Alias.checked_append.2 ⟨ih, Alias.checked_nil⟩
  | columnQuery _ hc ih => exact Column.checked_query ih hc
  | columnNamed asName _ ih => exact Column.checked_named ih asName
  | joinTable kind name => exact Join.checked_table kind name
  | joinQuery _ hj ih => exact Join.checked_query ih hj
  | joinNamed asName _ ih => exact Join.checked_named ih asName
  | joinOn _ _ ih ihe => exact Join.checked_onCondition ih ihe
  | conditionOf _ hc ih => exact Condition.checked_of ih hc
  | conditionEquals _ ih => exact Condition.checked_equals ih
  | conditionOfGroup _ hc ih => exact Condition.checked_ofGroup ih hc
  | callPush _ _ ih iha => exact Call.checked_push ih iha
  | operandNull | operandScalar | operandList | exprNames | callNamed | argumentNames
  | argumentValue | fragmentRaw | fieldValue => exact Alias.checked_nil
  | operandQuery _ ih | operandFragment _ ih | exprFragment _ ih | argumentFragment _ ih
  | fragmentCall _ ih | fragmentFilter _ ih | fragmentHaving _ ih | fragmentJoin _ ih
  | fragmentQuery _ ih | fieldFragment _ ih => exact ih

/-! ## Main result -/

namespace Statement

/-- A built statement writes its aliases, and the rest is the same under every renaming. One that is
blank is the alias of a table. -/
theorem site_of_blank_alias {s : Statement} {d : Dialect} (hs : s.Built) (hd : s.dialect = some d) :
    ∃ slots : List Slot, slots.filterMap Slot.alias? = s.aliases ∧ s.WrittenAs d slots ∧
      (∀ f, (s.rename f).WrittenAs d (slots.map (Slot.rename f))) ∧
      ∀ a ∈ s.aliases, Text.isBlankText a.name = true → a.site = .table := by
  obtain ⟨slots, halias, hrename⟩ := writtenAs_rename hd
  have hname : slots.map (Slot.rename Alias.name) = slots :=
    (List.map_congr_left fun u _ => u.rename_name).trans (List.map_id' slots)
  have hself := hrename Alias.name
  rw [s.rename_name, hname] at hself
  have hchecked := Part.Built.checked hs
  rw [s.aliases_part] at hchecked
  exact ⟨slots, halias, hself, hrename, hchecked⟩

/-- A blank alias of a column is dropped, one of a table is not. -/
theorem site_of_blank_alias_column :
    let s : Select := (Dialect.ansi.select.fromTableAs "t" "").addColumnAs (.names "x") " "
    (select s).Built ∧ (select s).dialect = some .ansi ∧ (select s).aliases = [⟨.table, ""⟩] ∧
      ∃ slots : List Slot, slots.filterMap Slot.alias? = (select s).aliases ∧
        (select s).WrittenAs .ansi slots ∧
        (∀ f, ((select s).rename f).WrittenAs .ansi (slots.map (Slot.rename f))) ∧
        ∀ a ∈ (select s).aliases, Text.isBlankText a.name = true → a.site = .table := by
  intro s
  have htable : (Part.select (Dialect.ansi.select.fromTableAs "t" "")).Built :=
    (Part.Built.ofDialect .ansi).fromTableAs "t" ""
  have hs : (select s).Built := by
    refine .runSelect (c := .addColumnAs (.names "x") " ") htable (fun p hp => ?_) rfl
    cases List.mem_singleton.1 hp
    exact .columnNames "x"
  exact ⟨hs, rfl, rfl, site_of_blank_alias hs rfl⟩

/-- A table can be under an empty alias, which is written. -/
theorem blank_alias_written :
    let s : Statement := select (Dialect.ansi.select.fromTableAs "t" "")
    s.Built ∧ ⟨.table, ""⟩ ∈ s.aliases ∧ Text.isBlankText "" = true ∧
      s.compile = .ok "SELECT * FROM \"t\" AS \"\"" := by
  intro s
  have hs : s.Built := (Part.Built.ofDialect .ansi).fromTableAs "t" ""
  have hcompile : s.compile = .ok (Piece.writeAll .ansi none (s.template .ansi).pieces) :=
    compile_eq_writeAll rfl
  have htext : Piece.writeAll .ansi none (s.template .ansi).pieces =
      "SELECT * FROM \"t\" AS \"\"" := by
    decide +kernel
  exact ⟨hs, List.mem_singleton_self _, rfl, hcompile.trans (congrArg Except.ok htext)⟩

end Statement

end PortableSql
