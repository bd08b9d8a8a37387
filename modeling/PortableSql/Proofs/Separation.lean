import Mathlib.Data.List.Chain
import PortableSql.Proofs.Template.Writing

/-!
# Values stand apart

Whatever surrounds a value, the character before it is a blank or an opening parenthesis, and the
character after it is a blank, a comma or a closing parenthesis, unless the text ends there
(`Template.Apart.standsApart`). The texts of a template are read as marks, one for each
character and one for each value, and a relation between neighbouring marks is kept by each way of
putting templates together (`Statement.apart`).
-/

namespace PortableSql

/-- A character of the text, or the place of a value. -/
inductive Mark where
  | char (c : Char)
  | value

namespace Mark

/-- The marks that may stand before a value. -/
def opens : Mark → Bool
  | char c => c == ' ' || c == '('
  | value => false

/-- The marks that may stand after a value. -/
def closes : Mark → Bool
  | char c => c == ' ' || c == ',' || c == ')'
  | value => false

/-- What a value asks of its neighbours; two characters may always meet. -/
def Beside (x y : Mark) : Prop := (y = value → x.opens = true) ∧ (x = value → y.closes = true)

variable {x y : Mark}

theorem beside_of_opens (h : x.opens = true) : Beside x y := by
  refine ⟨fun _ => h, ?_⟩
  rintro rfl
  cases h

theorem beside_of_closes (h : y.closes = true) : Beside x y := by
  refine ⟨?_, fun _ => h⟩
  rintro rfl
  cases h

theorem ne_value_of_closes (h : x.closes = true) : x ≠ value := by
  rintro rfl
  cases h

end Mark

open Mark (Beside)

def Piece.marks : Piece → List Mark
  | text s => s.toList.map .char
  | value _ _ => [.value]

namespace Template

def marks (t : Template) : List Mark := t.pieces.flatMap Piece.marks

/-- Inside the template no value touches its neighbours; it may begin or end with one. -/
def Tame (t : Template) : Prop := t.marks.IsChain Beside

/-- A template that does not begin with a value, so that any text may stand before it. -/
structure Apart (t : Template) : Prop where
  tame : t.Tame
  head : Mark.value ∉ t.marks.head?

/-- A template that may stand right after a value. -/
structure Follows (t : Template) : Prop where
  tame : t.Tame
  head : ∀ x ∈ t.marks.head?, x.closes = true

/-- A template that a value may stand right after. -/
structure Precedes (t : Template) : Prop where
  tame : t.Tame
  last : t.failure = none → ∃ x ∈ t.marks.getLast?, x.opens = true

theorem Follows.apart {t : Template} (h : t.Follows) : t.Apart :=
  ⟨h.tame, fun hv => Mark.ne_value_of_closes (h.head _ hv) rfl⟩

theorem marks_append_of_failure {s : Template} {e : Error} (h : s.failure = some e)
    (t : Template) : (s ++ t).marks = s.marks := by
  rw [append_of_failure h]

theorem marks_append_of_success {s : Template} (h : s.failure = none) (t : Template) :
    (s ++ t).marks = s.marks ++ t.marks := by
  rw [append_of_success h, marks, List.flatMap_append, marks, marks]

/-! ## Texts -/

section
variable (s : String)

theorem marks_text : (text s).marks = s.toList.map .char := by
  rw [marks, text, List.flatMap_singleton, Piece.marks]

theorem tame_text : (text s).Tame := by
  rw [Tame, marks_text, List.isChain_map]
  -- two characters may always meet
  have hall (l : List Char) : l.IsChain fun a b => Beside (.char a) (.char b) := by
    induction l with
    | nil => exact .nil
    | cons a l ih => exact ih.cons fun b _ => ⟨nofun, nofun⟩
  exact hall _

theorem apart_text : (text s).Apart := by
  refine ⟨tame_text s, ?_⟩
  rw [marks_text, List.head?_map]
  simp

theorem apart_fail (e : Error) : (fail e).Apart := ⟨.nil, nofun⟩

theorem tame_value (clause : Clause) (v : Value) : (value clause v).Tame := .singleton _

variable {s}

theorem follows_text (h : (s.toList.head?.all fun c => (Mark.char c).closes) = true) :
    (text s).Follows := by
  refine ⟨tame_text s, ?_⟩
  rw [marks_text, List.head?_map]
  simpa [Option.all_eq_true] using h

theorem precedes_text {c : Char} (h : s.toList.getLast? = some c)
    (hc : (Mark.char c).opens = true) : (text s).Precedes := by
  refine ⟨tame_text s, fun _ => ⟨.char c, ?_, hc⟩⟩
  rw [marks_text, List.getLast?_map, h]
  rfl

theorem precedes_text_append (x : String) {c : Char} (h : s.toList.getLast? = some c)
    (hc : (Mark.char c).opens = true) : (text (x ++ s)).Precedes := by
  refine precedes_text (c := c) ?_ hc
  rw [String.toList_append, List.getLast?_append, h, Option.some_or]

end

/-! ## Putting templates together -/

section
variable {s t : Template} {ts : List Template}

theorem Tame.append (hs : s.Tame) (ht : t.Tame)
    (h : s.failure = none → ∀ x ∈ s.marks.getLast?, ∀ y ∈ t.marks.head?, Beside x y) :
    (s ++ t).Tame := by
  cases hf : s.failure with
  | some e =>
    rw [Tame, marks_append_of_failure hf]
    exact hs
  | none =>
    rw [Tame, marks_append_of_success hf]
    exact List.IsChain.append hs ht (h hf)

/-- An appended template begins like the first one, unless that is empty. -/
theorem mem_head?_append {x : Mark} (h : x ∈ (s ++ t).marks.head?) :
    x ∈ s.marks.head? ∨ s.failure = none ∧ s.marks = [] ∧ x ∈ t.marks.head? := by
  cases hf : s.failure with
  | some e =>
    rw [marks_append_of_failure hf] at h
    exact .inl h
  | none =>
    rw [marks_append_of_success hf] at h
    cases hm : s.marks with
    | nil =>
      rw [hm, List.nil_append] at h
      exact .inr ⟨rfl, rfl, h⟩
    | cons y l =>
      rw [hm, List.cons_append, List.head?_cons] at h
      exact .inl h

theorem Apart.append (hs : s.Apart) (ht : t.Follows) : (s ++ t).Apart := by
  refine ⟨hs.tame.append ht.tame fun _ x _ y hy => Mark.beside_of_closes (ht.head y hy),
    fun hv => ?_⟩
  obtain hv | ⟨-, -, hv⟩ := mem_head?_append hv
  · exact hs.head hv
  · exact ht.apart.head hv

theorem Follows.append (hs : s.Follows) (ht : t.Follows) : (s ++ t).Follows := by
  refine ⟨(hs.apart.append ht).tame, fun x hx => ?_⟩
  obtain hx | ⟨-, -, hx⟩ := mem_head?_append hx
  · exact hs.head x hx
  · exact ht.head x hx

/-- Any text may stand before a template that does not begin with a value. -/
theorem Apart.text_append (ht : t.Apart) (x : String) : (text x ++ t).Apart := by
  constructor
  · refine (tame_text x).append ht.tame fun _ a ha b hb => ⟨?_, ?_⟩
    · rintro rfl
      exact absurd hb ht.head
    · rintro rfl
      rw [marks_text, List.getLast?_map] at ha
      simp at ha
  · intro hv
    obtain hv | ⟨-, -, hv⟩ := mem_head?_append hv
    · exact (apart_text x).head hv
    · exact ht.head hv

theorem Precedes.append_tame (hs : s.Precedes) (ht : t.Tame) : (s ++ t).Tame := by
  refine hs.tame.append ht fun hf x hx y _ => ?_
  obtain ⟨x', hx', hopens⟩ := hs.last hf
  cases Option.mem_unique hx hx'
  exact Mark.beside_of_opens hopens

/-- What stands before a value is not empty, so it decides how the whole begins. -/
theorem Precedes.mem_head?_append {x : Mark} (hs : s.Precedes) (h : x ∈ (s ++ t).marks.head?) :
    x ∈ s.marks.head? := by
  obtain h | ⟨hf, hm, -⟩ := Template.mem_head?_append h
  · exact h
  · obtain ⟨y, hy, -⟩ := hs.last hf
    rw [hm] at hy
    cases hy

theorem Apart.append_tame (hs : s.Apart) (hp : s.Precedes) (ht : t.Tame) : (s ++ t).Apart :=
  ⟨hp.append_tame ht, fun hv => hs.head (hp.mem_head?_append hv)⟩

theorem Follows.append_tame (hs : s.Follows) (hp : s.Precedes) (ht : t.Tame) :
    (s ++ t).Follows :=
  ⟨hp.append_tame ht, fun x hx => hs.head x (hp.mem_head?_append hx)⟩

theorem Tame.append_precedes (hs : s.Tame) (ht : t.Follows) (hp : t.Precedes) :
    (s ++ t).Precedes := by
  refine ⟨hs.append ht.tame fun _ x _ y hy => Mark.beside_of_closes (ht.head y hy), fun hf => ?_⟩
  rw [failure_append, Option.or_eq_none_iff] at hf
  obtain ⟨x, hx, hopens⟩ := hp.last hf.2
  refine ⟨x, ?_, hopens⟩
  rw [marks_append_of_success hf.1, List.getLast?_append, Option.mem_def.1 hx]
  rfl

theorem Follows.concat (h : ∀ t ∈ ts, t.Follows) : (concat ts).Follows := by
  induction ts with
  | nil => exact ⟨.nil, nofun⟩
  | cons t ts ih =>
    rw [List.forall_mem_cons] at h
    exact h.1.append (ih h.2)

theorem Tame.separated {sep : String} (hf : (text sep).Follows) (hp : (text sep).Precedes)
    (h : ∀ t ∈ ts, t.Tame) : (separated sep ts).Tame := by
  fun_induction Template.separated sep ts with
  | case1 => exact .nil
  | case2 t => exact h t (List.mem_singleton_self t)
  | case3 t u ts ih =>
    rw [List.forall_mem_cons] at h
    exact (h.1.append_precedes hf hp).append_tame (ih h.2)

theorem follows_comma : (text ", ").Follows := follows_text (by decide)

theorem precedes_comma : (text ", ").Precedes := precedes_text (c := ' ') (by decide) rfl

theorem Tame.list (h : ∀ t ∈ ts, t.Tame) : (Template.separated ", " ts).Tame :=
  .separated follows_comma precedes_comma h

theorem Tame.parenthesized (h : t.Tame) : t.parenthesized.Apart := by
  have hopen : (text "(").Precedes := precedes_text (c := '(') (by decide) rfl
  have hclose : (text ")").Follows := follows_text (by decide)
  exact ((apart_text _).append_tame hopen h).append hclose

theorem Follows.clause (keyword : String) (h : ∀ t ∈ ts, t.Tame) :
    (clause keyword ts).Follows := by
  have hf : (text (" " ++ keyword ++ " ")).Follows := follows_text (by simp [Mark.closes])
  have hp : (text (" " ++ keyword ++ " ")).Precedes :=
    precedes_text_append _ (c := ' ') (by decide) rfl
  have hand : (Template.separated " AND " ts).Tame :=
    .separated (follows_text (by decide)) (precedes_text (c := ' ') (by decide) rfl) h
  unfold Template.clause
  split
  · exact ⟨.nil, nofun⟩
  · exact hf.append_tame hp hand

theorem Tame.columns (h : ∀ t ∈ ts, t.Tame) : (columns ts).Tame := by
  unfold Template.columns
  split
  · exact tame_text _
  · exact .list h

end

end Template

open Template

theorem Operator.tame_scalarTemplate (op : Operator) {t : Template} (h : t.Tame) :
    (op.scalarTemplate t).Tame := by
  unfold scalarTemplate
  split
  · exact h.parenthesized.tame
  · exact h

theorem Operator.follows_text (op : Operator) :
    (Template.text (" " ++ op.text ++ " ")).Follows :=
  Template.follows_text (by simp [Mark.closes])

theorem Operator.precedes_text (op : Operator) :
    (Template.text (" " ++ op.text ++ " ")).Precedes :=
  precedes_text_append _ (c := ' ') (by decide) rfl

theorem follows_aliasText (d : Dialect) (asName : Option String) :
    (text (aliasText d asName)).Follows := by
  refine follows_text ?_
  cases asName with
  | none => rfl
  | some a => simp [aliasText, Mark.closes]

namespace Select

theorem precedes_headText (distinct : Bool) : (text (headText distinct)).Precedes := by
  cases distinct with
  | false => exact precedes_text (c := ' ') (by decide) rfl
  | true => exact precedes_text (c := ' ') (by decide) rfl

theorem follows_groupText (d : Dialect) (groups : List String) :
    (text (groupText d groups)).Follows := by
  refine follows_text ?_
  unfold groupText
  split
  · rfl
  · simp [Mark.closes]

theorem follows_orderText (d : Dialect) (order : List SortKey) :
    (text (orderText d order)).Follows := by
  refine follows_text ?_
  unfold orderText
  split
  · rfl
  · simp [Mark.closes]

theorem follows_limitText (limit offset : Option Nat) :
    (text (limitText limit offset)).Follows := by
  refine follows_text ?_
  cases limit <;> cases offset <;> simp [limitText, Mark.closes]

end Select

theorem Branch.follows_joiner (all : Bool) : (text (Branch.joiner all)).Follows := by
  cases all <;> exact follows_text (by decide)

theorem Branch.precedes_joiner (all : Bool) : (text (Branch.joiner all)).Precedes := by
  cases all <;> exact precedes_text (c := ' ') (by decide) rfl

/-! ## Selects and fragments -/

mutual

theorem Select.apart (d : Dialect) : ∀ s : Select, (s.template d).Apart
  | ⟨_, none, _, _, _, _, _, _, _, _, _, _⟩ => by
    rw [Select.template]
    exact apart_fail _
  | ⟨_, some source, distinct, columns, joins, filters, groups, havings, order, limit, offset,
      branches⟩ => by
    have hcolumns := Tame.columns (Column.tame_all d columns)
    have hfrom : (text " FROM ").Precedes := precedes_text (c := ' ') (by decide) rfl
    have hjoins := Follows.concat (Join.follows_all d joins)
    have hfilters := Follows.clause "WHERE" (Condition.tame_all d .filter filters)
    have hhavings := Follows.clause "HAVING" (Condition.tame_all d .having havings)
    have hbranches := Follows.concat (Branch.follows_all d (Column.count columns) branches)
    have hhead := (apart_text _).append_tame (Select.precedes_headText distinct) hcolumns
    have hbefore := hhead.tame.append_precedes (follows_text (by decide)) hfrom
    have hsource := (hhead.append (follows_text (by decide))).append_tame hbefore
      (source.apart d).tame
    rw [Select.template]
    exact ((((((hsource.append hjoins).append hfilters).append
      (Select.follows_groupText d groups)).append hhavings).append
      (Select.follows_orderText d order)).append (Select.follows_limitText limit offset)).append
      hbranches

theorem Source.apart (d : Dialect) : ∀ s : Source, (s.template d).Apart
  | .table _ _ => by
    rw [Source.template]
    exact (apart_text _).append (follows_aliasText d _)
  | .query select _ => by
    rw [Source.template]
    exact (select.apart d).tame.parenthesized.append (follows_aliasText d _)

theorem Column.tame_all (d : Dialect) :
    ∀ cs : List Column, ∀ t ∈ Column.templates d cs, t.Tame
  | [] => by
    rw [Column.templates]
    exact List.forall_mem_nil _
  | c :: cs => by
    rw [Column.templates, List.forall_mem_cons]
    exact ⟨(c.apart d).tame, Column.tame_all d cs⟩

theorem Column.apart (d : Dialect) : ∀ c : Column, (c.template d).Apart
  | ⟨.names _, _⟩ => by
    rw [Column.template]
    exact (apart_text _).append (follows_aliasText d _)
  | ⟨.fragment f, _⟩ => by
    rw [Column.template]
    exact (f.apart d).append (follows_aliasText d _)
  | ⟨.query _, none⟩ => by
    rw [Column.template]
    exact apart_fail _
  | ⟨.query select, some _⟩ => by
    rw [Column.template]
    exact (select.apart d).tame.parenthesized.append (follows_aliasText d _)

theorem Join.follows_all (d : Dialect) :
    ∀ js : List Join, ∀ t ∈ Join.templates d js, t.Follows
  | [] => by
    rw [Join.templates]
    exact List.forall_mem_nil _
  | j :: js => by
    rw [Join.templates, List.forall_mem_cons]
    refine ⟨?_, Join.follows_all d js⟩
    exact (follows_text (by decide)).append_tame (precedes_text (c := ' ') (by decide) rfl)
      (j.apart d).tame

theorem Join.apart (d : Dialect) : ∀ j : Join, (j.template d).Apart
  | ⟨kind, target, asName, conditions⟩ => by
    have hconditions :
        ∀ t ∈ if kind = .cross then [] else Expr.templates d conditions, t.Tame := by
      split
      · exact List.forall_mem_nil _
      · exact Expr.tame_all d conditions
    have htarget := (target.apart d asName).text_append (kind.text ++ " JOIN ")
    rw [Join.template]
    exact (htarget.append (follows_aliasText d asName)).append (.clause "ON" hconditions)

theorem JoinTarget.apart (d : Dialect) :
    ∀ (t : JoinTarget) (asName : Option String), (t.template d asName).Apart
  | .table _, _ => by
    rw [JoinTarget.template]
    exact apart_text _
  | .query _, none => by
    rw [JoinTarget.template]
    exact apart_fail _
  | .query select, some _ => by
    rw [JoinTarget.template]
    exact (select.apart d).tame.parenthesized

theorem Expr.tame_all (d : Dialect) : ∀ es : List Expr, ∀ t ∈ Expr.templates d es, t.Tame
  | [] => by
    rw [Expr.templates]
    exact List.forall_mem_nil _
  | e :: es => by
    rw [Expr.templates, List.forall_mem_cons]
    exact ⟨(e.apart d _).tame, Expr.tame_all d es⟩

theorem Condition.tame_all (d : Dialect) (clause : Clause) :
    ∀ cs : List Condition, ∀ t ∈ Condition.templates d clause cs, t.Tame
  | [] => by
    rw [Condition.templates]
    exact List.forall_mem_nil _
  | c :: cs => by
    rw [Condition.templates, List.forall_mem_cons]
    exact ⟨(c.apart d clause).tame, Condition.tame_all d clause cs⟩

theorem Condition.apart (d : Dialect) (clause : Clause) :
    ∀ c : Condition, (c.template d clause).Apart
  | ⟨field, op, operand⟩ => by
    have hfield := field.apart d []
    rw [Condition.template]
    exact (hfield.append op.follows_text).append_tame
      (hfield.tame.append_precedes op.follows_text op.precedes_text) (operand.tame d clause op)

theorem Operand.tame (d : Dialect) (clause : Clause) (op : Operator) :
    ∀ o : Operand, (o.template d clause op).Tame
  | .null => by
    rw [Operand.template]
    exact tame_text _
  | .scalar v => by
    rw [Operand.template]
    exact op.tame_scalarTemplate (tame_value clause v)
  | .list vs => by
    have hvs : ∀ t ∈ vs.map (value clause), t.Tame :=
      List.forall_mem_map.2 fun v _ => tame_value clause v
    rw [Operand.template]
    exact (Tame.list hvs).parenthesized.tame
  | .query select => by
    rw [Operand.template]
    exact (select.apart d).tame.parenthesized.tame
  | .fragment f => by
    rw [Operand.template]
    exact (f.apart d).tame

theorem Expr.apart (d : Dialect) (bare : List String) : ∀ e : Expr, (e.template d bare).Apart
  | .names _ => by
    rw [Expr.template]
    exact apart_text _
  | .fragment f => by
    rw [Expr.template]
    exact f.apart d

theorem Call.apart (d : Dialect) : ∀ c : Call, (c.template d).Apart
  | ⟨_, arguments⟩ => by
    have harguments := Tame.list (Argument.tame_all d arguments)
    rw [Call.template]
    exact harguments.parenthesized.text_append _

theorem Argument.tame_all (d : Dialect) :
    ∀ as : List Argument, ∀ t ∈ Argument.templates d as, t.Tame
  | [] => by
    rw [Argument.templates]
    exact List.forall_mem_nil _
  | a :: as => by
    rw [Argument.templates, List.forall_mem_cons]
    exact ⟨a.tame d, Argument.tame_all d as⟩

theorem Argument.tame (d : Dialect) : ∀ a : Argument, (a.template d).Tame
  | .names _ => by
    rw [Argument.template]
    exact tame_text _
  | .value v => by
    rw [Argument.template]
    exact tame_value _ v
  | .fragment f => by
    rw [Argument.template]
    exact (f.apart d).tame

theorem Fragment.apart (d : Dialect) : ∀ f : Fragment, (f.template d).Apart
  | .raw _ => by
    rw [Fragment.template]
    exact apart_text _
  | .call c => by
    rw [Fragment.template]
    exact c.apart d
  | .filter c => by
    rw [Fragment.template]
    exact c.apart d .filter
  | .having c => by
    rw [Fragment.template]
    exact c.apart d .having
  | .join j => by
    rw [Fragment.template]
    exact j.apart d
  | .query select => by
    rw [Fragment.template]
    exact (select.apart d).tame.parenthesized

theorem Branch.follows_all (d : Dialect) (width : Nat) :
    ∀ bs : List Branch, ∀ t ∈ Branch.templates d width bs, t.Follows
  | [] => by
    rw [Branch.templates]
    exact List.forall_mem_nil _
  | ⟨all, select⟩ :: bs => by
    rw [Branch.templates, List.forall_mem_cons]
    refine ⟨?_, Branch.follows_all d width bs⟩
    split
    · exact (Branch.follows_joiner all).append_tame (Branch.precedes_joiner all)
        (select.apart d).tame
    · exact ⟨.nil, nofun⟩

end

/-! ## Statements -/

section
variable (d : Dialect)

theorem FieldValue.tame (clause : Clause) (v : FieldValue) : (v.template d clause).Tame := by
  cases v with
  | value v => exact tame_value clause v
  | fragment f => exact (f.apart d).tame

theorem Rows.follows (r : Rows) : (r.template d).Follows := by
  cases r with
  | values vs =>
    have hvs : ∀ t ∈ vs.map (FieldValue.template d .insert), t.Tame :=
      List.forall_mem_map.2 fun v _ => v.tame d .insert
    exact (follows_text (by decide)).append_tame (precedes_text (c := ' ') (by decide) rfl)
      (Tame.list hvs).parenthesized.tame
  | query select =>
    exact (follows_text (by decide)).append_tame (precedes_text (c := ' ') (by decide) rfl)
      (select.apart d).tame

theorem Insert.apart (i : Insert) : (i.template d).Apart := by
  unfold Insert.template
  split
  · exact apart_fail _
  · split
    · exact apart_fail _
    · exact (apart_text _).append (i.rows.follows d)

theorem Update.tame_assignmentTemplate (p : String × FieldValue) :
    (Update.assignmentTemplate d p).Tame :=
  (precedes_text_append _ (c := ' ') (by decide) rfl).append_tame (p.2.tame d .update)

theorem Update.apart (u : Update) : (u.template d).Apart := by
  have hassignments : ∀ t ∈ u.assignments.map (Update.assignmentTemplate d), t.Tame :=
    List.forall_mem_map.2 fun p _ => Update.tame_assignmentTemplate d p
  unfold Update.template
  split
  · exact apart_fail _
  · split
    · exact apart_fail _
    · exact ((apart_text _).append_tame (precedes_text_append _ (c := ' ') (by decide) rfl)
        (.list hassignments)).append (.clause "WHERE" (Condition.tame_all d .filter u.filters))

theorem Delete.apart (x : Delete) : (x.template d).Apart := by
  unfold Delete.template
  split
  · exact apart_fail _
  · exact (apart_text _).append (.clause "WHERE" (Condition.tame_all d .filter x.filters))

theorem Statement.apart (s : Statement) : (s.template d).Apart := by
  cases s with
  | select s => exact s.apart d
  | insert i => exact i.apart d
  | update u => exact u.apart d
  | delete x => exact x.apart d

end

/-! ## The text around a value -/

section
variable (d : Dialect)

/-- Text that ends in a character ends in it whatever was written for the values. -/
theorem Piece.getLast?_writeAll {c : Option Parameters} {ps : List Piece} {ch : Char}
    (h : (ps.flatMap Piece.marks).getLast? = some (.char ch)) :
    (Piece.writeAll d c ps).toList.getLast? = some ch := by
  induction ps using List.reverseRecOn with
  | nil => simp at h
  | append_singleton ps p ih =>
    rw [List.flatMap_append, List.flatMap_singleton, List.getLast?_append] at h
    rw [Piece.writeAll_append, String.toList_append, List.getLast?_append]
    cases p with
    | value clause v => cases h
    | text s =>
      simp only [marks, List.getLast?_map] at h
      simp only [writeAll, write, String.append_empty]
      cases hs : s.toList.getLast? with
      | none =>
        rw [hs] at h
        rw [Option.none_or]
        exact ih h
      | some ch' =>
        rw [hs] at h
        cases h
        rfl

/-- Text that begins with a character begins with it whatever is written for the values. -/
theorem Piece.head?_writeAll {c : Option Parameters} {ps : List Piece} {ch : Char}
    (h : (ps.flatMap Piece.marks).head? = some (.char ch)) :
    (Piece.writeAll d c ps).toList.head? = some ch := by
  induction ps with
  | nil => simp at h
  | cons p ps ih =>
    rw [List.flatMap_cons, List.head?_append] at h
    rw [Piece.writeAll, String.toList_append, List.head?_append]
    cases p with
    | value clause v => cases h
    | text s =>
      simp only [marks, List.head?_map] at h
      simp only [write, pass]
      cases hs : s.toList.head? with
      | none =>
        rw [hs] at h
        rw [Option.none_or]
        exact ih h
      | some ch' =>
        rw [hs] at h
        cases h
        rfl

theorem Piece.writeAll_eq_empty {c : Option Parameters} {ps : List Piece}
    (h : ps.flatMap Piece.marks = []) : Piece.writeAll d c ps = "" := by
  induction ps with
  | nil => rfl
  | cons p ps ih =>
    rw [List.flatMap_cons, List.append_eq_nil_iff] at h
    cases p with
    | value clause v => cases h.1
    | text s =>
      have hs : s = "" := by simpa [marks] using h.1
      rw [writeAll, write, pass, ih h.2, hs, String.empty_append]

end

/-- In `t` the text `m` stands between `before` and `after`, and touches neither. -/
structure StandsApart (before m after t : String) : Prop where
  eq_append : t = before ++ m ++ after
  before_last : before.toList.getLast? = some ' ' ∨ before.toList.getLast? = some '('
  /-- At the end of the text there is no such character. -/
  after_head : ∀ c ∈ after.toList.head?, c = ' ' ∨ c = ',' ∨ c = ')'

/-- What follows continues neither a string literal nor a number. -/
theorem StandsApart.not_continued {before m after t : String} (h : StandsApart before m after t) :
    ∀ c ∈ after.toList.head?, c ≠ '\'' ∧ c.isDigit = false := by
  intro c hc
  rcases h.after_head c hc with rfl | rfl | rfl <;> decide

/-- From any context the text of a value stands apart in what the template writes. -/
theorem Template.Apart.standsApart {t : Template} (h : t.Apart) (d : Dialect)
    (c : Option Parameters) {ps qs : List Piece} {clause : Clause} {v : Value}
    (ht : t.pieces = ps ++ .value clause v :: qs) :
    StandsApart (Piece.writeAll d c ps) ((Piece.value clause v).write d (Piece.passAll c ps))
      (Piece.writeAll d (Piece.passAll c (ps ++ [.value clause v])) qs)
      (Piece.writeAll d c t.pieces) := by
  have hmarks : t.marks = ps.flatMap Piece.marks ++ .value :: qs.flatMap Piece.marks := by
    rw [marks, ht, List.flatMap_append, List.flatMap_cons, Piece.marks, List.singleton_append]
  have htame := h.tame
  rw [Tame, hmarks, List.isChain_append, List.isChain_cons] at htame
  obtain ⟨-, ⟨hafter, -⟩, hbefore⟩ := htame
  refine ⟨?_, ?_, ?_⟩
  · rw [ht, Piece.writeAll_append, Piece.writeAll, Piece.passAll, Piece.passAll,
      List.foldl_append, List.foldl_cons, List.foldl_nil, String.append_assoc]
  · cases hlast : (ps.flatMap Piece.marks).getLast? with
    | none =>
      -- nothing before the value: the template would begin with it
      rw [List.getLast?_eq_none_iff] at hlast
      rw [hlast] at hmarks
      exact absurd (by rw [hmarks]; rfl) h.head
    | some x =>
      have hopens := (hbefore x hlast .value rfl).1 rfl
      cases x with
      | value => cases hopens
      | char ch =>
        rw [Piece.getLast?_writeAll d hlast]
        simpa [Mark.opens] using hopens
  · cases hhead : (qs.flatMap Piece.marks).head? with
    | none =>
      rw [Piece.writeAll_eq_empty d (List.head?_eq_none_iff.1 hhead)]
      intro ch hch
      cases hch
    | some y =>
      have hcloses := (hafter y hhead).2 rfl
      cases y with
      | value => cases hcloses
      | char ch =>
        rw [Piece.head?_writeAll d hhead]
        simpa [Mark.closes, or_assoc] using hcloses

/-! ## Main result -/

/-- Wherever the pieces of a statement have a value, its literal or marker stands apart in the text
that the statement compiles to, in either way and into any parameters. -/
theorem Statement.value_standsApart {s : Statement} {d : Dialect} (hs : s.dialect = some d)
    {ps qs : List Piece} {clause : Clause} {v : Value}
    (hv : (s.template d).pieces = ps ++ .value clause v :: qs) :
    (∀ t, s.compile = .ok t →
      let after := Piece.writeAll d none qs
      StandsApart (Piece.writeAll d none ps) (d.literal v) after t ∧
        ∀ c ∈ after.toList.head?, c ≠ '\'' ∧ c.isDigit = false) ∧
    ∀ params reset t, (s.compileWith params reset).1 = .ok t →
      let start := d.context (params.start reset)
      let after := Piece.writeAll d (Piece.passAll start (ps ++ [.value clause v])) qs
      StandsApart (Piece.writeAll d start ps)
          ((Piece.value clause v).write d (Piece.passAll start ps)) after t ∧
        ∀ c ∈ after.toList.head?, c ≠ '\'' ∧ c.isDigit = false := by
  constructor
  · intro t ht
    rw [compile_eq_writeAll hs] at ht
    obtain ⟨-, rfl⟩ := Template.outcome_eq_ok_iff.1 ht
    have happart := (s.apart d).standsApart d none hv
    rw [Piece.passAll_none, Piece.passAll_none] at happart
    exact ⟨happart, happart.not_continued⟩
  · intro params reset t ht
    rw [fst_compileWith hs] at ht
    obtain ⟨-, rfl⟩ := Template.outcome_eq_ok_iff.1 ht
    have happart := (s.apart d).standsApart d (d.context (params.start reset)) hv
    exact ⟨happart, happart.not_continued⟩

/-- A numbered marker between two pieces of raw SQL that are digits. -/
theorem Statement.value_standsApart_delete :
    let d : Dialect := { Dialect.ansi with markers := .indexed }
    let s := delete (d.delete.fromTable "t"
      |>.filterEqual (.fragment (.raw "1")) (.scalar (.int 7))
      |>.filterEqual (.fragment (.raw "2")) .null)
    let ps : List Piece :=
      [.text ("DELETE FROM " ++ d.quoteExpression [] "t"), .text " WHERE ", .text "1", .text " = "]
    let qs : List Piece := [.text " AND ", .text "2", .text " IS ", .text "NULL"]
    s.dialect = some d ∧ (s.template d).pieces = ps ++ .value .filter (.int 7) :: qs ∧
      ∃ t, (s.compileWith .empty true).1 = .ok t ∧
        StandsApart (Piece.writeAll d (some .empty) ps) "$1" " AND 2 IS NULL" t := by
  intro d s ps qs
  have hv : (s.template d).pieces = ps ++ .value .filter (.int 7) :: qs := rfl
  have hok : ∃ t, (s.compileWith .empty true).1 = .ok t := ⟨_, rfl⟩
  obtain ⟨t, ht⟩ := hok
  exact ⟨rfl, hv, t, ht, ((value_standsApart (s := s) rfl hv).2 .empty true t ht).1⟩

end PortableSql
