import PortableSql.Proofs.Building

/-!
# Operators of conditions

Which spellings of an operator a condition takes, and what it stores for them, is a table with one
row for each spelling and one part for each shape of the operand (`Operator.accepted`). A spelling
is read by its words (`Text.Spaced`), so blanks and letter case do not matter. Equality is checked
nowhere else and gives what the table says for `=`. What can be built at all keeps to the table, so
nothing but `IS` and `IS NOT` stands before NULL, and nothing but `IN` and `NOT IN` before a list or
a nested select.
-/

namespace PortableSql

/-! ## Words of a text -/

namespace Text

/-- The words of a text. A word goes on as long as there is no blank. -/
inductive Spaced : List Char → List (List Char) → Prop where
  | blanks {s : List Char} : (∀ c ∈ s, isBlank c = true) → Spaced s []
  | word {before w s : List Char} {ws : List (List Char)} : (∀ c ∈ before, isBlank c = true) →
      w ≠ [] → (∀ c ∈ w, isBlank c = false) → (∀ c ∈ s.head?, isBlank c = true) → Spaced s ws →
      Spaced (before ++ (w ++ s)) (w :: ws)

section
variable {c : Char} {s w before : List Char} {ws : List (List Char)}

theorem words_nil : words [] = [] := rfl

theorem words_cons (c : Char) (r : List Char) :
    words (c :: r) =
      if isBlank c then words r
      else
        match r, words r with
        | d :: _, w :: ws => if isBlank d then [c] :: w :: ws else (c :: w) :: ws
        | _, ws => [c] :: ws := rfl

theorem words_append_of_blanks (h : ∀ c ∈ before, isBlank c = true) (s : List Char) :
    words (before ++ s) = words s := by
  induction before with
  | nil => rfl
  | cons c before ih =>
    have hc : isBlank c = true := h c List.mem_cons_self
    rw [List.cons_append, words_cons, if_pos hc]
    exact ih fun d hd => h d (List.mem_cons_of_mem c hd)

theorem words_cons_of_head (hc : isBlank c = false) (h : ∀ d ∈ s.head?, isBlank d = true) :
    words (c :: s) = [c] :: words s := by
  cases s with
  | nil => rw [words_cons, if_neg (by simp [hc]), words_nil]
  | cons d r =>
    have hd : isBlank d = true := h d rfl
    rw [words_cons, if_neg (by simp [hc])]
    cases words (d :: r) with
    | nil => rfl
    | cons w ws => exact if_pos hd

theorem words_cons_cons_of_not_blank {d : Char} (hc : isBlank c = false) (hd : isBlank d = false)
    (h : words (d :: s) = w :: ws) : words (c :: d :: s) = (c :: w) :: ws := by
  rw [words_cons, if_neg (by simp [hc]), h]
  exact if_neg (by simp [hd])

/-- A word up to the next blank comes first. -/
theorem words_append_of_word (hne : w ≠ []) (hw : ∀ c ∈ w, isBlank c = false)
    (hs : ∀ c ∈ s.head?, isBlank c = true) : words (w ++ s) = w :: words s := by
  induction w with
  | nil => exact absurd rfl hne
  | cons c w ih =>
    have hc : isBlank c = false := hw c List.mem_cons_self
    cases w with
    | nil => exact words_cons_of_head hc hs
    | cons d w =>
      have hd : isBlank d = false := hw d (List.mem_cons_of_mem c List.mem_cons_self)
      have hrest := ih (List.cons_ne_nil d w) fun e he => hw e (List.mem_cons_of_mem c he)
      exact words_cons_cons_of_not_blank hc hd hrest

theorem Spaced.eq_words (h : Spaced s ws) : ws = words s := by
  induction h with
  | @blanks s hs =>
    have hwords := words_append_of_blanks hs []
    rw [List.append_nil] at hwords
    rw [hwords, words_nil]
  | word hbefore hne hw hs _ ih =>
    rw [words_append_of_blanks hbefore, words_append_of_word hne hw hs, ← ih]

/-- Blanks, a word up to the next blank, and so on. -/
theorem exists_spaced (s : List Char) : ∃ ws, Spaced s ws := by
  induction hn : s.length using Nat.strongRecOn generalizing s with
  | _ n ih =>
    have hblank : ∀ c ∈ s.takeWhile isBlank, isBlank c = true :=
      List.all_eq_true.1 List.all_takeWhile
    cases hink : s.dropWhile isBlank with
    | nil =>
      refine ⟨[], .blanks ?_⟩
      have hs := List.takeWhile_append_dropWhile (p := isBlank) (l := s)
      rw [hink, List.append_nil] at hs
      rwa [hs] at hblank
    | cons c r =>
      have hc : isBlank c = false := by
        have hhead := List.head?_dropWhile_not isBlank s
        rw [hink] at hhead
        simpa using hhead
      let w := (c :: r).takeWhile fun d => !isBlank d
      let rest := (c :: r).dropWhile fun d => !isBlank d
      have hparts : w ++ rest = c :: r := List.takeWhile_append_dropWhile
      have hne : w ≠ [] := by simp [w, hc]
      have hw : ∀ d ∈ w, isBlank d = false := fun d hd => by
        simpa using List.all_eq_true.1 List.all_takeWhile d hd
      have hrest : ∀ d ∈ rest.head?, isBlank d = true := fun d hd => by
        have hhead := List.head?_dropWhile_not (fun d => !isBlank d) (c :: r)
        rw [show ((c :: r).dropWhile fun d => !isBlank d).head? = some d from hd] at hhead
        simpa using hhead
      have hlength : rest.length < n := by
        have hs := congrArg List.length (List.takeWhile_append_dropWhile (p := isBlank) (l := s))
        have hwr := congrArg List.length hparts
        have hpos : 0 < w.length := List.length_pos_iff.2 hne
        rw [hink] at hs
        simp only [List.length_append] at hs hwr
        omega
      obtain ⟨ws, hws⟩ := ih rest.length hlength rest rfl
      refine ⟨w :: ws, ?_⟩
      rw [← List.takeWhile_append_dropWhile (p := isBlank) (l := s), hink, ← hparts]
      exact .word hblank hne hw hrest hws

theorem spaced_iff : Spaced s ws ↔ ws = words s := by
  constructor
  · exact Spaced.eq_words
  · rintro rfl
    obtain ⟨ws, hws⟩ := exists_spaced s
    rwa [← hws.eq_words]

end

end Text

/-! ## The table -/

namespace Operator

/-- The spellings of operators. -/
def spellings : List (String × Operator) := [
  ("=", equal), ("==", equal), ("!=", notEqual), ("<>", lessGreater), ("<", less),
  ("<=", lessEqual), (">", greater), (">=", greaterEqual), ("LIKE", like), ("NOT LIKE", notLike),
  ("IS", is), ("IS NOT", isNot), ("IN", oneOf), ("NOT IN", notOneOf)]

/-- The spellings that suit an operand, each with the operator that is stored. -/
def accepted : Shape → List (String × Operator)
  | .null => [
    ("=", is), ("==", is), ("!=", isNot), ("<>", isNot), ("IS", is), ("IS NOT", isNot)]
  | .list | .query => [
    ("=", oneOf), ("==", oneOf), ("!=", notOneOf), ("<>", notOneOf), ("IN", oneOf),
    ("NOT IN", notOneOf)]
  | .scalar | .fragment => spellings

theorem ofText?_eq_some_iff {s : String} {op : Operator} :
    ofText? s = some op ↔ (canonical s, op) ∈ spellings := by
  unfold ofText?
  split
  case h_15 => simp_all [spellings]
  all_goals
    rename_i h
    simp only [h, spellings, List.mem_cons, List.not_mem_nil, Prod.mk.injEq, String.reduceEq,
      true_and, false_and, false_or, or_false, Option.some.injEq]
    exact eq_comm

theorem accepted_eq_filterMap (shape : Shape) :
    accepted shape = spellings.filterMap fun p => (p.2.against? shape).map (p.1, ·) := by
  cases shape <;> rfl

theorem mem_accepted_iff {w : String} {op : Operator} {shape : Shape} :
    (w, op) ∈ accepted shape ↔
      ∃ parsed, (w, parsed) ∈ spellings ∧ parsed.against? shape = some op := by
  rw [accepted_eq_filterMap, List.mem_filterMap]
  constructor
  · rintro ⟨⟨w', parsed⟩, hmem, hmap⟩
    obtain ⟨op', hop, heq⟩ := Option.map_eq_some_iff.1 hmap
    obtain ⟨rfl, rfl⟩ := Prod.mk.inj heq
    exact ⟨parsed, hmem, hop⟩
  · rintro ⟨parsed, hmem, hop⟩
    exact ⟨(w, parsed), hmem, by rw [hop, Option.map_some]⟩

end Operator

/-! ## Conditions -/

namespace Condition

section
variable {e : Expr} {o : Operand} {s : String} {c : Condition}

/-- A condition is built if and only if the table has its spelling for the operand. -/
theorem of_eq_ok_iff :
    of e o s = .ok c ↔
      ∃ op, (Operator.canonical s, op) ∈ Operator.accepted o.shape ∧ c = ⟨e, op, o⟩ := by
  simp only [Operator.mem_accepted_iff, ← Operator.ofText?_eq_some_iff]
  rw [of]
  cases hparsed : Operator.ofText? s with
  | none => simp
  | some parsed =>
    cases hop : parsed.against? o.shape with
    | none => simp [hop]
    | some op => simp [hop, eq_comm]

theorem ofGroup_eq_ok_iff :
    ofGroup e o s = .ok c ↔ o.shape ≠ .query ∧ of e o s = .ok c := by
  cases o <;> simp [ofGroup, Operand.shape]

theorem isInvalidOperator_of_of_eq_error {err : Error} (h : of e o s = .error err) :
    err.isInvalidOperator = true := by
  rw [of] at h
  split at h
  · cases h
    rfl
  · split at h
    · cases h
      rfl
    · cases h

theorem isInvalidOperator_of_ofGroup_eq_error {err : Error} (h : ofGroup e o s = .error err) :
    err.isInvalidOperator = true := by
  cases o with
  | query select =>
    cases h
    rfl
  | _ =>
    rw [ofGroup] at h
    · exact isInvalidOperator_of_of_eq_error h
    · nofun

theorem of_equal (e : Expr) (o : Operand) : of e o "=" = .ok (equals e o) := by
  have hequal : Operator.ofText? "=" = some .equal := by decide
  simp only [of, hequal, Operator.against?_equal, equals]

end

end Condition

/-! ## Operands that may be absent -/

/-- A value that is optional `n` times over. -/
def Nested (α : Type) : Nat → Type
  | 0 => α
  | n + 1 => Option (Nested α n)

/-- The innermost value, if it is present at every depth. -/
def Nested.innermost? {α : Type} : (n : Nat) → Nested α n → Option α
  | 0, a => some a
  | _ + 1, none => none
  | n + 1, some x => innermost? n x

def Value.ofNested {α : Type} (convert : α → Value) : (n : Nat) → Nested α n → Value
  | 0 => convert
  | n + 1 => Value.ofOption (ofNested convert n)

theorem Value.ofNested_eq {α : Type} (convert : α → Value) (n : Nat) (x : Nested α n) :
    Value.ofNested convert n x = Value.ofOption convert (Nested.innermost? n x) := by
  induction n with
  | zero => rfl
  | succ n ih =>
    cases x with
    | none => rfl
    | some x => exact ih x

theorem Operand.ofValue_eq_null_iff {v : Value} : Operand.ofValue v = .null ↔ v = .null := by
  cases v <;> simp [ofValue]

/-- The operand is NULL if and only if the value is absent at some depth or null itself. -/
theorem Operand.ofValue_ofNested_eq_null_iff {α : Type} (convert : α → Value) (n : Nat)
    (x : Nested α n) :
    Operand.ofValue (Value.ofNested convert n x) = .null ↔
      ∀ a, Nested.innermost? n x = some a → convert a = .null := by
  rw [ofValue_eq_null_iff, Value.ofNested_eq]
  cases Nested.innermost? n x with
  | none => simp [Value.ofOption]
  | some a => simp [Value.ofOption]

/-! ## What can be built -/

namespace Condition

/-- NULL is compared by `IS` and `IS NOT`, and a list or a nested select by `IN` and `NOT IN`. -/
structure Suits (c : Condition) : Prop where
  null : c.operand.shape = .null → c.operator = .is ∨ c.operator = .isNot
  list : c.operand.shape = .list ∨ c.operand.shape = .query →
    c.operator = .oneOf ∨ c.operator = .notOneOf

theorem suits_of_mem_accepted {e : Expr} {o : Operand} {w : String} {op : Operator}
    (h : (w, op) ∈ Operator.accepted o.shape) : Suits ⟨e, op, o⟩ := by
  constructor
  · intro hshape
    simp only at hshape
    rw [hshape] at h
    simp only [Operator.accepted, List.mem_cons, List.not_mem_nil, or_false, Prod.mk.injEq] at h
    grind
  · rintro (hshape | hshape)
    all_goals
      simp only at hshape
      rw [hshape] at h
      simp only [Operator.accepted, List.mem_cons, List.not_mem_nil, or_false, Prod.mk.injEq] at h
      grind

theorem suits_of_of_eq_ok {e : Expr} {o : Operand} {s : String} {c : Condition}
    (h : of e o s = .ok c) : c.Suits := by
  obtain ⟨op, hop, rfl⟩ := of_eq_ok_iff.1 h
  exact suits_of_mem_accepted hop

theorem suits_of_built {c : Condition} (h : Part.Built (.condition c)) : c.Suits := by
  cases h with
  | conditionOf _ hc => exact suits_of_of_eq_ok hc
  | @conditionEquals e o _ => exact suits_of_of_eq_ok (of_equal e o)
  | conditionOfGroup _ hc => exact suits_of_of_eq_ok (ofGroup_eq_ok_iff.1 hc).2

/-- Whether a condition is built, and what it stores, is read off the table by the words of the
spelling in upper case with one blank between them. On groups a nested select is refused as well.
Whatever is refused is an invalid operator. Equality is the spelling `=`. What is absent at any
depth is NULL. Every condition that can be built suits its operand. -/
theorem operators_by_table (s : String) :
    ∃ ws, (∀ us, Text.Spaced s.toList us ↔ us = ws) ∧
      (∀ e o c, of e o s = .ok c ↔
        ∃ op, (String.ofList (Text.upper ([' '].intercalate ws)), op) ∈ Operator.accepted o.shape ∧
          c = ⟨e, op, o⟩) ∧
      (∀ e o c, ofGroup e o s = .ok c ↔ o.shape ≠ .query ∧ of e o s = .ok c) ∧
      (∀ e o err, of e o s = .error err ∨ ofGroup e o s = .error err →
        err.isInvalidOperator = true) ∧
      (∀ e o, of e o "=" = .ok (equals e o)) ∧
      (∀ (α : Type) (convert : α → Value) (n : Nat) (x : Nested α n),
        Operand.ofValue (Value.ofNested convert n x) = .null ↔
          ∀ a, Nested.innermost? n x = some a → convert a = .null) ∧
      ∀ c, Part.Built (.condition c) → c.Suits := by
  refine ⟨Text.words s.toList, fun us => Text.spaced_iff, fun e o c => of_eq_ok_iff,
    fun e o c => ofGroup_eq_ok_iff, ?_, of_equal,
    fun α convert n x => Operand.ofValue_ofNested_eq_null_iff convert n x,
    fun c hc => suits_of_built hc⟩
  rintro e o err (h | h)
  · exact isInvalidOperator_of_of_eq_error h
  · exact isInvalidOperator_of_ofGroup_eq_error h

/-- Blanks of any script between the words, letters of any case, and a list. -/
theorem operators_by_table_not_in :
    let c : Condition := ⟨.names "id", .notOneOf, .list [.int 1, .null]⟩
    Text.Spaced "nOt\u2003\u00a0in\n".toList [['n', 'O', 't'], ['i', 'n']] ∧
      of (.names "id") (.list [.int 1, .null]) "nOt\u2003\u00a0in\n" = .ok c ∧
      Part.Built (.condition c) ∧ c.Suits := by
  intro c
  have hspaced : Text.Spaced "nOt\u2003\u00a0in\n".toList [['n', 'O', 't'], ['i', 'n']] :=
    Text.spaced_iff.2 (by decide)
  obtain ⟨ws, hws, hof, -, -, -, -, hsuits⟩ := operators_by_table "nOt\u2003\u00a0in\n"
  have heq : [['n', 'O', 't'], ['i', 'n']] = ws := (hws _).1 hspaced
  subst heq
  have hc : of (.names "id") (.list [.int 1, .null]) "nOt\u2003\u00a0in\n" = .ok c :=
    (hof _ _ _).2 ⟨.notOneOf, by decide, rfl⟩
  have hbuilt : Part.Built (.condition c) := by
    refine .conditionOf (fun p hp => ?_) hc
    simp only [parts, List.mem_cons, List.not_mem_nil, or_false] at hp
    rcases hp with rfl | rfl
    · exact .exprNames "id"
    · exact .operandList [.int 1, .null]
  exact ⟨hspaced, hc, hbuilt, hsuits c hbuilt⟩

end Condition

end PortableSql
