import PortableSql.Proofs.Operators

/-!
# Conditions that exclude

A condition counts as an exclusion if its spelling is an inequality or has the word NOT, whatever
the operand makes of the operator (`Condition.isNegated_iff_excludes`). The one exception is NOT
LIKE, which excludes and does not count (`Condition.not_isNegated_notLike`).
-/

namespace PortableSql

/-! ## The words of an operator -/

namespace Text

section
variable {c : Char} {s : List Char} {ws : List (List Char)}

theorem toUpper_letter_ne_blank : ∀ n < 123, 97 ≤ n → (Char.ofNat n).toUpper ≠ ' ' := by
  decide

theorem toUpper_ne_blank (h : c ≠ ' ') : c.toUpper ≠ ' ' := by
  by_cases hlower : 97 ≤ c.toNat ∧ c.toNat ≤ 122
  · have hletter := toUpper_letter_ne_blank c.toNat (by omega) hlower.1
    rwa [Char.ofNat_toNat] at hletter
  · have hsame : c.toUpper = c := dif_neg hlower
    rwa [hsame]

theorem Spaced.not_blank (h : Spaced s ws) : ∀ w ∈ ws, ∀ c ∈ w, isBlank c = false := by
  induction h with
  | blanks => nofun
  | word _ _ hw _ _ ih =>
    intro w hmem
    rcases List.mem_cons.1 hmem with rfl | hmem
    · exact hw
    · exact ih w hmem

theorem upper_intercalate (ws : List (List Char)) :
    upper ([' '].intercalate ws) = [' '].intercalate (ws.map upper) := by
  induction ws with
  | nil => rfl
  | cons w ws ih =>
    cases ws with
    | nil => simp [upper]
    | cons v ws =>
      simp only [upper, List.map_cons, List.intercalate_cons_cons, List.map_append] at ih ⊢
      rw [ih]
      rfl

/-- The words in upper case are read back from the text they are put together to. -/
theorem Spaced.splitOn_upper (h : Spaced s ws) (hne : ws ≠ []) :
    (upper ([' '].intercalate ws)).splitOn ' ' = ws.map upper := by
  rw [upper_intercalate]
  refine List.splitOn_intercalate ' ' ?_ (by simpa using hne)
  intro l hl hmem
  obtain ⟨w, hw, rfl⟩ := List.mem_map.1 hl
  obtain ⟨c, hc, hupper⟩ := List.mem_map.1 hmem
  refine toUpper_ne_blank ?_ hupper
  rintro rfl
  exact absurd (h.not_blank w hw ' ' hc) (by decide)

end

end Text

/-! ## Operators that exclude -/

namespace Operator

/-- Words that exclude: an inequality, or any words with NOT. -/
def Excludes (ws : List (List Char)) : Prop :=
  ws = ["!=".toList] ∨ ws = ["<>".toList] ∨ "NOT".toList ∈ ws

instance (ws : List (List Char)) : Decidable (Excludes ws) :=
  inferInstanceAs (Decidable (_ ∨ _ ∨ _))

/-- In the table only NOT LIKE has words that exclude and an operator that does not count. -/
theorem isNegated_iff_of_mem_accepted {w : String} {op : Operator} {shape : Shape}
    (h : (w, op) ∈ accepted shape) :
    op.isNegated = true ↔ Excludes (w.toList.splitOn ' ') ∧
      w.toList.splitOn ' ' ≠ ["NOT".toList, "LIKE".toList] := by
  have hrows : (accepted shape).all (fun p => p.2.isNegated = true ↔
      Excludes (p.1.toList.splitOn ' ') ∧
        p.1.toList.splitOn ' ' ≠ ["NOT".toList, "LIKE".toList]) = true := by
    cases shape <;> decide
  exact of_decide_eq_true (List.all_eq_true.1 hrows (w, op) h)

theorem ne_empty_of_mem_accepted {w : String} {op : Operator} {shape : Shape}
    (h : (w, op) ∈ accepted shape) : w ≠ "" := by
  have hrows : (accepted shape).all (fun p => p.1 ≠ "") = true := by
    cases shape <;> decide
  exact of_decide_eq_true (List.all_eq_true.1 hrows (w, op) h)

end Operator

namespace Condition

/-- A condition counts as an exclusion exactly if the words of its spelling in upper case exclude
and are not NOT LIKE. -/
theorem isNegated_iff_excludes {e : Expr} {o : Operand} {s : String} {c : Condition}
    (h : of e o s = .ok c ∨ ofGroup e o s = .ok c) {ws : List (List Char)}
    (hws : Text.Spaced s.toList ws) :
    c.operator.isNegated = true ↔
      Operator.Excludes (ws.map Text.upper) ∧
        ws.map Text.upper ≠ ["NOT".toList, "LIKE".toList] := by
  have hof : of e o s = .ok c := h.elim id fun hgroup => (ofGroup_eq_ok_iff.1 hgroup).2
  obtain ⟨op, hop, rfl⟩ := of_eq_ok_iff.1 hof
  have hcanonical : (Operator.canonical s).toList = Text.upper ([' '].intercalate ws) := by
    rw [Operator.canonical, String.toList_ofList, hws.eq_words]
  have hne : ws ≠ [] := by
    rintro rfl
    exact Operator.ne_empty_of_mem_accepted hop (String.toList_inj.1 hcanonical)
  have hwords : (Operator.canonical s).toList.splitOn ' ' = ws.map Text.upper := by
    rw [hcanonical, hws.splitOn_upper hne]
  rw [← hwords]
  exact Operator.isNegated_iff_of_mem_accepted hop

/-- An inequality against a list, which is written NOT IN. -/
theorem isNegated_iff_excludes_list :
    let c : Condition := ⟨.names "id", .notOneOf, .list [.int 1]⟩
    of (.names "id") (.list [.int 1]) "\u2003<>" = .ok c ∧
      Text.Spaced "\u2003<>".toList ["<>".toList] ∧ c.operator.isNegated = true := by
  intro c
  have hc : of (.names "id") (.list [.int 1]) "\u2003<>" = .ok c :=
    of_eq_ok_iff.2 ⟨.notOneOf, by decide, rfl⟩
  have hspaced : Text.Spaced "\u2003<>".toList ["<>".toList] := Text.spaced_iff.2 (by decide)
  exact ⟨hc, hspaced, (isNegated_iff_excludes (.inl hc) hspaced).2 (by decide)⟩

/-- NOT LIKE has the word NOT, and its condition does not count as an exclusion. -/
theorem not_isNegated_notLike :
    let c : Condition := ⟨.names "name", .notLike, .scalar (.text "x%")⟩
    of (.names "name") (.scalar (.text "x%")) "NOT LIKE" = .ok c ∧
      Text.Spaced "NOT LIKE".toList ["NOT".toList, "LIKE".toList] ∧
      Operator.Excludes (["NOT".toList, "LIKE".toList].map Text.upper) ∧
      c.operator.isNegated = false :=
  ⟨of_eq_ok_iff.2 ⟨.notLike, by decide, rfl⟩, Text.spaced_iff.2 (by decide), by decide, rfl⟩

end Condition

end PortableSql
