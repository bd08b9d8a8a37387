import PortableSql.Dialect.Basic

/-!
# Bare words as a set

The bare words of a dialect are kept in a list that is tested before a word is added and filtered
when one is removed. Up to case it is a set: no word is in it twice, and after any calls a word is
in it exactly if the last call that named it added it (`Dialect.bareWords_after`). What one call
does to a word is `WordCall.isBare_run`.
-/

namespace PortableSql

/-- A call that changes the bare words of a dialect. -/
inductive WordCall where
  | add (words : List String)
  | remove (word : String)

namespace WordCall

def run (d : Dialect) : WordCall → Dialect
  | add words => d.addBareWords words
  | remove word => d.removeBareWord word

/-- Whether a call names a word, in any case. -/
def mentions (w : String) : WordCall → Bool
  | add words => words.any fun v => Text.sameWord v.toList w.toList
  | remove word => Text.sameWord word.toList w.toList

def adds : WordCall → Bool
  | add _ => true
  | remove _ => false

end WordCall

namespace Dialect

/-- The dialect after calls. -/
def after (d : Dialect) (cs : List WordCall) : Dialect := cs.foldl WordCall.run d

def presets : List Dialect := [ansi, postgres, mysql, sqlite, sqlServer]

/-- No bare word is listed twice, in whatever case. -/
def Distinct (d : Dialect) : Prop :=
  d.bareWords.Pairwise fun v w => Text.sameWord v.toList w.toList = false

instance (d : Dialect) : Decidable d.Distinct :=
  inferInstanceAs (Decidable (d.bareWords.Pairwise _))

/-! ## What a call does to a word -/

section
variable {d : Dialect} {v w : String}

theorem isBare_iff :
    d.isBare w = true ↔ ∃ u ∈ d.bareWords, Text.sameWord u.toList w.toList = true :=
  List.any_eq_true

theorem isBare_of_sameWord (h : d.isBare v = true)
    (hvw : Text.sameWord v.toList w.toList = true) : d.isBare w = true := by
  obtain ⟨u, hu, huv⟩ := isBare_iff.1 h
  exact isBare_iff.2 ⟨u, hu, Text.sameWord_trans huv hvw⟩

theorem isBare_addBareWord (d : Dialect) (v w : String) :
    (d.addBareWord v).isBare w = (d.isBare w || Text.sameWord v.toList w.toList) := by
  unfold addBareWord
  split
  · next hv =>
    -- the word is there already, and so is every word that is the same
    cases hvw : Text.sameWord v.toList w.toList with
    | false => rw [Bool.or_false]
    | true => rw [isBare_of_sameWord hv hvw, Bool.or_true]
  · simp [isBare, List.any_append]

theorem isBare_addBareWords (d : Dialect) (words : List String) (w : String) :
    (d.addBareWords words).isBare w =
      (d.isBare w || words.any fun v => Text.sameWord v.toList w.toList) := by
  induction words generalizing d with
  | nil => rw [addBareWords, List.foldl_nil, List.any_nil, Bool.or_false]
  | cons v vs ih =>
    have hrest := ih (d.addBareWord v)
    rw [addBareWords] at hrest
    rw [addBareWords, List.foldl_cons, hrest, isBare_addBareWord, List.any_cons, Bool.or_assoc]

theorem isBare_removeBareWord (d : Dialect) (v w : String) :
    (d.removeBareWord v).isBare w = (d.isBare w && !Text.sameWord v.toList w.toList) := by
  rw [Bool.eq_iff_iff, Bool.and_eq_true, Bool.not_eq_true', isBare_iff, isBare_iff]
  constructor
  · rintro ⟨u, hu, huw⟩
    obtain ⟨hmem, huv⟩ := List.mem_filter.1 hu
    refine ⟨⟨u, hmem, huw⟩, Bool.eq_false_iff.2 fun hvw => ?_⟩
    rw [Text.sameWord_trans huw (Text.sameWord_symm hvw)] at huv
    cases huv
  · rintro ⟨⟨u, hmem, huw⟩, hvw⟩
    refine ⟨u, List.mem_filter.2 ⟨hmem, ?_⟩, huw⟩
    rw [Bool.not_eq_true']
    refine Bool.eq_false_iff.2 fun huv => ?_
    rw [Text.sameWord_trans (Text.sameWord_symm huv) huw] at hvw
    cases hvw

/-! ## No word twice -/

theorem Distinct.addBareWord (h : d.Distinct) (v : String) : (d.addBareWord v).Distinct := by
  unfold Dialect.addBareWord
  split
  · exact h
  · next hv =>
    refine List.pairwise_append.2 ⟨h, List.pairwise_singleton _ v, fun u hu w hw => ?_⟩
    obtain rfl := List.mem_singleton.1 hw
    exact Bool.eq_false_iff.2 fun huw => hv (isBare_iff.2 ⟨u, hu, huw⟩)

theorem Distinct.addBareWords (h : d.Distinct) (words : List String) :
    (d.addBareWords words).Distinct := by
  unfold Dialect.addBareWords
  induction words generalizing d with
  | nil => exact h
  | cons v vs ih => exact ih (h.addBareWord v)

theorem Distinct.removeBareWord (h : d.Distinct) (v : String) : (d.removeBareWord v).Distinct :=
  h.filter _

theorem distinct_ansi : ansi.Distinct := by
  decide

theorem distinct_of_mem_presets (h : d ∈ presets) : d.Distinct := by
  simp only [presets, List.mem_cons, List.not_mem_nil, or_false] at h
  rcases h with rfl | rfl | rfl | rfl | rfl
  · exact distinct_ansi
  -- the others start from the words of the first and add some
  · exact Distinct.addBareWords distinct_ansi ["ILIKE", "RETURNING"]
  · exact Distinct.addBareWords distinct_ansi ["REGEXP", "DIV"]
  · exact Distinct.addBareWords distinct_ansi ["GLOB"]
  · exact Distinct.addBareWords distinct_ansi ["TOP"]

end

end Dialect

/-! ## Runs of calls -/

namespace WordCall

/-- A call that names a word decides whether it is bare, and another call does not change that. -/
theorem isBare_run (c : WordCall) (d : Dialect) (w : String) :
    (c.run d).isBare w = if c.mentions w then c.adds else d.isBare w := by
  cases c with
  | add words =>
    rw [run, mentions, adds, Dialect.isBare_addBareWords]
    cases words.any fun v => Text.sameWord v.toList w.toList with
    | true => rw [Bool.or_true, if_pos rfl]
    | false => rw [Bool.or_false, if_neg Bool.false_ne_true]
  | remove word =>
    rw [run, mentions, adds, Dialect.isBare_removeBareWord]
    cases Text.sameWord word.toList w.toList with
    | true => rw [Bool.not_true, Bool.and_false, if_pos rfl]
    | false => rw [Bool.not_false, Bool.and_true, if_neg Bool.false_ne_true]

theorem distinct_run {d : Dialect} (h : d.Distinct) (c : WordCall) : (c.run d).Distinct := by
  cases c with
  | add words => exact h.addBareWords words
  | remove word => exact h.removeBareWord word

end WordCall

namespace Dialect

theorem Distinct.after {d : Dialect} (h : d.Distinct) (cs : List WordCall) :
    (d.after cs).Distinct := by
  unfold Dialect.after
  induction cs generalizing d with
  | nil => exact h
  | cons c cs ih => exact ih (WordCall.distinct_run h c)

/-- The last call that names a word decides. -/
theorem isBare_after (d : Dialect) (cs : List WordCall) (w : String) :
    (d.after cs).isBare w =
      match (cs.filter (WordCall.mentions w)).getLast? with
      | some c => c.adds
      | none => d.isBare w := by
  unfold Dialect.after
  induction cs generalizing d with
  | nil => rfl
  | cons c cs ih =>
    rw [List.foldl_cons, ih, c.isBare_run]
    cases hc : c.mentions w with
    | true =>
      rw [List.filter_cons_of_pos hc, List.getLast?_cons]
      cases (cs.filter (WordCall.mentions w)).getLast? <;> rfl
    | false => rw [List.filter_cons_of_neg (by simp [hc]), if_neg Bool.false_ne_true]

/-- After any calls on a preset no bare word is listed twice, and a word is bare exactly if the last
call that named it, in any case, added it, or none named it and the preset has it. -/
theorem bareWords_after {p : Dialect} (hp : p ∈ presets) (cs : List WordCall) :
    (p.after cs).Distinct ∧
      ∀ w, (p.after cs).isBare w =
        match (cs.filter (WordCall.mentions w)).getLast? with
        | some c => c.adds
        | none => p.isBare w :=
  ⟨(distinct_of_mem_presets hp).after cs, p.isBare_after cs⟩

/-- A word added twice in one call and then removed, and one removed and then added again. -/
theorem bareWords_after_case :
    let cs := [.add ["Row", "ROW"], .remove "div", .remove "rOW", .add ["end", "Div"]]
    mysql ∈ presets ∧ (mysql.after cs).Distinct ∧ (mysql.after cs).isBare "row" = false ∧
      (mysql.after cs).isBare "DIV" = true := by
  intro cs
  have hp : mysql ∈ presets := List.mem_cons_of_mem _ (List.mem_cons_of_mem _ List.mem_cons_self)
  obtain ⟨hdistinct, hbare⟩ := bareWords_after hp cs
  refine ⟨hp, hdistinct, ?_, ?_⟩
  · rw [hbare]
    decide
  · rw [hbare]
    decide

end Dialect

end PortableSql
