import Mathlib.Data.List.DropRight
import PortableSql.Proofs.Fields.Pieces

/-!
# Lists of fields put together

A list of fields adds the entries of its parts, one part after the other, whatever stands beside the
comma between them (`Select.entries_append_comma`). A direction after an entry changes nothing: it
is the last word behind a blank, so it is dropped, and what is left is the entry without the blanks
around it.
-/

namespace PortableSql

/-! ## Trimming -/

namespace Text

section
variable {e s gap w : List Char}

theorem trimEnd_eq_rdropWhile (s : List Char) : trimEnd s = s.rdropWhile isBlank := rfl

theorem trimEnd_append_of_blanks (s : List Char) (h : ∀ c ∈ gap, isBlank c = true) :
    trimEnd (s ++ gap) = trimEnd s := by
  rw [trimEnd, List.reverse_append, List.dropWhile_append_of_pos, trimEnd]
  exact fun c hc => h c (List.mem_reverse.1 hc)

theorem trimEnd_trim (s : List Char) : trimEnd (trim s) = trim s :=
  List.rdropWhile_idempotent isBlank (trimStart s)

/-- A word at the end keeps all blanks before it. -/
theorem trimEnd_append_of_word (s : List Char) (hne : w ≠ []) (h : ∀ c ∈ w, isBlank c = false) :
    trimEnd (s ++ w) = s ++ w := by
  rw [trimEnd_eq_rdropWhile, List.rdropWhile_eq_self_iff]
  intro hsw
  rw [List.getLast_append_of_ne_nil hsw hne, h _ (List.getLast_mem hne)]
  exact Bool.false_ne_true

theorem trimStart_append (h : ∃ c ∈ e, isBlank c = false) (s : List Char) :
    trimStart (e ++ s) = trimStart e ++ s := by
  obtain ⟨c, hc, hink⟩ := h
  have hne : (e.dropWhile isBlank).isEmpty = false := by
    rw [List.isEmpty_eq_false_iff]
    intro hnil
    rw [List.dropWhile_eq_nil_iff.1 hnil c hc] at hink
    cases hink
  rw [trimStart, List.dropWhile_append, hne]
  rfl

/-- A text that is not blank is trimmed as before when a word is put behind it. -/
theorem exists_trim_append (he : ∃ c ∈ e, isBlank c = false) (hgap : gap ≠ [])
    (hblank : ∀ c ∈ gap, isBlank c = true) (hne : w ≠ []) (hw : ∀ c ∈ w, isBlank c = false) :
    ∃ gap', gap' ≠ [] ∧ (∀ c ∈ gap', isBlank c = true) ∧
      trim (e ++ gap ++ w) = trim e ++ (gap' ++ w) := by
  obtain ⟨after, hafter, hafterBlank⟩ := exists_eq_trimEnd_append (trimStart e)
  refine ⟨after ++ gap, ?_, ?_, ?_⟩
  · exact List.append_ne_nil_of_right_ne_nil after hgap
  · intro c hc
    rcases List.mem_append.1 hc with hc | hc
    · exact hafterBlank c hc
    · exact hblank c hc
  · calc trim (e ++ gap ++ w)
      _ = trimEnd (trimStart e ++ gap ++ w) := by
        rw [trim, List.append_assoc, trimStart_append he, List.append_assoc]
      _ = trimStart e ++ gap ++ w := trimEnd_append_of_word _ hne hw
      _ = trim e ++ (after ++ gap ++ w) := by
        rw [trim, ← List.append_assoc, ← List.append_assoc, ← hafter]

theorem exists_of_isBlankText_eq_false {s : String} (h : isBlankText s = false) :
    ∃ c ∈ s.toList, isBlank c = false := by
  simpa [isBlankText] using h

theorem isBlankText_iff {s : String} :
    isBlankText s = true ↔ ∀ c ∈ s.toList, isBlank c = true := List.all_eq_true

end

end Text

namespace Select

/-! ## Directions inside a field -/

/-- A direction stands behind a blank at the end. -/
def EndsInDirection (f : List Char) : Prop :=
  ∃ before c w, f = before ++ c :: w ∧ Text.isBlank c = true ∧ isDirection w = true

section
variable {f gap w : List Char}

theorem isBlank_of_isDirection (h : isDirection w = true) :
    ∀ c ∈ w, Text.isBlank c = false := fun c hc =>
  Text.isBlank_of_isWord ((isWord_of_isDirection h).2 c hc)

theorem stripDirection_of_not_endsInDirection (h : ¬EndsInDirection f) : stripDirection f = f := by
  rcases stripDirection_eq_or f with hstrip | ⟨gap, w, hf, hgap, hblank, hw⟩
  · exact hstrip
  · obtain ⟨gap, c, rfl⟩ := List.eq_nil_or_concat gap |>.resolve_left hgap
    refine absurd ⟨stripDirection f ++ gap, c, w, ?_, ?_, hw⟩ h
    · simpa using hf
    · exact hblank c (by simp)

/-- A direction behind a trimmed field is dropped with the blanks before it. -/
theorem stripDirection_append (hne : f ≠ []) (htrim : Text.trimEnd f = f) (hgap : gap ≠ [])
    (hblank : ∀ c ∈ gap, Text.isBlank c = true) (hw : isDirection w = true) :
    stripDirection (f ++ (gap ++ w)) = f := by
  let ink := fun c => !Text.isBlank c
  have hink : ∀ c ∈ w.reverse, ink c = true := fun c hc => by
    simp [ink, isBlank_of_isDirection hw c (List.mem_reverse.1 hc)]
  -- read from the end, the word stops at the last character of the gap
  obtain ⟨gap, c, rfl⟩ := (List.eq_nil_or_concat gap).resolve_left hgap
  have hstop : ¬ink c = true := by simp [ink, hblank c (by simp)]
  have hreverse : (f ++ (gap.concat c ++ w)).reverse = w.reverse ++ c :: (f ++ gap).reverse := by
    simp
  have hword : ((f ++ (gap.concat c ++ w)).reverse.takeWhile ink).reverse = w := by
    rw [hreverse, List.takeWhile_append_of_pos hink, List.takeWhile_cons_of_neg hstop,
      List.append_nil, List.reverse_reverse]
  have hhead : ((f ++ (gap.concat c ++ w)).reverse.dropWhile ink).reverse = f ++ gap.concat c := by
    rw [hreverse, List.dropWhile_append_of_pos hink, List.dropWhile_cons_of_neg hstop]
    simp
  have htrimmed : Text.trimEnd (f ++ gap.concat c) = f := by
    rw [Text.trimEnd_append_of_blanks f hblank, htrim]
  rw [stripDirection, hword, hhead, htrimmed, hw, if_pos]
  simp [hne]

end

/-! ## Entries -/

section
variable {a b : String}

theorem entries_append_comma (a b : String) : entries (a ++ "," ++ b) = entries a ++ entries b := by
  have htext : (a ++ "," ++ b).toList = a.toList ++ ',' :: b.toList := by simp
  simp only [entries, Text.pieces_eq_splitOn, htext, List.splitOn_append_cons_self, List.map_append,
    List.filter_append]

/-- A text without commas is one entry, if it is not blank. -/
theorem entries_of_notMem (h : ',' ∉ a.toList) :
    entries a = [Text.trim a.toList].filter fun f => !f.isEmpty := by
  rw [entries, Text.pieces_eq_splitOn, List.splitOn_eq_singleton h, List.map_singleton]

theorem trim_ne_nil (h : Text.isBlankText a = false) : Text.trim a.toList ≠ [] := by
  obtain ⟨c, hc, hink⟩ := Text.exists_of_isBlankText_eq_false h
  exact List.ne_nil_of_mem (Text.mem_trim hink hc)

theorem entries_of_not_blank (h : ',' ∉ a.toList) (hblank : Text.isBlankText a = false) :
    entries a = [Text.trim a.toList] := by
  rw [entries_of_notMem h]
  simp [trim_ne_nil hblank]

theorem entries_of_blank (h : Text.isBlankText a = true) : entries a = [] := by
  have hblank := Text.isBlankText_iff.1 h
  have hcomma : ',' ∉ a.toList := fun hc => absurd (hblank ',' hc) (by decide)
  have hstart : Text.trimStart a.toList = [] := List.dropWhile_eq_nil_iff.2 hblank
  rw [entries_of_notMem hcomma, Text.trim, hstart]
  rfl

/-- With a direction behind it an entry is still one entry, and the direction is dropped again. -/
theorem exists_entries_append_direction {e gap w : String} (hcomma : ',' ∉ e.toList)
    (he : Text.isBlankText e = false) (hgap : gap ≠ "") (hblank : Text.isBlankText gap = true)
    (hw : isDirection w.toList = true) :
    ∃ f, entries (e ++ gap ++ w) = [f] ∧ stripDirection f = Text.trim e.toList := by
  have hink := Text.exists_of_isBlankText_eq_false he
  have hgapBlank := Text.isBlankText_iff.1 hblank
  have hgapNe : gap.toList ≠ [] := fun h => hgap (String.toList_inj.1 h)
  have hword := isWord_of_isDirection hw
  have htext : (e ++ gap ++ w).toList = e.toList ++ gap.toList ++ w.toList := by simp
  have hcomma' : ',' ∉ (e ++ gap ++ w).toList := by
    rw [htext, List.mem_append, List.mem_append, not_or, not_or]
    exact ⟨⟨hcomma, fun h => absurd (hgapBlank ',' h) (by decide)⟩,
      fun h => absurd (hword.2 ',' h) (by decide)⟩
  have he' : Text.isBlankText (e ++ gap ++ w) = false := by
    obtain ⟨c, hc, hink⟩ := hink
    refine Bool.eq_false_iff.2 fun hall => ?_
    rw [Text.isBlankText_iff.1 hall c (by simp [hc])] at hink
    cases hink
  obtain ⟨gap', hne, hblank', htrim⟩ := Text.exists_trim_append hink hgapNe hgapBlank hword.1
    (isBlank_of_isDirection hw)
  refine ⟨_, entries_of_not_blank hcomma' he', ?_⟩
  rw [htext, htrim]
  exact stripDirection_append (trim_ne_nil he) (Text.trimEnd_trim e.toList) hne hblank' hw

end

/-- A list of fields may be given in parts, cut at any comma, and blank parts count for nothing. An
entry has the direction of the call, whether another one is written behind it or not. -/
theorem orderBy_groupBy_compose (s : Select) (dir : Direction) :
    (∀ a b : String,
      s.orderBy (a ++ "," ++ b) dir = (s.orderBy a dir).orderBy b dir ∧
        s.groupBy (a ++ "," ++ b) = (s.groupBy a).groupBy b) ∧
    (∀ a : String, Text.isBlankText a = true → s.orderBy a dir = s ∧ s.groupBy a = s) ∧
    ∀ e gap w : String, ',' ∉ e.toList → Text.isBlankText e = false →
      ¬EndsInDirection (Text.trim e.toList) → gap ≠ "" → Text.isBlankText gap = true →
      isDirection w.toList = true →
      s.orderBy (e ++ gap ++ w) dir = s.orderBy e dir ∧
        (s.orderBy e dir).order = s.order ++ [⟨String.ofList (Text.trim e.toList), dir⟩] := by
  refine ⟨fun a b => ⟨?_, ?_⟩, fun a ha => ⟨?_, ?_⟩, ?_⟩
  · simp only [orderBy, entries_append_comma, List.map_append, List.append_assoc]
  · simp only [groupBy, entries_append_comma, List.map_append, List.append_assoc]
  · rw [orderBy, entries_of_blank ha, List.map_nil, List.append_nil]
    cases s
    rfl
  · rw [groupBy, entries_of_blank ha, List.map_nil, List.append_nil]
    cases s
    rfl
  · intro e gap w hcomma he hends hgap hblank hw
    obtain ⟨f, hf, hstrip⟩ := exists_entries_append_direction hcomma he hgap hblank hw
    simp only [orderBy, entries_of_not_blank hcomma he, hf, List.map_singleton, hstrip,
      stripDirection_of_not_endsInDirection hends, and_self]

/-- An entry that is a direction word itself, before a direction in other letters. -/
theorem orderBy_groupBy_compose_direction :
    let e := " desc\u00a0"
    let gap := "\u2003 "
    ',' ∉ e.toList ∧ Text.isBlankText e = false ∧ ¬EndsInDirection (Text.trim e.toList) ∧
      gap ≠ "" ∧ Text.isBlankText gap = true ∧ isDirection "aSc".toList = true ∧
      Text.isBlankText "\t" = true ∧
      empty.orderBy (e ++ gap ++ "aSc") .descending = empty.orderBy e .descending ∧
      (empty.orderBy e .descending).order = [⟨"desc", .descending⟩] ∧
      empty.groupBy ("\t" ++ "," ++ "a") = empty.groupBy "a" := by
  intro e gap
  have hcomma : ',' ∉ e.toList := by decide
  have he : Text.isBlankText e = false := by decide
  have hends : ¬EndsInDirection (Text.trim e.toList) := by
    rintro ⟨before, c, w, htrim, hc, -⟩
    have hink : ∀ c ∈ Text.trim e.toList, (!Text.isBlank c) = true :=
      List.all_eq_true.1 (by decide)
    have hlast := hink c (by simp [htrim])
    rw [hc] at hlast
    cases hlast
  have hgap : gap ≠ "" := by decide
  have hblank : Text.isBlankText gap = true := by decide
  have hw : isDirection "aSc".toList = true := by decide
  have htab : Text.isBlankText "\t" = true := by decide
  obtain ⟨hcompose, hnothing, hdirection⟩ := orderBy_groupBy_compose empty .descending
  obtain ⟨hsame, horder⟩ := hdirection e gap "aSc" hcomma he hends hgap hblank hw
  refine ⟨hcomma, he, hends, hgap, hblank, hw, htab, hsame, ?_, ?_⟩
  · rw [horder]
    decide
  · rw [(hcompose "\t" "a").2, (hnothing "\t" htab).2]

end Select

end PortableSql
