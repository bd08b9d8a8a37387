import PortableSql.Parameters

/-!
# Numbered parameters

The labels of the clauses have no digit, so the number in a name can be read off again
(`Clause.name_inj`). Parameters are numbered when the name at each place ends in the number of that
place, counted from one, and the counter is their number. The next name is then a new one, and
binding appends it (`Numbered.bind_eq`).
-/

namespace PortableSql

/-- The name of the parameter number `n` when it is bound for a clause. -/
def Clause.name (c : Clause) (n : Nat) : String := c.label ++ toString n

theorem Clause.filter_isDigit_name (c : Clause) (n : Nat) :
    (c.name n).toList.filter Char.isDigit = Nat.toDigits 10 n := by
  have hlabel : c.label.toList.filter Char.isDigit = [] := by cases c <;> decide
  have hdigits : (Nat.toDigits 10 n).filter Char.isDigit = Nat.toDigits 10 n :=
    List.filter_eq_self.2 fun a ha => Nat.isDigit_of_mem_toDigits (by decide) (by decide) ha
  rw [name, String.toList_append, List.filter_append, hlabel, List.nil_append,
    Nat.toString_eq_ofList_toDigits, String.toList_ofList, hdigits]

theorem Clause.name_inj {c c' : Clause} {m n : Nat} (h : c.name m = c'.name n) : m = n := by
  have hd := congrArg (fun s => s.toList.filter Char.isDigit) h
  simp only [filter_isDigit_name] at hd
  have hn := congrArg (fun ds => Nat.ofDigitChars 10 ds 0) hd
  simpa only [Nat.ofDigitChars_ten_toDigits] using hn

namespace Parameters

structure Numbered (ps : Parameters) : Prop where
  counter_eq : ps.counter = ps.size
  name_eq : ∀ (i : Nat) (h : i < ps.entries.length), ∃ c : Clause, ps.entries[i].1 = c.name (i + 1)

theorem Numbered.empty : empty.Numbered := ⟨rfl, fun i h => absurd h (Nat.not_lt_zero i)⟩

theorem Numbered.start {ps : Parameters} (h : ps.Numbered) (reset : Bool) :
    (ps.start reset).Numbered := by
  cases reset with
  | false => exact h
  | true => exact .empty

/-- Entries added at the end, each under a name of its own. -/
def extend (ps : Parameters) (es : List (String × Value)) : Parameters :=
  ⟨ps.entries ++ es, ps.counter + es.length⟩

theorem extend_nil (ps : Parameters) : ps.extend [] = ps := by simp [extend]

theorem extend_extend (ps : Parameters) (es es' : List (String × Value)) :
    (ps.extend es).extend es' = ps.extend (es ++ es') := by
  simp [extend, Nat.add_assoc]

theorem size_extend (ps : Parameters) (es : List (String × Value)) :
    (ps.extend es).size = ps.size + es.length := by
  simp [size, extend]

section
variable {ps : Parameters}

theorem Numbered.exists_of_mem (h : ps.Numbered) {s : String} (hs : s ∈ ps.names) :
    ∃ (c : Clause) (n : Nat), n ≤ ps.size ∧ s = c.name n := by
  obtain ⟨e, he, rfl⟩ := List.mem_map.1 hs
  obtain ⟨i, hi, rfl⟩ := List.mem_iff_getElem.1 he
  obtain ⟨c, hc⟩ := h.name_eq i hi
  exact ⟨c, i + 1, hi, hc⟩

/-- A number that was not given out makes a new name, whatever the clause. -/
theorem Numbered.name_notMem (h : ps.Numbered) (c : Clause) {n : Nat} (hn : ps.size < n) :
    c.name n ∉ ps.names := by
  intro hmem
  obtain ⟨c', m, hm, heq⟩ := h.exists_of_mem hmem
  have := Clause.name_inj heq
  omega

theorem Numbered.names_nodup (h : ps.Numbered) : ps.names.Nodup := by
  rw [List.nodup_iff_pairwise_ne, List.pairwise_iff_getElem]
  intro i j hi hj hij heq
  simp only [names, List.getElem_map] at heq
  obtain ⟨c, hc⟩ := h.name_eq i (by simpa [names] using hi)
  obtain ⟨c', hc'⟩ := h.name_eq j (by simpa [names] using hj)
  have := Clause.name_inj (hc.symm.trans (heq.trans hc'))
  omega

theorem Numbered.nextName_eq (h : ps.Numbered) (c : Clause) :
    ps.nextName c.label = c.name (ps.size + 1) := by
  rw [nextName, h.counter_eq, Clause.name]

/-- The new entry comes last, under the number of its place. -/
theorem Numbered.bind_eq (h : ps.Numbered) (c : Clause) (v : Value) :
    ps.bind c.label v = ps.extend [(c.name (ps.size + 1), v)] := by
  rw [bind, h.nextName_eq, put_of_notMem v (h.name_notMem c (Nat.lt_succ_self _))]
  rfl

theorem Numbered.bind (h : ps.Numbered) (c : Clause) (v : Value) :
    (ps.bind c.label v).Numbered := by
  rw [h.bind_eq c v]
  refine ⟨by simp [extend, size, h.counter_eq], fun i hi => ?_⟩
  simp only [extend] at hi ⊢
  by_cases hlt : i < ps.entries.length
  · rw [List.getElem_append_left hlt]
    exact h.name_eq i hlt
  · have hi' : i = ps.entries.length := by
      simp only [List.length_append, List.length_singleton] at hi
      omega
    subst hi'
    exact ⟨c, by simp [size]⟩

end

end Parameters

end PortableSql
