import Mathlib.Data.List.Induction
import PortableSql.Proofs.Numbering

/-!
# Names from any labels

Parameters may be bound under other labels than those of the clauses. A name is a label with a
number after it, and nothing marks where the number begins: `a1` with 1 and `a` with 11 are the same
name. Labels are separate when none of them is another one with a number after it, as are those of
the clauses. Then the place of a name can be read off it (`SeparateLabels.number_inj`) and binding
appends, whatever came before; for labels that are not separate some run gives a name twice and
loses a value.
-/

namespace PortableSql

/-- No label is another one with a number after it. -/
def SeparateLabels (L : String → Prop) : Prop :=
  ∀ label n, L label → 0 < n → ¬ L (label ++ toString n)

/-- What the number of a name begins with, short of all of it, is a number again. -/
theorem exists_toDigits_eq_of_append {n : Nat} (hn : 0 < n) {front back : List Char}
    (hfront : front ≠ []) (h : Nat.toDigits 10 n = front ++ back) :
    ∃ k, 0 < k ∧ Nat.toDigits 10 k = front := by
  induction back using List.reverseRecOn generalizing n with
  | nil => exact ⟨n, hn, by rw [h, List.append_nil]⟩
  | append_singleton back c ih =>
    rw [← List.append_assoc] at h
    by_cases hlt : n < 10
    · rw [Nat.toDigits_of_lt_base hlt] at h
      have hlen := congrArg List.length h
      have := List.length_pos_iff.2 hfront
      simp only [List.length_append, List.length_singleton] at hlen
      omega
    · rw [Nat.toDigits_of_base_le (by decide) (by omega)] at h
      exact ih (by omega) (List.append_inj' h rfl).1

theorem SeparateLabels.number_le_of_append {L : String → Prop} (hL : SeparateLabels L)
    {label label' : String} {m n : Nat} (hlabel : L label) (hlabel' : L label') (hm : 0 < m)
    {cs : List Char} (hcs : label'.toList = label.toList ++ cs)
    (hdigits : Nat.toDigits 10 m = cs ++ Nat.toDigits 10 n) : m = n := by
  by_cases hnil : cs = []
  · rw [hnil, List.nil_append] at hdigits
    have hn := congrArg (fun ds => Nat.ofDigitChars 10 ds 0) hdigits
    simpa only [Nat.ofDigitChars_ten_toDigits] using hn
  · obtain ⟨k, hk, rfl⟩ := exists_toDigits_eq_of_append hm hnil hdigits
    have heq : label' = label ++ toString k := by
      rw [← String.toList_inj, hcs, String.toList_append, Nat.toString_eq_ofList_toDigits,
        String.toList_ofList]
    exact absurd (heq ▸ hlabel') (hL label k hlabel hk)

/-- Separate labels with numbers after them are one name for one number only. -/
theorem SeparateLabels.number_inj {L : String → Prop} (hL : SeparateLabels L)
    {label label' : String} {m n : Nat} (hlabel : L label) (hlabel' : L label') (hm : 0 < m)
    (hn : 0 < n) (h : label ++ toString m = label' ++ toString n) : m = n := by
  have hchars := congrArg String.toList h
  simp only [String.toList_append, Nat.toString_eq_ofList_toDigits, String.toList_ofList] at hchars
  obtain ⟨cs, hcs, hdigits⟩ | ⟨cs, hcs, hdigits⟩ := List.append_eq_append_iff.1 hchars
  · exact hL.number_le_of_append hlabel hlabel' hm hcs hdigits
  · exact (hL.number_le_of_append hlabel' hlabel hn hcs hdigits).symm

theorem Clause.separateLabels : SeparateLabels fun label => ∃ c : Clause, c.label = label := by
  rintro _ n ⟨c, rfl⟩ _ ⟨c', hlabel⟩
  have hdigits := c.filter_isDigit_name n
  have hnone : c'.label.toList.filter Char.isDigit = [] := by cases c' <;> decide
  rw [name, ← hlabel, hnone] at hdigits
  exact Nat.toDigits_ne_nil hdigits.symm

namespace Parameters

/-! ## Runs -/

/-- A call that changes parameters. -/
inductive Use where
  | bind (label : String) (v : Value)
  | clear

def Use.apply (ps : Parameters) : Use → Parameters
  | bind label v => ps.bind label v
  | clear => empty

/-- All labels are among `L`. -/
def Use.Within (L : String → Prop) : Use → Prop
  | bind label _ => L label
  | clear => True

/-- The parameters after a run that started with none. -/
def afterUses (us : List Use) : Parameters := us.foldl Use.apply empty

/-- What binding is meant to do: the name is new, the values under the other names stay, and the
position is that of a new last entry, which has the name and the value. -/
structure Appends (ps : Parameters) (label : String) (v : Value) : Prop where
  nextName_notMem : ps.nextName label ∉ ps.names
  get?_eq : ∀ name ∈ ps.names, (ps.bind label v).get? name = ps.get? name
  size_eq : (ps.bind label v).size = ps.size + 1
  counter_eq : (ps.bind label v).counter = (ps.bind label v).size
  entry_eq : (ps.bind label v).entries[(ps.bind label v).size - 1]? = some (ps.nextName label, v)

section
variable {ps : Parameters} {label : String} (v : Value)

theorem entries_bind_of_notMem (h : ps.nextName label ∉ ps.names) :
    (ps.bind label v).entries = ps.entries ++ [(ps.nextName label, v)] := put_of_notMem v h

theorem Appends.of_notMem (hc : ps.counter = ps.size) (h : ps.nextName label ∉ ps.names) :
    ps.Appends label v := by
  have hentries := entries_bind_of_notMem v h
  have hsize : (ps.bind label v).size = ps.size + 1 := by
    rw [size, hentries, List.length_append, List.length_singleton, size]
  refine ⟨h, fun name hname => ?_, hsize, ?_, ?_⟩
  · obtain ⟨e, he, rfl⟩ := List.mem_map.1 hname
    have hfound : (ps.entries.find? fun e' => e'.1 == e.1).isSome = true :=
      List.find?_isSome.2 ⟨e, he, beq_self_eq_true e.1⟩
    rw [get?, hentries, List.find?_append, Option.or_of_isSome hfound, get?]
  · rw [hsize, ← hc]
    rfl
  · rw [hsize, Nat.add_sub_cancel, hentries, size, List.getElem?_concat_length]

/-- A name that is stored stays stored. -/
theorem mem_names_bind {name : String} (h : name ∈ ps.names) :
    name ∈ (ps.bind label v).names := by
  by_cases hmem : ps.nextName label ∈ ps.names
  · rw [names, bind, map_fst_put_of_mem v hmem]
    exact h
  · rw [names, entries_bind_of_notMem v hmem, List.map_append]
    exact List.mem_append_left _ h

theorem nextName_mem_names_bind : ps.nextName label ∈ (ps.bind label v).names := by
  by_cases hmem : ps.nextName label ∈ ps.names
  · exact mem_names_bind v hmem
  · rw [names, entries_bind_of_notMem v hmem, List.map_append]
    exact List.mem_append_right _ (List.mem_singleton_self _)

end

/-! ## Separate labels -/

section
variable {L : String → Prop} {ps : Parameters}

/-- The name at each place is a label among `L` with the number of the place after it. -/
structure NumberedWithin (L : String → Prop) (ps : Parameters) : Prop where
  counter_eq : ps.counter = ps.size
  name_eq : ∀ (i : Nat) (h : i < ps.entries.length),
    ∃ label, L label ∧ ps.entries[i].1 = label ++ toString (i + 1)

theorem NumberedWithin.empty : NumberedWithin L empty :=
  ⟨rfl, fun i h => absurd h (Nat.not_lt_zero i)⟩

theorem NumberedWithin.nextName_notMem (h : NumberedWithin L ps) (hL : SeparateLabels L)
    {label : String} (hlabel : L label) : ps.nextName label ∉ ps.names := by
  intro hmem
  obtain ⟨e, he, hname⟩ := List.mem_map.1 hmem
  obtain ⟨i, hi, rfl⟩ := List.mem_iff_getElem.1 he
  obtain ⟨label', hlabel', hname'⟩ := h.name_eq i hi
  have hnumber := hL.number_inj hlabel' hlabel (by omega) (by omega) (hname'.symm.trans hname)
  have hcounter := h.counter_eq
  rw [size] at hcounter
  omega

theorem NumberedWithin.bind (h : NumberedWithin L ps) (hL : SeparateLabels L) {label : String}
    (hlabel : L label) (v : Value) : NumberedWithin L (ps.bind label v) := by
  have hnew := h.nextName_notMem hL hlabel
  have happends : ps.Appends label v := .of_notMem v h.counter_eq hnew
  refine ⟨happends.counter_eq, fun i hi => ?_⟩
  have hentries := entries_bind_of_notMem v hnew
  simp only [hentries] at hi ⊢
  by_cases hlt : i < ps.entries.length
  · rw [List.getElem_append_left hlt]
    exact h.name_eq i hlt
  · have hi' : i = ps.entries.length := by
      simp only [List.length_append, List.length_singleton] at hi
      omega
    subst hi'
    refine ⟨label, hlabel, ?_⟩
    rw [List.getElem_concat_length rfl, nextName, h.counter_eq, size]

/-- A run over separate labels keeps the parameters numbered. -/
theorem NumberedWithin.afterUses (hL : SeparateLabels L) {us : List Use}
    (hus : ∀ u ∈ us, u.Within L) : NumberedWithin L (afterUses us) := by
  suffices h : ∀ ps, NumberedWithin L ps → NumberedWithin L (us.foldl Use.apply ps) from
    h _ .empty
  induction us with
  | nil => exact fun _ hp => hp
  | cons u us ih =>
    rw [List.forall_mem_cons] at hus
    intro ps hp
    refine ih hus.2 _ ?_
    cases u with
    | bind label v => exact hp.bind hL hus.1 v
    | clear => exact .empty

end

/-! ## Labels that are not separate -/

theorem counter_foldl_replicate (ps : Parameters) (label : String) (v : Value) (n : Nat) :
    ((List.replicate n (Use.bind label v)).foldl Use.apply ps).counter = ps.counter + n := by
  induction n generalizing ps with
  | zero => rfl
  | succ n ih =>
    have hcounter : (ps.bind label v).counter = ps.counter + 1 := rfl
    rw [List.replicate_succ, List.foldl_cons, ih, Use.apply, hcounter]
    omega

theorem mem_names_foldl_replicate {ps : Parameters} {name : String} (h : name ∈ ps.names)
    (label : String) (v : Value) (n : Nat) :
    name ∈ ((List.replicate n (Use.bind label v)).foldl Use.apply ps).names := by
  induction n generalizing ps with
  | zero => exact h
  | succ n ih =>
    rw [List.replicate_succ, List.foldl_cons]
    exact ih (mem_names_bind v h)

/-- A label with a number after it is bound first, and then the label until the number that was
given out, after the first one, is the number of both. -/
theorem exists_nextName_mem (label : String) {n : Nat} (hn : 0 < n) (v : Value) :
    let us := .bind (label ++ toString n) v :: List.replicate (10 * n - 1) (Use.bind label v)
    (afterUses us).nextName label ∈ (afterUses us).names := by
  intro us
  have hfirst : label ++ toString n ++ toString 1 ∈
      (empty.bind (label ++ toString n) v).names := nextName_mem_names_bind v
  have hcounter : (afterUses us).counter = 10 * n := by
    have h := counter_foldl_replicate (empty.bind (label ++ toString n) v) label v (10 * n - 1)
    have hone : (empty.bind (label ++ toString n) v).counter = 1 := rfl
    rw [hone] at h
    exact h.trans (by omega)
  have hname : (afterUses us).nextName label = label ++ toString n ++ toString 1 := by
    rw [nextName, hcounter, String.append_assoc, Nat.toString_eq_ofList_toDigits,
      Nat.toString_eq_ofList_toDigits, Nat.toString_eq_ofList_toDigits, ← String.ofList_append,
      Nat.toDigits_append_toDigits (by decide) hn (by decide)]
  rw [hname]
  exact mem_names_foldl_replicate hfirst label v (10 * n - 1)

/-! ## Main result -/

/-- Binding under labels among `L` always appends, whatever was bound under such labels or emptied
before, exactly when these labels are separate. -/
theorem forall_appends_iff (L : String → Prop) :
    (∀ us : List Use, (∀ u ∈ us, u.Within L) →
      ∀ label v, L label → (afterUses us).Appends label v) ↔ SeparateLabels L := by
  constructor
  · intro h label n hlabel hn hlabel'
    have hmem := exists_nextName_mem label hn .null
    refine (h _ ?_ label .null hlabel).nextName_notMem hmem
    rw [List.forall_mem_cons]
    refine ⟨hlabel', fun u hu => ?_⟩
    rw [List.eq_of_mem_replicate hu]
    exact hlabel
  · intro hL us hus label v hlabel
    have hnumbered := NumberedWithin.afterUses hL hus
    exact .of_notMem v hnumbered.counter_eq (hnumbered.nextName_notMem hL hlabel)

/-- The first and the eleventh value get the name `a11`: the first one is lost, and the position of
the eleventh is that of the tenth. -/
theorem not_appends_eleventh :
    let ps := afterUses (.bind "a1" (.int 1) :: List.replicate 9 (.bind "a" (.int 0)))
    let qs := ps.bind "a" (.int 2)
    ¬ ps.Appends "a" (.int 2) ∧ ps.get? "a11" = some (.int 1) ∧ qs.get? "a11" = some (.int 2) ∧
      qs.size = 10 ∧ qs.counter = 11 ∧ qs.entries[qs.size - 1]? = some ("a10", .int 0) := by
  intro ps qs
  have hname : ps.nextName "a" = "a11" := by decide
  have hmem : ps.nextName "a" ∈ ps.names := by decide
  have hlast : qs.get? "a11" = some (.int 2) := hname ▸ get?_bind ps "a" (.int 2)
  exact ⟨fun h => h.nextName_notMem hmem, rfl, hlast, by decide, rfl, by cbv⟩

end Parameters

end PortableSql
