import Mathlib.Data.List.Induction
import Mathlib.Data.Multiset.Dedup
import PortableSql.Proofs.Union.Chain

/-!
# Rows of unions

`Select.rows` takes each branch as one unit, as the calls that built the select did. A database
reads the text, which is one chain, from left to right (`chainRows`). Only the rows of the bodies
are given; ORDER BY, LIMIT and OFFSET, which would stand in the middle of the chain, are no part of
this. Both ways give the same rows, but perhaps not as often (`Branch.mem_rows_iff`).
-/

namespace PortableSql

/-- For each select of the chain whether `UNION ALL` is before it. -/
def Branch.joiners (bs : List Branch) : List Bool := (Branch.chain bs).map Branch.all

def Select.joiners (s : Select) : List Bool := s.chain.map Branch.all

theorem Select.joiners_eq : ∀ s : Select, s.joiners = Branch.joiners s.branches
  | ⟨_, _, _, _, _, _, _, _, _, _, _, branches⟩ => by
    rw [joiners, Select.chain, Branch.joiners]

theorem Branch.joiners_nil : Branch.joiners [] = [] := by
  rw [joiners, Branch.chain, List.map_nil]

theorem Branch.joiners_cons (all : Bool) (select : Select) (bs : List Branch) :
    Branch.joiners (⟨all, select⟩ :: bs) = all :: (select.joiners ++ Branch.joiners bs) := by
  rw [joiners, Branch.chain, List.map_cons, List.map_append, Select.joiners, joiners]

section
variable {α : Type*} [DecidableEq α]

/-- UNION ALL keeps every row, UNION each one once. -/
def Branch.combine (all : Bool) (a b : Multiset α) : Multiset α :=
  if all then a + b else (a + b).dedup

mutual

/-- The rows of a select whose bodies have the rows `r n`, `r (n + 1)` and so on, in the order of
the text. -/
def Select.rows (r : Nat → List α) (n : Nat) : Select → Multiset α
  | ⟨_, _, _, _, _, _, _, _, _, _, _, branches⟩ => Branch.rows r (n + 1) (r n) branches

/-- The rows of all that is before the branches, and of the branches. -/
def Branch.rows (r : Nat → List α) (n : Nat) (before : Multiset α) : List Branch → Multiset α
  | [] => before
  | ⟨all, select⟩ :: bs =>
    Branch.rows r (n + 1 + select.joiners.length)
      (Branch.combine all before (select.rows r n)) bs

end

/-- The rows of a chain of bodies, read from left to right. -/
def chainRows (r : Nat → List α) (n : Nat) (before : Multiset α) : List Bool → Multiset α
  | [] => before
  | all :: js => chainRows r (n + 1) (Branch.combine all before (r n)) js

theorem Branch.mem_combine {all : Bool} {a b : Multiset α} {x : α} :
    x ∈ Branch.combine all a b ↔ x ∈ a ∨ x ∈ b := by
  cases all
  · simp only [combine, Bool.false_eq_true, ↓reduceIte, Multiset.mem_dedup, Multiset.mem_add]
  · simp only [combine, ↓reduceIte, Multiset.mem_add]

/-! ## Chains -/

section
variable {r : Nat → List α} {n : Nat} {before : Multiset α} {js : List Bool}

theorem chainRows_append (r : Nat → List α) (n : Nat) (before : Multiset α) (js ks : List Bool) :
    chainRows r n before (js ++ ks) =
      chainRows r (n + js.length) (chainRows r n before js) ks := by
  induction js generalizing n before with
  | nil => rfl
  | cons all js ih =>
    rw [List.cons_append, chainRows, ih, chainRows, List.length_cons]
    congr 1
    omega

theorem mem_chainRows_iff (r : Nat → List α) (n : Nat) (before : Multiset α) (js : List Bool)
    {x : α} : x ∈ chainRows r n before js ↔ x ∈ before ∨ x ∈ chainRows r n 0 js := by
  induction js generalizing n before with
  | nil => simp only [chainRows, Multiset.notMem_zero, or_false]
  | cons all js ih =>
    rw [chainRows, chainRows, ih, ih (n + 1) (Branch.combine all 0 (r n))]
    simp only [Branch.mem_combine, Multiset.notMem_zero, false_or, or_assoc]

theorem mem_combine_iff_mem_chainRows {all : Bool} {unit : Multiset α} {x : α}
    (h : x ∈ unit ↔ x ∈ chainRows r (n + 1) (r n) js) :
    x ∈ Branch.combine all before unit ↔
      x ∈ chainRows r (n + 1) (Branch.combine all before (r n)) js := by
  rw [mem_chainRows_iff r _ (r n)] at h
  rw [mem_chainRows_iff r _ (Branch.combine all before _), Branch.mem_combine,
    Branch.mem_combine, h, or_assoc]

/-- Without UNION nothing that is before the chain is looked at again. -/
theorem chainRows_add (hjs : false ∉ js) (a b : Multiset α) :
    chainRows r n (a + b) js = a + chainRows r n b js := by
  induction js generalizing n b with
  | nil => rfl
  | cons all js ih =>
    rw [List.mem_cons, not_or] at hjs
    obtain rfl : all = true := (Bool.not_eq_false _).mp (Ne.symm hjs.1)
    simp only [chainRows, Branch.combine, ↓reduceIte, Multiset.add_assoc]
    exact ih hjs.2 _

theorem le_chainRows (r : Nat → List α) (n : Nat) (before : Multiset α) (hjs : false ∉ js) :
    before ≤ chainRows r n before js := by
  have h := chainRows_add (r := r) (n := n) hjs before 0
  rw [Multiset.add_zero] at h
  rw [h]
  exact Multiset.le_add_right _ _

/-- What ends in UNION has no row twice. -/
theorem nodup_chainRows (hb : before.Nodup) (hjs : js.getLast? ≠ some true) :
    (chainRows r n before js).Nodup := by
  rcases List.eq_nil_or_concat' js with rfl | ⟨js, all, rfl⟩
  · exact hb
  · rw [List.getLast?_concat, Ne, Option.some.injEq, Bool.not_eq_true] at hjs
    rw [chainRows_append, hjs]
    exact Multiset.nodup_dedup _

/-- Bodies without rows leave a UNION in front of them its work. -/
theorem chainRows_of_nil (hr : ∀ i, n ≤ i → r i = []) :
    chainRows r n before js = if false ∈ js then before.dedup else before := by
  induction js generalizing n before with
  | nil => rfl
  | cons all js ih =>
    have hadd : before + (r n : Multiset α) = before := by
      rw [hr n le_rfl, Multiset.coe_nil, Multiset.add_zero]
    rw [chainRows, ih fun i hi => hr i (by omega), Branch.combine, hadd]
    cases all with
    | false =>
      simp only [Bool.false_eq_true, ↓reduceIte, List.mem_cons, true_or, Multiset.dedup_idem,
        ite_self]
    | true => simp only [↓reduceIte, List.mem_cons, Bool.false_eq_true, false_or]

end

/-! ## Units -/

section
variable (r : Nat → List α) (n : Nat)

theorem Select.rows_eq : ∀ s : Select, s.rows r n = Branch.rows r (n + 1) (r n) s.branches
  | ⟨_, _, _, _, _, _, _, _, _, _, _, branches⟩ => by rw [Select.rows]

theorem Branch.rows_nil (before : Multiset α) : Branch.rows r n before [] = before := by
  rw [Branch.rows]

theorem Branch.rows_cons (before : Multiset α) (all : Bool) (select : Select) (bs : List Branch) :
    Branch.rows r n before (⟨all, select⟩ :: bs) =
      Branch.rows r (n + 1 + select.joiners.length)
        (Branch.combine all before (select.rows r n)) bs := by
  rw [Branch.rows]

theorem chainRows_joiners_cons (before : Multiset α) (all : Bool) (select : Select)
    (bs : List Branch) :
    chainRows r n before (Branch.joiners (⟨all, select⟩ :: bs)) =
      chainRows r (n + 1 + select.joiners.length)
        (chainRows r (n + 1) (Branch.combine all before (r n)) select.joiners)
        (Branch.joiners bs) := by
  rw [Branch.joiners_cons, chainRows, chainRows_append]

end

mutual

theorem Select.mem_rows_iff (r : Nat → List α) {x : α} : ∀ (s : Select) (n : Nat),
    x ∈ s.rows r n ↔ x ∈ chainRows r (n + 1) (r n) s.joiners
  | ⟨_, _, _, _, _, _, _, _, _, _, _, branches⟩, n => by
    rw [Select.rows, Select.joiners_eq]
    exact Branch.mem_rows_iff r branches (n + 1) (r n)

/-- A row is in the units when it is in the chain. -/
theorem Branch.mem_rows_iff (r : Nat → List α) {x : α} :
    ∀ (bs : List Branch) (n : Nat) (before : Multiset α),
      x ∈ Branch.rows r n before bs ↔ x ∈ chainRows r n before (Branch.joiners bs)
  | [], n, before => by rw [Branch.rows_nil, Branch.joiners_nil, chainRows]
  | ⟨all, select⟩ :: bs, n, before => by
    rw [Branch.rows_cons, chainRows_joiners_cons, Branch.mem_rows_iff r bs, mem_chainRows_iff,
      mem_combine_iff_mem_chainRows (select.mem_rows_iff r n), ← mem_chainRows_iff]

end

mutual

theorem Select.rows_eq_of_notMem (r : Nat → List α) : ∀ (s : Select) (n : Nat),
    false ∉ s.joiners → s.rows r n = chainRows r (n + 1) (r n) s.joiners
  | ⟨_, _, _, _, _, _, _, _, _, _, _, branches⟩, n => by
    rw [Select.rows, Select.joiners_eq]
    exact Branch.rows_eq_of_notMem r branches (n + 1) (r n)

/-- Without UNION the units are put together as the chain is. -/
theorem Branch.rows_eq_of_notMem (r : Nat → List α) :
    ∀ (bs : List Branch) (n : Nat) (before : Multiset α), false ∉ Branch.joiners bs →
      Branch.rows r n before bs = chainRows r n before (Branch.joiners bs)
  | [], n, before, _ => by rw [Branch.rows_nil, Branch.joiners_nil, chainRows]
  | ⟨all, select⟩ :: bs, n, before, hbs => by
    rw [Branch.joiners_cons, List.mem_cons, List.mem_append, not_or, not_or] at hbs
    obtain ⟨hall, hselect, hbs⟩ := hbs
    obtain rfl : all = true := (Bool.not_eq_false _).mp (Ne.symm hall)
    rw [Branch.rows_cons, chainRows_joiners_cons, Branch.rows_eq_of_notMem r bs _ _ hbs,
      select.rows_eq_of_notMem r n hselect]
    simp only [Branch.combine, ↓reduceIte, chainRows_add hselect]

end

/-- Branches without branches are one chain already. -/
theorem Branch.rows_of_branches_eq_nil (r : Nat → List α) {bs : List Branch}
    (hbs : ∀ b ∈ bs, b.select.branches = []) (n : Nat) (before : Multiset α) :
    Branch.rows r n before bs = chainRows r n before (bs.map Branch.all) := by
  induction bs generalizing n before with
  | nil => rw [Branch.rows_nil, List.map_nil, chainRows]
  | cons b bs ih =>
    obtain ⟨all, select⟩ := b
    rw [List.forall_mem_cons] at hbs
    rw [Branch.rows_cons, List.map_cons, chainRows, ih hbs.2, select.joiners_eq,
      select.rows_eq, hbs.1, Branch.joiners_nil, Branch.rows_nil, List.length_nil, Nat.add_zero]

theorem Select.rows_flat (r : Nat → List α) (n : Nat) (s : Select) :
    s.flat.rows r n = chainRows r (n + 1) (r n) s.joiners := by
  have hbs : ∀ b ∈ s.flat.branches, b.select.branches = [] := fun _ => s.branches_of_mem_chain
  rw [s.flat.rows_eq, Branch.rows_of_branches_eq_nil r hbs]
  rfl

end

end PortableSql
