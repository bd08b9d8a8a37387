import PortableSql.Proofs.Union.Rows
import PortableSql.Select

/-!
# When the text keeps the grouping

In the text a UNION inside a branch works on all that is before it, and a UNION in front of a branch
on no more than the first body of the branch. Whether this changes how often a row occurs can be
told from the tree (`Select.keepsGrouping`): trees that keep their grouping have the same rows both
ways, and for the others there are bodies whose rows tell the two apart.
-/

namespace PortableSql

/-- A branch after UNION ALL fits when there is no UNION in it, and a branch after UNION when it is
a single body or has UNION before the last body. -/
def Branch.fits (b : Branch) : Bool :=
  if b.all then !b.select.joiners.contains false else b.select.joiners.getLast? != some true

/-- Every branch fits that has no UNION after it on its own level. -/
def Branch.keepGrouping : List Branch → Bool
  | [] => true
  | b :: bs => (b.fits || !bs.all Branch.all) && Branch.keepGrouping bs

/-- Branches of branches count only as far as they make a branch fit. -/
def Select.keepsGrouping (s : Select) : Bool := Branch.keepGrouping s.branches

namespace Branch

@[simp] theorem fits_all {select : Select} :
    fits ⟨true, select⟩ = true ↔ false ∉ select.joiners := by
  simp only [fits, ↓reduceIte, Bool.not_eq_true', List.contains_eq_mem, decide_eq_false_iff_not]

@[simp] theorem fits_union {select : Select} :
    fits ⟨false, select⟩ = true ↔ select.joiners.getLast? ≠ some true := by
  simp only [fits, Bool.false_eq_true, ↓reduceIte, bne_iff_ne]

theorem notMem_joiners {bs : List Branch} (hall : bs.all Branch.all = true)
    (hk : keepGrouping bs = true) : false ∉ joiners bs := by
  induction bs with
  | nil => rw [joiners_nil]; exact List.not_mem_nil
  | cons b bs ih =>
    obtain ⟨all, select⟩ := b
    rw [List.all_cons, Bool.and_eq_true] at hall
    obtain ⟨rfl, hall⟩ := hall
    rw [keepGrouping, hall, Bool.not_true, Bool.or_false, Bool.and_eq_true, fits_all] at hk
    rw [joiners_cons, List.mem_cons, List.mem_append]
    rintro (h | h | h)
    · cases h
    · exact hk.1 h
    · exact ih hall hk.2 h

section
variable {α : Type*} [DecidableEq α]

/-! ## Trees that keep it -/

/-- The induction is on the branches. A UNION on their level makes up for what was before them, so
only without one must both ways have it as often. -/
theorem rows_eq_chainRows (r : Nat → List α) {bs : List Branch} (hk : keepGrouping bs = true)
    (n : Nat) {before before' : Multiset α} (hmem : ∀ x, x ∈ before ↔ x ∈ before')
    (heq : bs.all Branch.all = true → before = before') :
    rows r n before bs = chainRows r n before' (joiners bs) := by
  induction bs generalizing n before before' with
  | nil => rw [rows_nil, joiners_nil, chainRows, heq rfl]
  | cons b bs ih =>
    obtain ⟨all, select⟩ := b
    rw [keepGrouping, Bool.and_eq_true, Bool.or_eq_true, Bool.not_eq_true'] at hk
    have hunit (x : α) : x ∈ combine all before (select.rows r n) ↔
        x ∈ chainRows r (n + 1) (combine all before' (r n)) select.joiners := by
      rw [mem_combine, hmem, ← mem_combine,
        mem_combine_iff_mem_chainRows (select.mem_rows_iff r n)]
    rw [rows_cons, chainRows_joiners_cons]
    refine ih hk.2 _ hunit fun hall => ?_
    have hfits := hk.1.resolve_right (by rw [hall]; exact Bool.noConfusion)
    cases all with
    | false =>
      have hchain := nodup_chainRows (r := r) (n := n + 1)
        (Multiset.nodup_dedup (before' + (r n : Multiset α))) (fits_union.1 hfits)
      exact ((Multiset.nodup_dedup _).ext hchain).2 hunit
    | true =>
      have hselect := fits_all.1 hfits
      have hbefore : before = before' := heq (by rw [List.all_cons, hall]; rfl)
      rw [hbefore, select.rows_eq_of_notMem r n hselect]
      exact (chainRows_add hselect _ _).symm

end

/-! ## Trees that do not -/

section
variable {α : Type*}

/-- One row in the first body, and rows in one other body. -/
def rowsAt (x : α) (p : Nat) (rows : List α) (i : Nat) : List α :=
  if i = 0 then [x] else if i = p then rows else []

theorem rowsAt_self (x : α) {p : Nat} (hp : 0 < p) (rows : List α) : rowsAt x p rows p = rows := by
  rw [rowsAt, if_neg (by omega), if_pos rfl]

theorem rowsAt_of_lt (x : α) {p i : Nat} (hi : p < i) (rows : List α) : rowsAt x p rows i = [] := by
  rw [rowsAt, if_neg (by omega), if_neg (by omega)]

variable [DecidableEq α]

theorem rows_of_nil {r : Nat → List α} {n : Nat} {bs : List Branch} (hr : ∀ i, n ≤ i → r i = [])
    (hbs : false ∉ joiners bs) (before : Multiset α) : rows r n before bs = before := by
  rw [rows_eq_of_notMem r bs n before hbs, chainRows_of_nil hr, if_neg hbs]

/-- The UNION in the branch takes away one of two equal rows, the one before the branch. -/
theorem count_chainRows_lt {select : Select} {bs : List Branch} {n : Nat} (hn : 0 < n) {x : α}
    (hselect : false ∈ select.joiners) (hbs : false ∉ joiners bs) {before before' : Multiset α}
    (hx : x ∈ before) :
    (chainRows (rowsAt x n [x]) n before' (joiners (⟨true, select⟩ :: bs))).count x <
      (rows (rowsAt x n [x]) n before (⟨true, select⟩ :: bs)).count x := by
  have hnil : ∀ i, n + 1 ≤ i → rowsAt x n [x] i = [] := fun i hi => rowsAt_of_lt x (by omega) _
  have hchain : false ∈ select.joiners ++ joiners bs := List.mem_append_left _ hselect
  have hunit : x ∈ select.rows (rowsAt x n [x]) n := by
    rw [select.mem_rows_iff, mem_chainRows_iff, rowsAt_self x hn]
    exact Or.inl (Multiset.mem_coe.2 (List.mem_singleton_self x))
  rw [joiners_cons, chainRows, chainRows_of_nil hnil, if_pos hchain, rows_cons,
    rows_of_nil (fun i hi => hnil i (by omega)) hbs]
  have hone := Multiset.nodup_iff_count_le_one.1
    (Multiset.nodup_dedup (combine true before' (rowsAt x n [x] n))) x
  have htwo : (combine true before (select.rows (rowsAt x n [x]) n)).count x =
      before.count x + (select.rows (rowsAt x n [x]) n).count x := Multiset.count_add _ _ _
  have := Multiset.count_pos.2 hx
  have := Multiset.count_pos.2 hunit
  omega

/-- The UNION in front of the branch takes away one of two equal rows of its last body. -/
theorem count_rows_lt {select : Select} {bs : List Branch} {js : List Bool} {n : Nat} {x : α}
    (hselect : select.joiners = js ++ [true]) (hbs : false ∉ joiners bs)
    (before before' : Multiset α) :
    let r := rowsAt x (n + 1 + js.length) [x, x]
    (rows r n before (⟨false, select⟩ :: bs)).count x <
      (chainRows r n before' (joiners (⟨false, select⟩ :: bs))).count x := by
  intro r
  have hlen : select.joiners.length = js.length + 1 := by
    rw [hselect, List.length_append, List.length_singleton]
  have hnil : ∀ i, n + 1 + select.joiners.length ≤ i → r i = [] :=
    fun i hi => rowsAt_of_lt x (by omega) _
  have hlast : r (n + 1 + js.length) = [x, x] := rowsAt_self x (by omega) _
  rw [rows_cons, rows_of_nil hnil hbs, chainRows_joiners_cons]
  have hone := Multiset.nodup_iff_count_le_one.1
    (Multiset.nodup_dedup (before + select.rows r n)) x
  have htwo : 2 ≤ (chainRows r (n + 1) (combine false before' (r n)) select.joiners).count x := by
    rw [hselect, chainRows_append, chainRows, chainRows, hlast, combine, if_pos rfl,
      Multiset.count_add, Multiset.coe_count]
    simp only [List.count_cons_self, List.count_nil]
    omega
  have hle := Multiset.count_le_of_le x (le_chainRows r (n + 1 + select.joiners.length)
    (chainRows r (n + 1) (combine false before' (r n)) select.joiners) hbs)
  exact lt_of_le_of_lt hone (lt_of_lt_of_le htwo hle)

/-- The branch looked at is the last one that gives the grouping away. -/
theorem exists_rows_ne {bs : List Branch} (hk : keepGrouping bs = false) {n : Nat} (hn : 0 < n)
    (x : α) : ∃ r : Nat → List α, r 0 = [x] ∧ ∀ before before' : Multiset α,
      x ∈ before → x ∈ before' → rows r n before bs ≠ chainRows r n before' (joiners bs) := by
  induction bs generalizing n with
  | nil => cases hk
  | cons b bs ih =>
    obtain ⟨all, select⟩ := b
    cases hbs : keepGrouping bs with
    | false =>
      obtain ⟨r, hzero, hr⟩ := ih hbs (n := n + 1 + select.joiners.length) (by omega)
      refine ⟨r, hzero, fun before before' hx hx' => ?_⟩
      rw [rows_cons, chainRows_joiners_cons]
      refine hr _ _ (mem_combine.2 (.inl hx)) ?_
      rw [mem_chainRows_iff, mem_combine]
      exact .inl (.inl hx')
    | true =>
      rw [keepGrouping, hbs, Bool.and_true, Bool.or_eq_false_iff, Bool.not_eq_false'] at hk
      have hnot := notMem_joiners hk.2 hbs
      cases all with
      | true =>
        have hselect : false ∈ select.joiners := by
          by_contra h
          exact absurd (fits_all.2 h) (by rw [hk.1]; exact Bool.false_ne_true)
        exact ⟨_, rfl, fun _ _ hx _ heq =>
          absurd (congrArg (Multiset.count x) heq) (count_chainRows_lt hn hselect hnot hx).ne'⟩
      | false =>
        have hselect : select.joiners.getLast? = some true := by
          by_contra h
          exact absurd (fits_union.2 h) (by rw [hk.1]; exact Bool.false_ne_true)
        obtain ⟨js, hjs⟩ := List.getLast?_eq_some_iff.1 hselect
        exact ⟨_, rfl, fun before before' _ _ heq =>
          absurd (congrArg (Multiset.count x) heq) (count_rows_lt hjs hnot before before').ne⟩

end

end Branch

/-! ## Main result -/

/-- The text of a select is that of one chain, and its rows from left to right are those of the
tree, whatever the rows of the bodies, exactly when the tree keeps its grouping. -/
theorem Select.rows_flat_eq_iff {α : Type*} [DecidableEq α] [Inhabited α] (s : Select) :
    (∀ b ∈ s.flat.branches, b.select.branches = []) ∧ (∀ d, s.flat.render d = s.render d) ∧
      ((∀ r : Nat → List α, s.rows r 0 = s.flat.rows r 0) ↔ s.keepsGrouping = true) := by
  refine ⟨fun _ => s.branches_of_mem_chain, fun d => s.render_flat d, fun h => ?_, fun hk r => ?_⟩
  · by_contra hk
    rw [Bool.not_eq_true] at hk
    obtain ⟨r, hzero, hr⟩ := Branch.exists_rows_ne hk Nat.one_pos (default : α)
    have hx : default ∈ (r 0 : Multiset α) := by
      rw [hzero]
      exact Multiset.mem_coe.2 (List.mem_singleton_self _)
    refine hr _ _ hx hx ?_
    rw [← s.joiners_eq, ← s.rows_flat r 0, ← s.rows_eq r 0, h r]
  · rw [s.rows_eq, s.rows_flat, s.joiners_eq]
    exact Branch.rows_eq_chainRows r hk _ (fun _ => Iff.rfl) fun _ => rfl

/-- A UNION in a branch after UNION ALL takes away a row of the first body. -/
theorem Select.rows_flat_ne :
    let bc := { empty.fromTable "b" with branches := [⟨false, empty.fromTable "c"⟩] }
    let s := { empty.fromTable "a" with branches := [⟨true, bc⟩] }
    let r : Nat → List Nat := fun i => if i = 0 then [1, 1] else []
    (empty.fromTable "b").union (empty.fromTable "c") = .ok bc ∧
      (empty.fromTable "a").unionAll bc = .ok s ∧
      s.rows r 0 = {1, 1} ∧ s.flat.rows r 0 = {1} ∧ s.rows r 0 ≠ s.flat.rows r 0 := by
  intro bc s r
  exact ⟨rfl, rfl, rfl, rfl, by decide⟩

end PortableSql
