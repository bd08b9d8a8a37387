import PortableSql.Proofs.Template.Tree

/-!
# Unions in the text

The branches of a select may have branches of their own, and so on to any depth. In the text all
of them stand in one chain, with nothing around a branch: a select is rendered like the select that
has the whole chain for its branches and no branches inside them (`Select.render_flat`).
-/

namespace PortableSql

/-- The select without what is combined with it. -/
def Select.body (s : Select) : Select := { s with branches := [] }

mutual

/-- All that is combined with a select, at any depth, in the order of the text. -/
def Select.chain : Select → List Branch
  | ⟨_, _, _, _, _, _, _, _, _, _, _, branches⟩ => Branch.chain branches

def Branch.chain : List Branch → List Branch
  | [] => []
  | ⟨all, select⟩ :: bs => ⟨all, select.body⟩ :: (select.chain ++ Branch.chain bs)

end

/-- The select with the chain for its branches. -/
def Select.flat (s : Select) : Select := { s with branches := s.chain }

mutual

theorem Select.branches_of_mem_chain :
    ∀ (s : Select) {b : Branch}, b ∈ s.chain → b.select.branches = []
  | ⟨_, _, _, _, _, _, _, _, _, _, _, branches⟩, _, hb => by
    rw [Select.chain] at hb
    exact Branch.branches_of_mem_chain branches hb

theorem Branch.branches_of_mem_chain :
    ∀ (bs : List Branch) {b : Branch}, b ∈ Branch.chain bs → b.select.branches = []
  | [], _, hb => by
    rw [Branch.chain] at hb
    cases hb
  | ⟨all, select⟩ :: bs, _, hb => by
    rw [Branch.chain, List.mem_cons, List.mem_append] at hb
    rcases hb with rfl | hb | hb
    · rfl
    · exact select.branches_of_mem_chain hb
    · exact Branch.branches_of_mem_chain bs hb

end

/-! ## Rendering -/

open Template (concat)

section
variable (d : Dialect)

theorem Branch.templates_append (width : Nat) (bs cs : List Branch) :
    Branch.templates d width (bs ++ cs) =
      Branch.templates d width bs ++ Branch.templates d width cs := by
  induction bs with
  | nil => rfl
  | cons b bs ih =>
    obtain ⟨all, select⟩ := b
    simp only [List.cons_append, Branch.templates, ih]

theorem Select.template_eq_append (s : Select) :
    s.template d = s.body.template d ++ concat (Branch.templates d s.columnCount s.branches) := by
  obtain ⟨_, source, _⟩ := s
  cases source with
  | none =>
    simp only [Select.body, Select.template]
    exact (Template.append_of_failure rfl _).symm
  | some source =>
    simp only [Select.body, Select.template, Select.columnCount, Branch.templates, concat,
      Template.append_empty]

end

mutual

theorem Select.concat_templates_chain (d : Dialect) : ∀ (width : Nat) (s : Select),
    concat (Branch.templates d width s.chain) = concat (Branch.templates d width s.branches)
  | width, ⟨_, _, _, _, _, _, _, _, _, _, _, branches⟩ => by
    rw [Select.chain]
    exact Branch.concat_templates_chain d width branches

/-- A branch whose number of columns is right passes it on to its own branches. -/
theorem Branch.concat_templates_chain (d : Dialect) (width : Nat) : ∀ bs : List Branch,
    concat (Branch.templates d width (Branch.chain bs)) = concat (Branch.templates d width bs)
  | [] => by rw [Branch.chain]
  | ⟨all, select⟩ :: bs => by
    have hcount : select.body.columnCount = select.columnCount := rfl
    rw [Branch.chain, Branch.templates, Branch.templates, concat, concat, hcount]
    by_cases hw : width = select.columnCount
    · rw [if_pos hw, if_pos hw, Branch.templates_append, Template.concat_append,
        select.concat_templates_chain d width, Branch.concat_templates_chain d width bs,
        select.template_eq_append d, ← hw]
      simp only [Template.append_assoc]
    · rw [if_neg hw, if_neg hw, Template.append_of_failure rfl, Template.append_of_failure rfl]

end

theorem Select.template_flat (d : Dialect) (s : Select) : s.flat.template d = s.template d := by
  rw [s.flat.template_eq_append d, s.template_eq_append d]
  exact congrArg (s.body.template d ++ ·) (s.concat_templates_chain d s.columnCount)

/-- No text shows which branch a select of the chain belongs to. -/
theorem Select.render_flat (d : Dialect) (s : Select) : s.flat.render d = s.render d := by
  rw [s.flat.render_eq d, s.render_eq d, s.template_flat d]

end PortableSql
