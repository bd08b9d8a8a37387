import Mathlib.Data.List.Basic

/-!
# Formulas without parentheses

A condition is atoms with AND and OR between them, and AND binds tighter: it is true if in one of
its groups between the ORs all atoms are true. AND between two conditions therefore does not say
that both are true: it binds the last group of the first one to the first group of the second
(`Formula.groups_andThen`). The result follows from the conditions nevertheless, and it is their
conjunction exactly if each of its groups has a group of every condition in it
(`Formula.holds_iff_forall`).
-/

namespace PortableSql

/-- Atoms with the words AND and OR between them. -/
inductive Formula (α : Type) where
  | atom (a : α)
  | and (a : α) (rest : Formula α)
  | or (a : α) (rest : Formula α)
  deriving DecidableEq, Repr

namespace Formula

section
variable {α β γ : Type}

/-- The atoms between the ORs. -/
def groups : Formula α → List (List α)
  | atom a => [[a]]
  | and a F => F.groups.modifyHead (a :: ·)
  | or a F => [a] :: F.groups

/-- AND before OR. -/
def Holds (truth : α → Prop) (F : Formula α) : Prop := ∃ g ∈ F.groups, ∀ a ∈ g, truth a

/-- What is read where AND stands between two texts. -/
def andThen : Formula α → Formula α → Formula α
  | atom a, G => and a G
  | and a F, G => and a (F.andThen G)
  | or a F, G => or a (F.andThen G)

/-- What is read where AND stands between several texts. -/
def joined (F : Formula α) : List (Formula α) → Formula α
  | [] => F
  | G :: Gs => F.andThen (joined G Gs)

def map (f : α → β) : Formula α → Formula β
  | atom a => atom (f a)
  | and a F => and (f a) (F.map f)
  | or a F => or (f a) (F.map f)

def mapFirst (f : α → α) : Formula α → Formula α
  | atom a => atom (f a)
  | and a F => and (f a) F
  | or a F => or (f a) F

def first : Formula α → α
  | atom a | and a _ | or a _ => a

def atoms : Formula α → List α
  | atom a => [a]
  | and a F | or a F => a :: F.atoms

theorem map_map (g : β → γ) (f : α → β) (F : Formula α) :
    (F.map f).map g = F.map fun a => g (f a) := by
  induction F with
  | atom a => rfl
  | and a F ih => rw [map, map, ih, map]
  | or a F ih => rw [map, map, ih, map]

theorem map_congr {f g : α → β} {F : Formula α} (h : ∀ a ∈ F.atoms, f a = g a) :
    F.map f = F.map g := by
  induction F with
  | atom a => rw [map, map, h a List.mem_cons_self]
  | and a F ih | or a F ih =>
    rw [map, map, h a List.mem_cons_self, ih fun e he => h e (List.mem_cons_of_mem a he)]

theorem map_mapFirst {f : α → β} {g : α → α} {h : β → β} {F : Formula α}
    (hfirst : f (g F.first) = h (f F.first)) :
    (F.mapFirst g).map f = (F.map f).mapFirst h := by
  cases F with
  | atom a => exact congrArg atom hfirst
  | and a F => exact congrArg (and · (F.map f)) hfirst
  | or a F => exact congrArg (or · (F.map f)) hfirst

theorem mapFirst_id (F : Formula α) : F.mapFirst id = F := by
  cases F <;> rfl

theorem mapFirst_mapFirst (f g : α → α) (F : Formula α) :
    (F.mapFirst g).mapFirst f = F.mapFirst fun a => f (g a) := by
  cases F <;> rfl

theorem mapFirst_congr {f g : α → α} {F : Formula α} (h : f F.first = g F.first) :
    F.mapFirst f = F.mapFirst g := by
  cases F with
  | atom a => exact congrArg atom h
  | and a F => exact congrArg (and · F) h
  | or a F => exact congrArg (or · F) h

theorem mapFirst_andThen (f : α → α) (F G : Formula α) :
    (F.mapFirst f).andThen G = (F.andThen G).mapFirst f := by
  cases F <;> rfl

theorem first_mapFirst (f : α → α) (F : Formula α) : (F.mapFirst f).first = f F.first := by
  cases F <;> rfl

theorem atoms_mapFirst (f : α → α) (F : Formula α) :
    (F.mapFirst f).atoms = f F.first :: F.atoms.tail := by
  cases F <;> rfl

/-! ## Two conditions with AND between them -/

theorem groups_ne_nil (F : Formula α) : F.groups ≠ [] := by
  induction F with
  | atom a => exact List.cons_ne_nil _ _
  | and a F ih =>
    rw [groups]
    cases hgroups : F.groups with
    | nil => exact absurd hgroups ih
    | cons g gs => exact List.cons_ne_nil _ _
  | or a F => exact List.cons_ne_nil _ _

/-- AND binds the last group of the first formula to the first group of the second. -/
theorem groups_andThen (F G : Formula α) :
    ∃ fs f g gs, F.groups = fs ++ [f] ∧ G.groups = g :: gs ∧
      (F.andThen G).groups = fs ++ (f ++ g) :: gs := by
  induction F with
  | atom a =>
    obtain ⟨g, gs, hG⟩ := List.exists_cons_of_ne_nil G.groups_ne_nil
    exact ⟨[], [a], g, gs, rfl, hG, by rw [andThen, groups, hG]; rfl⟩
  | and a F ih =>
    obtain ⟨fs, f, g, gs, hF, hG, hFG⟩ := ih
    cases fs with
    | nil =>
      refine ⟨[], a :: f, g, gs, ?_, hG, ?_⟩
      · rw [groups, hF]
        rfl
      · rw [andThen, groups, hFG]
        rfl
    | cons e es =>
      refine ⟨(a :: e) :: es, f, g, gs, ?_, hG, ?_⟩
      · rw [groups, hF]
        rfl
      · rw [andThen, groups, hFG]
        rfl
  | or a F ih =>
    obtain ⟨fs, f, g, gs, hF, hG, hFG⟩ := ih
    exact ⟨[a] :: fs, f, g, gs, by rw [groups, hF]; rfl, hG, by rw [andThen, groups, hFG]; rfl⟩

variable {truth : α → Prop}

theorem holds_atom {a : α} : (atom a).Holds truth ↔ truth a := by
  simp [Holds, groups]

theorem holds_or {a : α} {F : Formula α} : (or a F).Holds truth ↔ truth a ∨ F.Holds truth := by
  simp [Holds, groups]

/-- Where both conditions are true, so is the text. -/
theorem Holds.andThen {F G : Formula α} (hF : F.Holds truth) (hG : G.Holds truth) :
    (F.andThen G).Holds truth := by
  obtain ⟨fs, f, g, gs, hfs, hgs, hFG⟩ := groups_andThen F G
  obtain ⟨f', hf', hftrue⟩ := hF
  obtain ⟨g', hg', hgtrue⟩ := hG
  rw [hfs, List.mem_append, List.mem_singleton] at hf'
  rw [hgs, List.mem_cons] at hg'
  unfold Holds
  rw [hFG]
  rcases hf' with hf' | rfl
  · exact ⟨f', List.mem_append_left _ hf', hftrue⟩
  · rcases hg' with rfl | hg'
    · refine ⟨f' ++ g', List.mem_append_right _ List.mem_cons_self, fun a ha => ?_⟩
      exact (List.mem_append.1 ha).elim (hftrue a) (hgtrue a)
    · exact ⟨g', List.mem_append_right _ (List.mem_cons_of_mem _ hg'), hgtrue⟩

theorem holds_joined {F : Formula α} {Fs : List (Formula α)}
    (h : ∀ G ∈ F :: Fs, G.Holds truth) : (joined F Fs).Holds truth := by
  induction Fs generalizing F with
  | nil => exact h F List.mem_cons_self
  | cons G Gs ih =>
    exact (h F List.mem_cons_self).andThen (ih fun H hH => h H (List.mem_cons_of_mem F hH))

/-! ## Atoms and groups -/

theorem flatten_groups (F : Formula α) : F.groups.flatten = F.atoms := by
  induction F with
  | atom a => rfl
  | and a F ih =>
    obtain ⟨g, gs, hgroups⟩ := List.exists_cons_of_ne_nil F.groups_ne_nil
    rw [groups, atoms, ← ih, hgroups]
    rfl
  | or a F ih =>
    rw [groups, atoms, ← ih]
    rfl

theorem subset_atoms_of_mem_groups {F : Formula α} {g : List α} (hg : g ∈ F.groups) :
    g ⊆ F.atoms := by
  intro a ha
  rw [← flatten_groups]
  exact List.mem_flatten_of_mem hg ha

theorem ne_nil_of_mem_groups {F : Formula α} {g : List α} (hg : g ∈ F.groups) : g ≠ [] := by
  induction F generalizing g with
  | atom a =>
    rw [List.mem_singleton.1 hg]
    exact List.cons_ne_nil _ _
  | and a F ih =>
    obtain ⟨f, fs, hgroups⟩ := List.exists_cons_of_ne_nil F.groups_ne_nil
    rw [groups, hgroups] at hg
    rcases List.mem_cons.1 hg with rfl | hg
    · exact List.cons_ne_nil _ _
    · exact ih (by rw [hgroups]; exact List.mem_cons_of_mem f hg)
  | or a F ih =>
    rcases List.mem_cons.1 hg with rfl | hg
    · exact List.cons_ne_nil _ _
    · exact ih hg

/-- Without OR, all atoms are one group. -/
theorem groups_of_length_eq_one {F : Formula α} (h : F.groups.length = 1) :
    F.groups = [F.atoms] := by
  obtain ⟨g, hg⟩ := List.length_eq_one_iff.1 h
  rw [← flatten_groups, hg, List.flatten_singleton]

theorem atoms_andThen (F G : Formula α) : (F.andThen G).atoms = F.atoms ++ G.atoms := by
  induction F with
  | atom a => rfl
  | and a F ih | or a F ih => rw [andThen, atoms, ih, atoms, List.cons_append]

theorem atoms_joined (F : Formula α) (Fs : List (Formula α)) :
    (joined F Fs).atoms = (F :: Fs).flatMap atoms := by
  induction Fs generalizing F with
  | nil => rw [joined, List.flatMap_singleton]
  | cons G Gs ih => rw [joined, atoms_andThen, ih, ← List.flatMap_cons]

/-- There is no OR in the text exactly if there is none in the conditions. -/
theorem length_groups_joined {F : Formula α} {Fs : List (Formula α)} :
    (joined F Fs).groups.length = 1 ↔ ∀ G ∈ F :: Fs, G.groups.length = 1 := by
  induction Fs generalizing F with
  | nil => rw [joined, List.forall_mem_singleton]
  | cons G Gs ih =>
    obtain ⟨fs, f, g, gs, hF, hG, hFG⟩ := groups_andThen F (joined G Gs)
    rw [List.forall_mem_cons, ← ih, joined, hFG, hF, hG]
    simp only [List.length_append, List.length_cons, List.length_nil]
    omega

/-- Without OR, the only group of the text has a group of every condition in it. -/
theorem exists_subset_of_length_eq_one {F : Formula α} {Fs : List (Formula α)}
    (h : ∀ G ∈ F :: Fs, G.groups.length = 1) :
    ∀ g ∈ (joined F Fs).groups, ∀ G ∈ F :: Fs, ∃ f ∈ G.groups, f ⊆ g := by
  intro g hg G hG
  rw [groups_of_length_eq_one (length_groups_joined.2 h), List.mem_singleton] at hg
  refine ⟨G.atoms, ?_, fun a ha => ?_⟩
  · rw [groups_of_length_eq_one (h G hG)]
    exact List.mem_cons_self
  · rw [hg, atoms_joined]
    exact List.mem_flatMap.2 ⟨G, hG, ha⟩

/-- A group has no group of a formula without common atoms in it. -/
theorem not_subset_of_disjoint {F : Formula α} {f g : List α} (hf : f ∈ F.groups)
    (hdisjoint : F.atoms.Disjoint g) : ¬f ⊆ g := by
  intro hsub
  obtain ⟨a, ha⟩ := List.exists_mem_of_ne_nil f (ne_nil_of_mem_groups hf)
  exact hdisjoint (subset_atoms_of_mem_groups hf ha) (hsub ha)

/-- Where the first condition shares no atom with the others, an OR in any of them changes what the
conditions say together. -/
theorem length_groups_of_forall {F : Formula α} {Fs : List (Formula α)}
    (hdisjoint : ∀ G ∈ Fs, F.atoms.Disjoint G.atoms)
    (h : ∀ g ∈ (joined F Fs).groups, ∀ G ∈ F :: Fs, ∃ f ∈ G.groups, f ⊆ g) :
    Fs = [] ∨ ∀ G ∈ F :: Fs, G.groups.length = 1 := by
  cases Fs with
  | nil => exact .inl rfl
  | cons G Gs =>
    right
    obtain ⟨fs, f, g, gs, hF, hG, hFG⟩ := groups_andThen F (joined G Gs)
    rw [joined, hFG] at h
    -- a group before the AND has no atom of the second condition, one after it none of the first
    have hfs : fs = [] := by
      refine List.eq_nil_iff_forall_not_mem.2 fun e he => ?_
      obtain ⟨g', hg', hsub⟩ := h e (List.mem_append_left _ he) G
        (List.mem_cons_of_mem F List.mem_cons_self)
      have hatoms : e ⊆ F.atoms := by
        refine subset_atoms_of_mem_groups ?_
        rw [hF]
        exact List.mem_append_left [f] he
      refine not_subset_of_disjoint hg' (fun a haG hae => ?_) hsub
      exact hdisjoint G List.mem_cons_self (hatoms hae) haG
    have hgs : gs = [] := by
      refine List.eq_nil_iff_forall_not_mem.2 fun e he => ?_
      obtain ⟨f', hf', hsub⟩ := h e (List.mem_append_right _ (List.mem_cons_of_mem _ he)) F
        List.mem_cons_self
      have hatoms : e ⊆ (joined G Gs).atoms := by
        refine subset_atoms_of_mem_groups ?_
        rw [hG]
        exact List.mem_cons_of_mem g he
      refine not_subset_of_disjoint hf' (fun a haF hae => ?_) hsub
      have ha := hatoms hae
      rw [atoms_joined] at ha
      obtain ⟨H, hH, haH⟩ := List.mem_flatMap.1 ha
      exact hdisjoint H hH haF haH
    refine length_groups_joined.1 ?_
    rw [joined, hFG, hfs, hgs]
    rfl

/-- A formula that follows from others is their conjunction exactly if each of its groups has one of
theirs in it. -/
theorem holds_iff_forall {F : Formula α} {Fs : List (Formula α)}
    (h : ∀ truth : α → Prop, (∀ G ∈ Fs, G.Holds truth) → F.Holds truth) :
    (∀ truth : α → Prop, F.Holds truth ↔ ∀ G ∈ Fs, G.Holds truth) ↔
      ∀ f ∈ F.groups, ∀ G ∈ Fs, ∃ g ∈ G.groups, g ⊆ f := by
  constructor
  · -- the truth of the atoms of one group, and of no others
    intro hiff f hf G hG
    exact (hiff (· ∈ f)).1 ⟨f, hf, fun a ha => ha⟩ G hG
  · refine fun hsub truth => ⟨?_, h truth⟩
    rintro ⟨f, hf, htrue⟩ G hG
    obtain ⟨g, hg, hgf⟩ := hsub f hf G hG
    exact ⟨g, hg, fun a ha => htrue a (hgf ha)⟩

end

end Formula

end PortableSql
