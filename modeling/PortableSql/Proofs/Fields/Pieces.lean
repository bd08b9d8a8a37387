import PortableSql.Proofs.Requoting
import PortableSql.Select

/-!
# Pieces between commas

ORDER BY and GROUP BY take lists of fields as one text and cut it at every comma. A reader of SQL
separates fields only at the commas outside parentheses, literals and quoted names
(`Token.fieldsAt`), and of a balanced text these fields are balanced.
-/

namespace PortableSql

/-! ## Pieces of a text -/

namespace Text

section
variable {c : Char} {s : List Char}

theorem pieces_eq_splitOn (sep : Char) (s : List Char) : pieces sep s = s.splitOn sep := by
  induction s with
  | nil => rfl
  | cons c s ih =>
    rw [pieces, List.splitOn_cons_eq_if_modifyHead, ih]
    by_cases hc : c = sep
    · rw [if_pos hc, if_pos (by simp [hc])]
    · rw [if_neg hc, if_neg (by simp [hc])]
      cases hs : s.splitOn sep with
      | nil => exact absurd hs (List.splitOn_ne_nil sep s)
      | cons p ps => rfl

theorem notMem_of_mem_pieces {sep : Char} {p : List Char} (hp : p ∈ pieces sep s) : sep ∉ p := by
  induction s generalizing p with
  | nil =>
    rw [List.mem_singleton.1 hp]
    exact List.not_mem_nil
  | cons c s ih =>
    rw [pieces] at hp
    split at hp
    · rcases List.mem_cons.1 hp with rfl | hp
      · exact List.not_mem_nil
      · exact ih hp
    · next hc =>
      have hne : sep ≠ c := fun heq => hc heq.symm
      cases hs : pieces sep s with
      | nil =>
        simp only [hs, List.mem_singleton] at hp
        simpa [hp] using hne
      | cons p' ps =>
        simp only [hs, List.mem_cons] at hp
        rcases hp with rfl | hp
        · have hp' := ih (hs ▸ List.mem_cons_self)
          simp [hne, hp']
        · exact ih (hs ▸ List.mem_cons_of_mem p' hp)

/-! ## What is trimmed -/

theorem exists_eq_trimEnd_append (s : List Char) :
    ∃ after, s = trimEnd s ++ after ∧ ∀ c ∈ after, isBlank c = true := by
  refine ⟨(s.reverse.takeWhile isBlank).reverse, ?_, ?_⟩
  · rw [trimEnd, ← List.reverse_append, List.takeWhile_append_dropWhile, List.reverse_reverse]
  · intro c hc
    exact List.all_eq_true.1 List.all_takeWhile c (List.mem_reverse.1 hc)

theorem exists_eq_append_trim (s : List Char) :
    ∃ before after, s = before ++ (trim s ++ after) ∧ (∀ c ∈ before, isBlank c = true) ∧
      ∀ c ∈ after, isBlank c = true := by
  obtain ⟨after, hafter, hblank⟩ := exists_eq_trimEnd_append (trimStart s)
  refine ⟨s.takeWhile isBlank, after, ?_, List.all_eq_true.1 List.all_takeWhile, hblank⟩
  rw [trim, ← hafter, trimStart, List.takeWhile_append_dropWhile]

theorem mem_trim (hc : isBlank c = false) (h : c ∈ s) : c ∈ trim s := by
  obtain ⟨before, after, hs, hbefore, hafter⟩ := exists_eq_append_trim s
  rw [hs] at h
  rcases List.mem_append.1 h with h | h
  · rw [hbefore c h] at hc
    cases hc
  · rcases List.mem_append.1 h with h | h
    · exact h
    · rw [hafter c h] at hc
      cases hc

theorem letter_of_isLower_toLower (h : c.toLower.isLower = true) :
    (65 ≤ c.toNat ∧ c.toNat ≤ 90) ∨ (97 ≤ c.toNat ∧ c.toNat ≤ 122) := by
  unfold Char.toLower at h
  split at h
  · next hupper => exact .inl hupper
  · right
    unfold Char.isLower at h
    rw [Bool.and_eq_true, decide_eq_true_eq, decide_eq_true_eq] at h
    exact h

/-- The letters of ASCII are word characters. -/
theorem isWord_of_isLower_toLower (h : c.toLower.isLower = true) : isWord c = true := by
  have hletter := letter_of_isLower_toLower h
  have halpha : c.isAlphanum = true := by
    unfold Char.isAlphanum Char.isAlpha Char.isUpper Char.isLower
    rw [Bool.or_eq_true, Bool.or_eq_true, decide_eq_true_eq, Bool.and_eq_true, decide_eq_true_eq,
      decide_eq_true_eq]
    exact .inl hletter
  rw [isWord, isAlphanumeric, if_pos (by omega), halpha, Bool.or_true]

end

end Text

namespace Select

theorem isWord_of_isDirection {w : List Char} (h : isDirection w = true) :
    w ≠ [] ∧ ∀ c ∈ w, Text.isWord c = true := by
  have hlower : w.map Char.toLower = "asc".toList ∨ w.map Char.toLower = "desc".toList := by
    rw [isDirection, Bool.or_eq_true, Text.sameWord_iff, Text.sameWord_iff] at h
    exact h
  constructor
  · rintro rfl
    rcases hlower with h | h <;> cases h
  · intro c hc
    have hmem : c.toLower ∈ w.map Char.toLower := List.mem_map_of_mem hc
    have hall : (w.map Char.toLower).all Char.isLower = true := by
      rcases hlower with h | h
      · rw [h]
        decide
      · rw [h]
        decide
    exact Text.isWord_of_isLower_toLower (List.all_eq_true.1 hall _ hmem)

/-- A direction that is dropped is a word after blanks. -/
theorem stripDirection_eq_or (f : List Char) :
    stripDirection f = f ∨
      ∃ gap w, f = stripDirection f ++ (gap ++ w) ∧ gap ≠ [] ∧ (∀ c ∈ gap, Text.isBlank c = true) ∧
        isDirection w = true := by
  let ink := fun c => !Text.isBlank c
  let w := (f.reverse.takeWhile ink).reverse
  let before := f.reverse.dropWhile ink
  have hf : f = before.reverse ++ w := by
    rw [← List.reverse_append, List.takeWhile_append_dropWhile, List.reverse_reverse]
  by_cases h : (!(Text.trimEnd before.reverse).isEmpty && isDirection w) = true
  · right
    have hstrip : stripDirection f = Text.trimEnd before.reverse := if_pos h
    rw [Bool.and_eq_true, Bool.not_eq_true', List.isEmpty_eq_false_iff] at h
    obtain ⟨hne, hword⟩ := h
    obtain ⟨gap, hgap, hblank⟩ := Text.exists_eq_trimEnd_append before.reverse
    refine ⟨gap, w, ?_, ?_, hblank, hword⟩
    · rw [hstrip, ← List.append_assoc, ← hgap]
      exact hf
    · -- what stands before the last word ends in a blank, which is trimmed
      rintro rfl
      rw [List.append_nil] at hgap
      cases hbefore : before with
      | nil =>
        rw [hbefore] at hne
        exact hne rfl
      | cons c x =>
        have hc : Text.isBlank c = true := by
          have hhead := List.head?_dropWhile_not ink f.reverse
          rw [show (f.reverse.dropWhile ink).head? = some c by rw [← List.head?_cons, ← hbefore]]
            at hhead
          simpa [ink] using hhead
        have hlength := congrArg List.length hgap
        have hle := (List.dropWhile_suffix (l := x) Text.isBlank).length_le
        rw [hbefore, Text.trimEnd, List.reverse_reverse, List.dropWhile_cons_of_pos hc] at hlength
        simp only [List.length_reverse, List.length_cons] at hlength
        omega
  · left
    exact if_neg h

end Select

/-! ## Fields -/

namespace Token

/-- How a token changes the depth of parentheses. -/
def depth : Token → Int
  | other '(' => 1
  | other ')' => -1
  | _ => 0

/-- The tokens between the commas at depth zero, from depth `n` on. -/
def fieldsAt : Int → List Token → List (List Token)
  | _, [] => [[]]
  | n, t :: ts =>
    if t = other ',' ∧ n = 0 then [] :: fieldsAt n ts
    else (fieldsAt (n + t.depth) ts).modifyHead (t :: ·)

/-- From depth `n` on, no parenthesis closes that was not opened, and all are closed in the end. -/
def balances : Int → List Token → Bool
  | n, [] => n == 0
  | n, t :: ts => 0 ≤ n && balances (n + t.depth) ts

/-- Literals and quoted names are closed, and no other closing quote is there. -/
inductive Matched (q : QuotePair) : Token → Prop where
  | literal {s : List Char} : Paired '\'' s → Matched q (literal ('\'' :: (s ++ ['\''])))
  | quoted {s : List Char} : Paired q.closing s →
      Matched q (quoted (q.opening :: (s ++ [q.closing])))
  | marker (s : List Char) : Matched q (marker s)
  | word (s : List Char) : Matched q (word s)
  | other {c : Char} : c ≠ q.closing → Matched q (other c)

section
variable {q : QuotePair} {t : Token} {s rest a b : List Char} {ts us vs p : List Token} {n : Int}

theorem fieldsAt_ne_nil (n : Int) (ts : List Token) : fieldsAt n ts ≠ [] := by
  induction ts generalizing n with
  | nil => exact List.cons_ne_nil _ _
  | cons t ts ih =>
    rw [fieldsAt]
    split
    · exact List.cons_ne_nil _ _
    · cases hfields : fieldsAt (n + t.depth) ts with
      | nil => exact absurd hfields (ih _)
      | cons f fs => exact List.cons_ne_nil _ _

/-- The fields with commas between them are the whole. -/
theorem intercalate_fieldsAt (n : Int) (ts : List Token) :
    [other ','].intercalate (fieldsAt n ts) = ts := by
  induction ts generalizing n with
  | nil => rfl
  | cons t ts ih =>
    rw [fieldsAt]
    split
    · next h =>
      rw [List.intercalate_cons_of_ne_nil (fieldsAt_ne_nil n ts), ih, h.1]
      rfl
    · have hrest := ih (n + t.depth)
      cases hfields : fieldsAt (n + t.depth) ts with
      | nil => exact absurd hfields (fieldsAt_ne_nil _ _)
      | cons f fs =>
        rw [hfields] at hrest
        rw [List.modifyHead_cons, ← hrest]
        cases fs with
        | nil => simp
        | cons g gs => simp [List.intercalate_cons_cons]

/-- The first field is a beginning. -/
theorem exists_eq_append_of_fieldsAt {f : List Token} {fs : List (List Token)}
    (h : fieldsAt n ts = f :: fs) : ∃ after, ts = f ++ after := by
  have hts := intercalate_fieldsAt n ts
  rw [h] at hts
  cases fs with
  | nil => exact ⟨[], by rw [← hts]; simp⟩
  | cons g gs =>
    rw [List.intercalate_cons_cons, List.append_assoc] at hts
    exact ⟨_, hts.symm⟩

theorem exists_eq_append_of_mem_fieldsAt (h : p ∈ fieldsAt n ts) :
    ∃ before after, ts = before ++ (p ++ after) := by
  induction ts generalizing n p with
  | nil => exact ⟨[], [], by rw [List.mem_singleton.1 h]; rfl⟩
  | cons t ts ih =>
    rw [fieldsAt] at h
    split at h
    · rcases List.mem_cons.1 h with rfl | h
      · exact ⟨[], t :: ts, rfl⟩
      · obtain ⟨before, after, rfl⟩ := ih h
        exact ⟨t :: before, after, rfl⟩
    · cases hfields : fieldsAt (n + t.depth) ts with
      | nil => exact absurd hfields (fieldsAt_ne_nil _ _)
      | cons f fs =>
        rw [hfields, List.modifyHead_cons] at h
        rcases List.mem_cons.1 h with rfl | h
        · obtain ⟨after, hts⟩ := exists_eq_append_of_fieldsAt hfields
          exact ⟨[], after, by rw [hts]; rfl⟩
        · obtain ⟨before, after, hts⟩ := ih (hfields ▸ List.mem_cons_of_mem f h)
          exact ⟨t :: before, after, by rw [hts]; rfl⟩

theorem flatMap_text_intercalate (ps : List (List Token)) :
    ([other ','].intercalate ps).flatMap text = [','].intercalate (ps.map (List.flatMap text)) := by
  induction ps with
  | nil => rfl
  | cons p ps ih =>
    cases ps with
    | nil => simp
    | cons p' ps =>
      rw [List.intercalate_cons_cons, List.flatMap_append, List.flatMap_append, ih]
      simp only [List.map_cons, List.intercalate_cons_cons]
      rfl

/-! ## Balanced fields -/

/-- The first field of balanced tokens balances from where they begin, and all others from zero. -/
theorem balances_fieldsAt (h : balances n ts = true) {f : List Token} {fs : List (List Token)}
    (hfields : fieldsAt n ts = f :: fs) :
    balances n f = true ∧ ∀ g ∈ fs, balances 0 g = true := by
  induction ts generalizing n f fs with
  | nil =>
    cases hfields
    exact ⟨h, nofun⟩
  | cons t ts ih =>
    rw [balances, Bool.and_eq_true] at h
    rw [fieldsAt] at hfields
    split at hfields
    · next hcomma =>
      obtain ⟨rfl, rfl⟩ := hcomma
      obtain ⟨rfl, rfl⟩ := List.cons.inj hfields
      refine ⟨rfl, fun g hg => ?_⟩
      cases hrest : fieldsAt 0 ts with
      | nil => exact absurd hrest (fieldsAt_ne_nil _ _)
      | cons f fs =>
        obtain ⟨hf, hfs⟩ := ih h.2 hrest
        rw [hrest] at hg
        rcases List.mem_cons.1 hg with rfl | hg
        · exact hf
        · exact hfs g hg
    · cases hrest : fieldsAt (n + t.depth) ts with
      | nil => exact absurd hrest (fieldsAt_ne_nil _ _)
      | cons f' fs' =>
        rw [hrest, List.modifyHead_cons] at hfields
        obtain ⟨rfl, rfl⟩ := List.cons.inj hfields
        obtain ⟨hf, hfs⟩ := ih h.2 hrest
        exact ⟨by rw [balances, Bool.and_eq_true]; exact ⟨h.1, hf⟩, hfs⟩

theorem balances_of_mem_fieldsAt (h : balances 0 ts = true) (hp : p ∈ fieldsAt 0 ts) :
    balances 0 p = true := by
  cases hfields : fieldsAt 0 ts with
  | nil => exact absurd hfields (fieldsAt_ne_nil _ _)
  | cons f fs =>
    obtain ⟨hf, hfs⟩ := balances_fieldsAt h hfields
    rw [hfields] at hp
    rcases List.mem_cons.1 hp with rfl | hp
    · exact hf
    · exact hfs p hp

/-- Blanks and words. -/
inductive Idle : Token → Prop where
  | blank {c : Char} : Text.isBlank c = true → Idle (other c)
  | word (w : List Char) : Idle (word w)

theorem Idle.depth_eq (h : Idle t) : t.depth = 0 := by
  cases h with
  | @blank c hc =>
    unfold depth
    split
    · next heq =>
      cases heq
      cases hc
    · next heq =>
      cases heq
      cases hc
    · rfl
  | word w => rfl

theorem balances_cons_of_depth (h : t.depth = 0) (n : Int) (ts : List Token) :
    balances n (t :: ts) = balances n ts := by
  rw [balances, h, Int.add_zero]
  cases ts with
  | nil =>
    rw [balances, Bool.eq_iff_iff]
    simp only [Bool.and_eq_true, decide_eq_true_eq, beq_iff_eq]
    omega
  | cons u us => rw [balances, ← Bool.and_assoc, Bool.and_self]

theorem balances_idle_append (h : ∀ t ∈ us, Idle t) (n : Int) (vs : List Token) :
    balances n (us ++ vs) = balances n vs := by
  induction us with
  | nil => rfl
  | cons u us ih =>
    rw [List.cons_append, balances_cons_of_depth (h u List.mem_cons_self).depth_eq,
      ih fun t ht => h t (List.mem_cons_of_mem u ht)]

theorem balances_append_idle (h : ∀ t ∈ vs, Idle t) (n : Int) (us : List Token) :
    balances n (us ++ vs) = balances n us := by
  induction us generalizing n with
  | nil =>
    have hvs := balances_idle_append h n []
    rwa [List.append_nil] at hvs
  | cons u us ih => rw [List.cons_append, balances, balances, ih]

end

end Token

end PortableSql
