import PortableSql.Proofs.Fields.Pieces
import PortableSql.Proofs.Seams

/-!
# Parts of a split

A text that ends earlier has the tokens it had, up to the one that is cut. Closed tokens are not cut
where blanks and words follow a blank (`Token.Splits.exists_cut`), and they stay as they are when a
blank is put after them.
-/

namespace PortableSql

/-! ## Parts of a split -/

namespace Token

section
variable {q : QuotePair} {t : Token} {s rest a b x y : List Char} {ts us vs : List Token}

theorem Ends.of_append {close : Char} (h : Ends close s (x ++ y)) : Ends close s x := by
  generalize hxy : x ++ y = rest at h
  cases h with
  | closed hs hrest =>
    refine .closed hs ?_
    rw [← hxy] at hrest
    cases x with
    | nil => exact (Option.some_ne_none close).symm
    | cons c x => exact hrest
  | unclosed hs =>
    rw [(List.append_eq_nil_iff.1 hxy).1]
    exact .unclosed hs

theorem startsWord_of_append (h : startsWord (x ++ y) = false) : startsWord x = false := by
  cases x with
  | nil => rfl
  | cons c x => exact h

/-- A token is read as before when the text ends earlier. -/
theorem Heads.of_append (h : Heads q t (x ++ y)) : Heads q t x := by
  cases h with
  | literal hs => exact .literal hs.of_append
  | quoted hopen hs => exact .quoted hopen hs.of_append
  | marker hopen hsign hrun =>
    exact .marker hopen hsign ⟨hrun.isWord, startsWord_of_append hrun.ends⟩
  | word hopen hrun => exact .word hopen ⟨hrun.isWord, startsWord_of_append hrun.ends⟩
  | @other c _ hliteral hopen hmarker hc =>
    refine .other hliteral hopen ?_ hc
    cases hsign : isMarkerSign c with
    | false => rfl
    | true =>
      rw [hsign] at hmarker
      exact startsWord_of_append hmarker

theorem Splits.of_append_left (h : Splits q s (us ++ vs)) : Splits q (us.flatMap text) us := by
  induction us generalizing s with
  | nil => exact .nil
  | cons u us ih =>
    rw [List.cons_append] at h
    have hheads := h.heads
    rw [List.flatMap_append] at hheads
    cases h with
    | cons _ hsplit => exact .cons hheads.of_append (ih hsplit)

/-! ## Blanks -/

theorem isMarkerSign_of_isBlank {c : Char} (hc : Text.isBlank c = true) :
    isMarkerSign c = false := by
  refine Bool.eq_false_iff.2 fun hsign => ?_
  simp only [isMarkerSign, Bool.or_eq_true, beq_iff_eq] at hsign
  rcases hsign with (rfl | rfl) | rfl <;> exact absurd hc (by decide)

theorem heads_blank (hq : q.Clear) {c : Char} (hc : Text.isBlank c = true) (rest : List Char) :
    Heads q (other c) rest := by
  refine .other ?_ ?_ (by rw [isMarkerSign_of_isBlank hc, Bool.false_and]) ?_
  · rintro rfl
    exact absurd hc (by decide)
  · rintro rfl
    rw [hq.opening_not_blank] at hc
    cases hc
  · exact Text.not_isWord_of_isBlank hc

theorem Splits.blanks_append (h : Splits q s ts) (hq : q.Clear)
    (hx : ∀ c ∈ x, Text.isBlank c = true) : Splits q (x ++ s) (x.map other ++ ts) := by
  induction x with
  | nil => exact h
  | cons c x ih =>
    exact .cons (heads_blank hq (hx c List.mem_cons_self) _)
      (ih fun e he => hx e (List.mem_cons_of_mem c he))

theorem Matched.closed (h : Matched q t) : Closed q t := by
  cases h with
  | literal hs => exact .literal hs
  | quoted hs => exact .quoted hs
  | marker s => exact .marker s
  | word s => exact .word s
  | other => exact .other _

/-- Closed tokens stay as they are when a blank follows. -/
theorem Splits.append (h : Splits q s us) (hq : q.Clear) (hus : ∀ t ∈ us, Matched q t) {c : Char}
    (hc : Text.isBlank c = true) (hvs : Splits q (c :: y) vs) :
    Splits q (s ++ c :: y) (us ++ vs) := by
  have htouch : c ≠ '\'' ∧ c ≠ q.closing := by
    constructor
    · rintro rfl
      cases hc
    · rintro rfl
      rw [hq.closing_not_blank] at hc
      cases hc
  refine h.append_of_heads (fun t ht => ?_) hvs
  have hclosed : Closed q t := (hus t (List.mem_of_getLast? ht)).closed
  exact hclosed.heads_cons (h.heads_getLast? ht).1 (Text.not_isWord_of_isBlank hc)
    (fun _ => htouch) y

/-! ## Cutting at a blank -/

/-- Blanks and words after a blank. -/
structure IsTail (b : List Char) : Prop where
  head : ∀ c, b.head? = some c → Text.isBlank c = true
  mem : ∀ c ∈ b, Text.isBlank c = true ∨ Text.isWord c = true

/-- A closed token into which a tail reaches is a blank. -/
theorem Matched.eq_nil_of_text_eq (ht : Matched q t) (hq : q.Clear) (h : Heads q t rest)
    {c : Char} (htext : t.text = a ++ c :: x) (hc : Text.isBlank c = true)
    (hx : ∀ e ∈ c :: x, Text.isBlank e = true ∨ Text.isWord e = true) : a = [] ∧ x = [] := by
  have hmem : c ∈ t.text := by
    rw [htext]
    exact List.mem_append_right a List.mem_cons_self
  have hclosed {close : Char} (hlast : t.text.getLast? = some close)
      (hblank : Text.isBlank close = false) (hword : Text.isWord close = false) : False := by
    rw [htext, List.getLast?_append_of_ne_nil a (List.cons_ne_nil c x)] at hlast
    have hclose := hx close (List.mem_of_getLast? hlast)
    rw [hblank, hword] at hclose
    rcases hclose with h | h
    · cases h
    · cases h
  have hink {e : Char} (he : Text.isWord e = true ∨ isMarkerSign e = true) : e ≠ c := by
    rintro rfl
    rcases he with he | he
    · rw [Text.isBlank_of_isWord he] at hc
      cases hc
    · rw [isMarkerSign_of_isBlank hc] at he
      cases he
  cases ht with
  | literal =>
    exact (hclosed (by rw [text, ← List.cons_append, List.getLast?_concat]) (by decide)
      (by decide)).elim
  | quoted =>
    exact (hclosed (by rw [text, ← List.cons_append, List.getLast?_concat]) hq.closing_not_blank
      hq.closing_not_word).elim
  | marker =>
    cases h with
    | marker _ hsign hrun =>
      rcases List.mem_cons.1 hmem with heq | hmem
      · exact absurd heq.symm (hink (.inr hsign))
      · exact absurd rfl (hink (.inl (hrun.isWord c hmem)))
  | word => exact absurd rfl (hink (.inl (h.run.1.isWord c hmem)))
  | other =>
    rw [text, List.singleton_eq_append_iff] at htext
    rcases htext with ⟨ha, hcx⟩ | ⟨-, hcx⟩
    · exact ⟨ha, (List.cons.inj hcx).2⟩
    · cases hcx

/-- Closed tokens are cut where a tail begins. -/
theorem Splits.exists_cut (h : Splits q s ts) (hq : q.Clear) (hts : ∀ t ∈ ts, Matched q t)
    (hs : s = a ++ b) (hb : IsTail b) :
    ∃ us vs, ts = us ++ vs ∧ us.flatMap text = a ∧ vs.flatMap text = b := by
  induction h generalizing a with
  | nil =>
    obtain ⟨rfl, rfl⟩ := List.append_eq_nil_iff.1 hs.symm
    exact ⟨[], [], rfl, rfl, rfl⟩
  | @cons t rest ts ht hsplit ih =>
    rcases List.append_eq_append_iff.1 hs with ⟨a', rfl, hrest⟩ | ⟨x, htext, hbx⟩
    · obtain ⟨us, vs, rfl, hus, hvs⟩ := ih (fun u hu => hts u (List.mem_cons_of_mem t hu)) hrest
      exact ⟨t :: us, vs, rfl, by rw [List.flatMap_cons, hus], hvs⟩
    · cases x with
      | nil =>
        refine ⟨[t], ts, rfl, ?_, ?_⟩
        · rw [List.flatMap_singleton, htext, List.append_nil]
        · rw [hsplit.flatMap_text, hbx, List.nil_append]
      | cons c x =>
        have hc : Text.isBlank c = true := hb.head c (by rw [hbx]; rfl)
        have hx : ∀ e ∈ c :: x, Text.isBlank e = true ∨ Text.isWord e = true := by
          intro e he
          exact hb.mem e (by rw [hbx]; exact List.mem_append_left rest he)
        obtain ⟨rfl, rfl⟩ := (hts t List.mem_cons_self).eq_nil_of_text_eq hq ht htext hc hx
        refine ⟨[], t :: ts, rfl, rfl, ?_⟩
        rw [List.flatMap_cons, htext, hsplit.flatMap_text, hbx, List.nil_append]

theorem Splits.idle (h : Splits q b vs) (hq : q.Clear)
    (hb : ∀ c ∈ b, Text.isBlank c = true ∨ Text.isWord c = true) : ∀ t ∈ vs, Idle t := by
  intro t ht
  obtain ⟨rest, hheads⟩ := h.exists_heads ht
  have hmem {c : Char} (hc : c ∈ t.text) : Text.isBlank c = true ∨ Text.isWord c = true :=
    hb c (by rw [← h.flatMap_text]; exact List.mem_flatMap.2 ⟨t, ht, hc⟩)
  cases hheads with
  | literal => exact absurd (hmem (c := '\'') List.mem_cons_self) (by decide)
  | quoted =>
    have hopen := hmem (c := q.opening) List.mem_cons_self
    rw [hq.opening_not_blank, hq.opening_not_word] at hopen
    rcases hopen with h | h
    · cases h
    · cases h
  | marker _ hsign =>
    rcases hmem List.mem_cons_self with hblank | hword
    · rw [isMarkerSign_of_isBlank hblank] at hsign
      cases hsign
    · rw [not_isMarkerSign_of_isWord hword] at hsign
      cases hsign
  | word => exact .word _
  | other _ _ _ hword =>
    rcases hmem List.mem_cons_self with hblank | hword'
    · exact .blank hblank
    · rw [hword'] at hword
      cases hword

end

end Token

end PortableSql
