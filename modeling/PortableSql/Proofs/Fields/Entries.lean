import Mathlib.Data.List.Forall2
import PortableSql.Proofs.Fields.Cuts
import PortableSql.Rendering

/-!
# Entries of ORDER BY and GROUP BY

The entries of a list of fields are the fields a reader separates exactly if no comma lies inside
one (`Select.entries_at_separating_commas`). A field keeps its tokens when it is trimmed and loses a
direction, but for blanks and words at its ends, and then its names are quoted; so balanced fields
are written balanced, with the direction outside of all parentheses.
-/

namespace PortableSql

/-! ## Fields that are trimmed -/

namespace Token

/-- Blanks before a text and a tail after it are left out. -/
def Trims (s f : List Char) : Prop :=
  ∃ before after, s = before ++ (f ++ after) ∧ (∀ c ∈ before, Text.isBlank c = true) ∧ IsTail after

theorem isTail_of_blank {b : List Char} (h : ∀ c ∈ b, Text.isBlank c = true) : IsTail b where
  head c hc := h c (List.mem_of_head? hc)
  mem c hc := .inl (h c hc)

theorem trims_trim (s : List Char) : Trims s (Text.trim s) := by
  obtain ⟨before, after, hs, hbefore, hafter⟩ := Text.exists_eq_append_trim s
  exact ⟨before, after, hs, hbefore, isTail_of_blank hafter⟩

theorem trims_stripDirection (s : List Char) : Trims s (Select.stripDirection (Text.trim s)) := by
  rcases Select.stripDirection_eq_or (Text.trim s) with
    hstrip | ⟨gap, w, htrim, hgap, hblank, hdir⟩
  · rw [hstrip]
    exact trims_trim s
  · obtain ⟨before, after, hs, hbefore, hafter⟩ := Text.exists_eq_append_trim s
    refine ⟨before, gap ++ w ++ after, ?_, hbefore, ?_, fun c hc => ?_⟩
    · rw [htrim] at hs
      simpa using hs
    · intro c hc
      refine hblank c (List.mem_of_head? ?_)
      cases gap with
      | nil => exact absurd rfl hgap
      | cons e gap => exact hc
    · rw [List.mem_append, List.mem_append] at hc
      rcases hc with (hc | hc) | hc
      · exact .inl (hblank c hc)
      · exact .inr ((Select.isWord_of_isDirection hdir).2 c hc)
      · exact .inl (hafter c hc)

def isLiteral : Token → Bool
  | literal _ => true
  | _ => false

/-- Literals and quoted names. -/
def isEnclosed : Token → Bool
  | literal _ | quoted _ => true
  | _ => false

section
variable {q : QuotePair} {t : Token} {s f : List Char} {ts us vs : List Token}

/-- A field of closed tokens has them all when it is trimmed, but for blanks and words. -/
theorem Splits.exists_idle (h : Splits q s ts) (hq : q.Clear) (hts : ∀ t ∈ ts, Matched q t)
    (hf : Trims s f) :
    ∃ us vs, ts = us ++ (scan q f ++ vs) ∧ (∀ t ∈ us, Idle t) ∧ ∀ t ∈ vs, Idle t := by
  obtain ⟨before, after, rfl, hbefore, hafter⟩ := hf
  have hsplits := (splits_scan q (f ++ after)).blanks_append hq hbefore
  have hscan : ts = before.map other ++ scan q (f ++ after) := h.eq_scan.trans hsplits.eq_scan.symm
  have hmatched : ∀ t ∈ scan q (f ++ after), Matched q t := fun t ht =>
    hts t (by rw [hscan]; exact List.mem_append_right _ ht)
  obtain ⟨us, vs, hcut, hus, hvs⟩ := (splits_scan q (f ++ after)).exists_cut hq hmatched rfl hafter
  have hpart : Splits q (f ++ after) (us ++ vs) := splits_iff.2 hcut.symm
  have hfield : us = scan q f := by
    rw [← hus]
    exact hpart.of_append_left.eq_scan
  refine ⟨before.map other, vs, by rw [hscan, hcut, hfield], ?_, ?_⟩
  · intro t ht
    obtain ⟨c, hc, rfl⟩ := List.mem_map.1 ht
    exact .blank (hbefore c hc)
  · have hrest := hpart.of_append
    rw [hvs] at hrest
    exact hrest.idle hq hafter.mem

theorem filter_of_idle {p : Token → Bool} (hp : ∀ t, Idle t → p t = false)
    (hus : ∀ t ∈ us, Idle t) (hvs : ∀ t ∈ vs, Idle t) (ts : List Token) :
    (us ++ (ts ++ vs)).filter p = ts.filter p := by
  have hnone {ws : List Token} (hws : ∀ t ∈ ws, Idle t) : ws.filter p = [] :=
    List.filter_eq_nil_iff.2 fun t ht => by simp [hp t (hws t ht)]
  rw [List.filter_append, List.filter_append, hnone hus, hnone hvs, List.nil_append,
    List.append_nil]

theorem Idle.isEnclosed_eq (h : Idle t) : t.isEnclosed = false := by
  cases h <;> rfl

theorem Idle.isLiteral_eq (h : Idle t) : t.isLiteral = false := by
  cases h <;> rfl

/-! ## Names that are quoted -/

theorem balances_glue (n : Int) (s : List Char) (ts : List Token) :
    balances n (glue q s ts) = balances n ts := by
  unfold glue
  split
  · split
    · rw [balances_cons_of_depth rfl, balances_cons_of_depth rfl]
    · rw [balances_cons_of_depth rfl]
  · exact balances_cons_of_depth rfl n ts

theorem filter_isLiteral_glue (s : List Char) (ts : List Token) :
    (glue q s ts).filter isLiteral = ts.filter isLiteral := by
  unfold glue
  split
  · split <;> rfl
  · rfl

theorem matched_glue (hs : Paired q.closing s) (hts : ∀ t ∈ ts, Matched q t) :
    ∀ t ∈ glue q (q.opening :: (s ++ [q.closing])) ts, Matched q t := by
  have hquoted := Matched.quoted hs
  unfold glue
  split
  · next x ts =>
    have hx := hts (quoted x) List.mem_cons_self
    split
    · next hsame =>
      intro t ht
      rcases List.mem_cons.1 ht with rfl | ht
      · -- the closing quote of the one name and the opening quote of the other are a pair
        cases hx with
        | @quoted x hx =>
          have htouch := Matched.quoted (hs.append hx.pair)
          rw [hsame]
          simpa [hsame] using htouch
      · exact hts t (List.mem_cons_of_mem _ ht)
    · intro t ht
      rcases List.mem_cons.1 ht with rfl | ht
      · exact hquoted
      · exact hts t ht
  · intro t ht
    rcases List.mem_cons.1 ht with rfl | ht
    · exact hquoted
    · exact hts t ht

end

end Token

namespace Dialect

/-- A token is copied, or it is a name and quoted. -/
inductive Writes (d : Dialect) : Token → List Char → Prop where
  | copied (t : Token) : Writes d t t.text
  | name (w : List Char) : Writes d (.word w) (d.quotes.quote w)

section
variable {d : Dialect} {extra : List String} {s : List Char} {ts : List Token}

theorem exists_writes (d : Dialect) (extra : List String) (ts : List Token) :
    ∃ os, d.quoteTokens extra ts = os.flatten ∧ List.Forall₂ d.Writes ts os := by
  induction ts with
  | nil => exact ⟨[], rfl, .nil⟩
  | cons t ts ih =>
    obtain ⟨os, hos, hwrites⟩ := ih
    refine ⟨d.written extra (ts.flatMap Token.text) t :: os, ?_, .cons ?_ hwrites⟩
    · rw [quoteTokens_cons, hos, List.flatten_cons]
    · unfold written
      split
      · split
        · exact .name _
        · exact .copied (.word _)
      · exact .copied t

theorem balances_requoted (n : Int) (ts : List Token) :
    Token.balances n (d.requoted extra ts) = Token.balances n ts := by
  induction ts generalizing n with
  | nil => rfl
  | cons t ts ih =>
    have hsame : Token.balances n (t :: d.requoted extra ts) = Token.balances n (t :: ts) := by
      rw [Token.balances, ih, ← Token.balances]
    cases t with
    | word w =>
      rw [requoted]
      split
      · exact hsame
      · rw [Token.balances_glue, ih, Token.balances_cons_of_depth rfl]
    | quoted x => rw [requoted, Token.balances_glue, ih, Token.balances_cons_of_depth rfl]
    | literal x => exact hsame
    | marker x => exact hsame
    | other c => exact hsame

theorem filter_isLiteral_requoted (ts : List Token) :
    (d.requoted extra ts).filter Token.isLiteral = ts.filter Token.isLiteral := by
  induction ts with
  | nil => rfl
  | cons t ts ih =>
    cases t with
    | word w =>
      rw [requoted]
      split
      · exact ih
      · rw [Token.filter_isLiteral_glue]
        exact ih
    | quoted x =>
      rw [requoted, Token.filter_isLiteral_glue]
      exact ih
    | literal x => exact congrArg (Token.literal x :: ·) ih
    | marker x => exact ih
    | other c => exact ih

/-- Closed tokens are still closed when names are quoted. -/
theorem matched_requoted (extra : List String) (hq : d.quotes.Clear)
    (h : Token.Splits d.quotes s ts) (hts : ∀ t ∈ ts, Token.Matched d.quotes t) :
    ∀ t ∈ d.requoted extra ts, Token.Matched d.quotes t := by
  induction h with
  | nil => nofun
  | @cons t rest ts ht _ ih =>
    have hmatched := hts t List.mem_cons_self
    have hrest := ih fun u hu => hts u (List.mem_cons_of_mem t hu)
    have hsame : ∀ u ∈ t :: d.requoted extra ts, Token.Matched d.quotes u := by
      intro u hu
      rcases List.mem_cons.1 hu with rfl | hu
      · exact hmatched
      · exact hrest u hu
    cases t with
    | word w =>
      rw [requoted]
      split
      · exact hsame
      · obtain ⟨hquote, hpaired⟩ := quote_word hq ht.run.1
        rw [hquote]
        exact Token.matched_glue hpaired hrest
    | quoted x =>
      rw [requoted]
      cases hmatched with
      | quoted hx => exact Token.matched_glue hx hrest
    | literal x => exact hsame
    | marker x => exact hsame
    | other c => exact hsame

end

end Dialect

/-! ## Entries -/

/-- An entry of ORDER BY as it is written. -/
def SortKey.text (d : Dialect) (k : SortKey) : String :=
  d.quoteExpression [] k.field ++ " " ++ k.direction.text

namespace Select

open Dialect (ansi sqlServer)

theorem orderText_eq (d : Dialect) {ks : List SortKey} (h : ks ≠ []) :
    orderText d ks = " ORDER BY " ++ ", ".intercalate (ks.map (SortKey.text d)) := by
  rw [orderText, if_neg (by simpa using h)]
  rfl

/-- The tokens between the commas that separate fields. -/
def fieldTokens (d : Dialect) (fields : String) : List (List Token) :=
  Token.fieldsAt 0 (Token.scan d.quotes fields.toList)

/-- The entries a reader separates, trimmed, without the blank ones. -/
def separateEntries (d : Dialect) (fields : String) : List (List Char) :=
  ((fieldTokens d fields).map fun p => Text.trim (p.flatMap Token.text)).filter fun f => !f.isEmpty

section
variable {α : Type} {d : Dialect} {fields : String} {s f : List Char} {p : List Token}

theorem notMem_of_mem_entries (h : f ∈ entries fields) : ',' ∉ f := by
  obtain ⟨piece, hpiece, rfl⟩ := List.mem_map.1 (List.mem_filter.1 h).1
  obtain ⟨before, after, hs, -, -⟩ := Text.exists_eq_append_trim piece
  intro hcomma
  refine Text.notMem_of_mem_pieces hpiece ?_
  rw [hs]
  exact List.mem_append_right before (List.mem_append_left after hcomma)

/-- Where no comma lies inside a field, every comma separates fields. -/
theorem separateEntries_eq (h : ∀ p ∈ fieldTokens d fields, ',' ∉ p.flatMap Token.text) :
    separateEntries d fields = entries fields := by
  have hfields : [','].intercalate ((fieldTokens d fields).map (List.flatMap Token.text)) =
      fields.toList := by
    rw [← Token.flatMap_text_intercalate, fieldTokens, Token.intercalate_fieldsAt,
      Token.flatMap_text_scan]
  have hpieces : Text.pieces ',' fields.toList =
      (fieldTokens d fields).map (List.flatMap Token.text) := by
    rw [Text.pieces_eq_splitOn, ← hfields]
    refine List.splitOn_intercalate ',' ?_ ?_
    · intro l hl
      obtain ⟨p, hp, rfl⟩ := List.mem_map.1 hl
      exact h p hp
    · exact fun hnil => Token.fieldsAt_ne_nil _ _ (List.map_eq_nil_iff.1 hnil)
  rw [separateEntries, entries, hpieces, List.map_map]
  rfl

theorem comma_mem_stripDirection_iff : ',' ∈ stripDirection f ↔ ',' ∈ f := by
  rcases stripDirection_eq_or f with hstrip | ⟨gap, w, hf, -, hgap, hdir⟩
  · rw [hstrip]
  · constructor
    · intro h
      rw [hf]
      exact List.mem_append_left _ h
    · intro h
      rw [hf] at h
      rcases List.mem_append.1 h with h | h
      · exact h
      · rcases List.mem_append.1 h with h | h
        · exact absurd (hgap _ h) (by decide)
        · exact absurd ((isWord_of_isDirection hdir).2 _ h) (by decide)

/-- What is made of the two lists of entries, with all commas that are in them, is one exactly if no
comma lies inside a field. -/
theorem map_entries_eq_iff {g : List Char → α} (hg : ∀ e f, g e = g f → ',' ∈ f → ',' ∈ e) :
    (entries fields).map g = (separateEntries d fields).map g ↔
      ∀ p ∈ fieldTokens d fields, ',' ∉ p.flatMap Token.text := by
  constructor
  · intro h p hp hcomma
    -- a field with a comma inside is no blank entry, and the other list has no entry like it
    have htrim : ',' ∈ Text.trim (p.flatMap Token.text) := Text.mem_trim (by decide) hcomma
    have hmem : Text.trim (p.flatMap Token.text) ∈ separateEntries d fields := by
      refine List.mem_filter.2 ⟨List.mem_map.2 ⟨p, hp, rfl⟩, ?_⟩
      rw [Bool.not_eq_true', List.isEmpty_eq_false_iff]
      exact List.ne_nil_of_mem htrim
    have hsame := List.mem_map_of_mem (f := g) hmem
    rw [← h] at hsame
    obtain ⟨e, he, heq⟩ := List.mem_map.1 hsame
    exact notMem_of_mem_entries he (hg e _ heq htrim)
  · intro h
    rw [separateEntries_eq h]

theorem groups_groupBy_eq_iff (s : Select) :
    (s.groupBy fields).groups = s.groups ++ (separateEntries d fields).map String.ofList ↔
      ∀ p ∈ fieldTokens d fields, ',' ∉ p.flatMap Token.text := by
  rw [groupBy, List.append_cancel_left_eq]
  refine map_entries_eq_iff fun e f heq hf => ?_
  rwa [String.ofList_inj.1 heq]

theorem order_orderBy_eq_iff (s : Select) (dir : Direction) :
    (s.orderBy fields dir).order = s.order ++ (separateEntries d fields).map (fun f =>
        SortKey.mk (String.ofList (stripDirection f)) dir) ↔
      ∀ p ∈ fieldTokens d fields, ',' ∉ p.flatMap Token.text := by
  rw [orderBy, List.append_cancel_left_eq]
  refine map_entries_eq_iff fun e f heq hf => ?_
  have hstrip := String.ofList_inj.1 (congrArg SortKey.field heq)
  rwa [← comma_mem_stripDirection_iff, hstrip, comma_mem_stripDirection_iff]

/-! ## Entries that are written -/

/-- The written field `f` of a piece `p`: it has the literals and the quoted names of the piece,
they are copied when names are quoted, and what is written is balanced, has the literals of the
piece, and ends before a direction that follows. -/
structure Renders (d : Dialect) (p : List Token) (f : List Char) : Prop where
  enclosed : (Token.scan d.quotes f).filter Token.isEnclosed = p.filter Token.isEnclosed
  writes : ∃ os, (d.quoteExpression [] (String.ofList f)).toList = os.flatten ∧
    List.Forall₂ d.Writes (Token.scan d.quotes f) os
  balanced : ∃ us, Token.Splits d.quotes (d.quoteExpression [] (String.ofList f)).toList us ∧
    Token.balances 0 us = true ∧ us.filter Token.isLiteral = p.filter Token.isLiteral ∧
    ∀ dir, Token.Splits d.quotes (SortKey.text d ⟨String.ofList f, dir⟩).toList
      (us ++ [.other ' ', .word dir.text.toList])

theorem splits_direction (hq : d.quotes.Clear) (dir : Direction) :
    Token.Splits d.quotes (' ' :: dir.text.toList) [.other ' ', .word dir.text.toList] := by
  obtain ⟨c, w, hdir, hword⟩ :
      ∃ c w, dir.text.toList = c :: w ∧ ∀ e ∈ c :: w, Text.isWord e = true := by
    cases dir with
    | ascending => exact ⟨'A', ['S', 'C'], rfl, List.all_eq_true.1 (by decide)⟩
    | descending => exact ⟨'D', ['E', 'S', 'C'], rfl, List.all_eq_true.1 (by decide)⟩
  have hopen : c ≠ d.quotes.opening := by
    rintro rfl
    exact absurd (hword _ List.mem_cons_self) (by rw [hq.opening_not_word]; decide)
  have hsplits : Token.Splits d.quotes ((c :: w) ++ []) [.word (c :: w)] :=
    .cons (.word hopen ⟨hword, rfl⟩) .nil
  rw [hdir]
  rw [List.append_nil] at hsplits
  exact .cons (Token.heads_blank hq (by decide) _) hsplits

theorem renders_of_trims (hq : d.quotes.Clear) (hsplits : Token.Splits d.quotes s p)
    (hbalanced : Token.balances 0 p = true) (hmatched : ∀ t ∈ p, Token.Matched d.quotes t)
    (hf : Token.Trims s f) : Renders d p f := by
  obtain ⟨us, vs, hp, hus, hvs⟩ := hsplits.exists_idle hq hmatched hf
  have hfield : ∀ t ∈ Token.scan d.quotes f, Token.Matched d.quotes t := by
    intro t ht
    rw [hp] at hmatched
    exact hmatched t (List.mem_append_right us (List.mem_append_left vs ht))
  have hscan := Token.splits_scan d.quotes f
  have hlone : ∀ t ∈ Token.scan d.quotes f, t ≠ .other d.quotes.closing := by
    rintro t ht rfl
    cases hfield _ ht with
    | other hne => exact hne rfl
  have hquoted : (d.quoteExpression [] (String.ofList f)).toList =
      d.quoteTokens [] (Token.scan d.quotes f) := by
    rw [Dialect.quoteExpression, String.toList_ofList, String.toList_ofList]
  have hrequoted := Dialect.splits_requoted [] hq hscan hlone
  refine ⟨?_, ?_, d.requoted [] (Token.scan d.quotes f), ?_, ?_, ?_, ?_⟩
  · rw [hp, Token.filter_of_idle (fun t ht => ht.isEnclosed_eq) hus hvs]
  · rw [hquoted]
    exact d.exists_writes [] _
  · rw [hquoted]
    exact hrequoted
  · rw [hp, Token.balances_idle_append hus, Token.balances_append_idle hvs] at hbalanced
    rw [Dialect.balances_requoted, hbalanced]
  · rw [Dialect.filter_isLiteral_requoted, hp,
      Token.filter_of_idle (fun t ht => ht.isLiteral_eq) hus hvs]
  · intro dir
    have hclosed := Dialect.matched_requoted [] hq hscan hfield
    have htext : (SortKey.text d ⟨String.ofList f, dir⟩).toList =
        d.quoteTokens [] (Token.scan d.quotes f) ++ ' ' :: dir.text.toList := by
      rw [SortKey.text, String.toList_append, String.toList_append, hquoted, List.append_assoc]
      rfl
    rw [htext]
    exact hrequoted.append hq hclosed (by decide) (splits_direction hq dir)

/-- ORDER BY and GROUP BY cut a list at all commas, so they have one entry for each field that a
reader separates exactly if no comma lies inside a field. Where parentheses are balanced, literals
and quoted names are closed, and no closing quote stands alone, each field is written balanced and
before its direction, with its literals and quoted names as they are. -/
theorem entries_at_separating_commas (d : Dialect) (fields : String) :
    (∀ s : Select,
      (s.groupBy fields).groups = s.groups ++ (separateEntries d fields).map String.ofList ↔
        ∀ p ∈ fieldTokens d fields, ',' ∉ p.flatMap Token.text) ∧
    (∀ (s : Select) (dir : Direction),
      (s.orderBy fields dir).order = s.order ++ (separateEntries d fields).map (fun f =>
          SortKey.mk (String.ofList (stripDirection f)) dir) ↔
        ∀ p ∈ fieldTokens d fields, ',' ∉ p.flatMap Token.text) ∧
    (d.quotes.Clear → Token.balances 0 (Token.scan d.quotes fields.toList) = true →
      (∀ t ∈ Token.scan d.quotes fields.toList, Token.Matched d.quotes t) →
      ∀ p ∈ fieldTokens d fields, Renders d p (Text.trim (p.flatMap Token.text)) ∧
        Renders d p (stripDirection (Text.trim (p.flatMap Token.text)))) := by
  refine ⟨groups_groupBy_eq_iff, order_orderBy_eq_iff, fun hq hbalanced hmatched p hp => ?_⟩
  have hpiece : Token.balances 0 p = true := Token.balances_of_mem_fieldsAt hbalanced hp
  obtain ⟨before, after, hscan⟩ := Token.exists_eq_append_of_mem_fieldsAt hp
  have hsplits := Token.splits_scan d.quotes fields.toList
  rw [hscan] at hsplits hmatched
  have hpart : Token.Splits d.quotes (p.flatMap Token.text) p := hsplits.of_append.of_append_left
  have hclosed : ∀ t ∈ p, Token.Matched d.quotes t := fun t ht =>
    hmatched t (List.mem_append_right before (List.mem_append_left after ht))
  exact ⟨renders_of_trims hq hpart hpiece hclosed (Token.trims_trim _),
    renders_of_trims hq hpart hpiece hclosed (Token.trims_stripDirection _)⟩

/-- A call with a direction, and a literal with a doubled quote. -/
theorem entries_at_separating_commas_call :
    let fields := "f(a) desc, 'it''s'"
    let call : List Token := [.word ['f'], .other '(', .word ['a'], .other ')', .other ' ',
      .word ['d', 'e', 's', 'c']]
    ansi.quotes.Clear ∧ Token.balances 0 (Token.scan ansi.quotes fields.toList) = true ∧
      (∀ t ∈ Token.scan ansi.quotes fields.toList, Token.Matched ansi.quotes t) ∧
      (empty.groupBy fields).groups = ["f(a) desc", "'it''s'"] ∧
      (empty.orderBy fields .ascending).order =
        [⟨"f(a)", .ascending⟩, ⟨"'it''s'", .ascending⟩] ∧
      call ∈ fieldTokens ansi fields ∧ Renders ansi call "f(a)".toList := by
  intro fields call
  have hq : ansi.quotes.Clear := by decide
  have hscan : Token.scan ansi.quotes fields.toList = call ++ [.other ',', .other ' ',
      .literal ['\'', 'i', 't', '\'', '\'', 's', '\'']] := by
    decide +kernel
  have hbalanced : Token.balances 0 (Token.scan ansi.quotes fields.toList) = true := by
    rw [hscan]
    decide
  have hmatched : ∀ t ∈ Token.scan ansi.quotes fields.toList, Token.Matched ansi.quotes t := by
    rw [hscan]
    intro t ht
    simp only [call, List.mem_append, List.mem_cons, List.not_mem_nil, or_false] at ht
    rcases ht with (rfl | rfl | rfl | rfl | rfl | rfl) | rfl | rfl | rfl
    case inr.inr.inr =>
      have hbody : Token.Paired '\'' ['i', 't', '\'', '\'', 's'] :=
        .plain (by decide) (.plain (by decide) (.pair (.plain (by decide) .nil)))
      exact .literal hbody
    all_goals first | exact .word _ | exact .other (by decide)
  have hpieces : fieldTokens ansi fields = [call, [.other ' ',
      .literal ['\'', 'i', 't', '\'', '\'', 's', '\'']]] := by
    rw [fieldTokens, hscan]
    decide
  have hcommas : ∀ p ∈ fieldTokens ansi fields, ',' ∉ p.flatMap Token.text := by
    rw [hpieces]
    exact List.forall_mem_cons.2 ⟨by decide, List.forall_mem_singleton.2 (by decide)⟩
  obtain ⟨hgroups, horder, hrenders⟩ := entries_at_separating_commas ansi fields
  refine ⟨hq, hbalanced, hmatched, ?_, ?_, ?_, ?_⟩
  · rw [(hgroups empty).2 hcommas, separateEntries, hpieces]
    decide
  · rw [(horder empty .ascending).2 hcommas, separateEntries, hpieces]
    decide
  · rw [hpieces]
    exact List.mem_cons_self
  · have hmem : call ∈ fieldTokens ansi fields := by
      rw [hpieces]
      exact List.mem_cons_self
    have hcall := (hrenders hq hbalanced hmatched call hmem).2
    have hfield : stripDirection (Text.trim (call.flatMap Token.text)) = "f(a)".toList := by decide
    rwa [hfield] at hcall

/-- A comma inside a field separates entries too: the two parts of a call are no balanced entries. A
closing quote that stands alone, and one that begins a marker, are read as part of a name when the
name before them is quoted. -/
theorem not_entries_at_separating_commas :
    let call := "COALESCE(a, b)"
    let alone := "x](y)"
    let marked := "(x:y)"
    let colon := { ansi with quotes := ⟨'[', ':'⟩ }
    let text (d : Dialect) (field : String) := (SortKey.text d ⟨field, .ascending⟩).toList
    Token.balances 0 (Token.scan ansi.quotes call.toList) = true ∧
      (Token.scan ansi.quotes call.toList).filter Token.isEnclosed = [] ∧
      (separateEntries ansi call).map String.ofList = [call] ∧
      (empty.groupBy call).groups = ["COALESCE(a", "b)"] ∧
      (empty.orderBy call .ascending).order = [⟨"COALESCE(a", .ascending⟩, ⟨"b)", .ascending⟩] ∧
      text ansi "COALESCE(a" = "COALESCE(\"a\" ASC".toList ∧
      Token.balances 0 (Token.scan ansi.quotes (text ansi "COALESCE(a")) = false ∧
    Token.balances 0 (Token.scan sqlServer.quotes alone.toList) = true ∧
      (Token.scan sqlServer.quotes alone.toList).filter Token.isEnclosed = [] ∧
      (empty.orderBy alone .ascending).order = [⟨alone, .ascending⟩] ∧
      text sqlServer alone = "[x]]([y]) ASC".toList ∧
      Token.balances 0 (Token.scan sqlServer.quotes (text sqlServer alone)) = false ∧
    Token.balances 0 (Token.scan colon.quotes marked.toList) = true ∧
      (Token.scan colon.quotes marked.toList).filter Token.isEnclosed = [] ∧
      (empty.orderBy marked .ascending).order = [⟨marked, .ascending⟩] ∧
      text colon marked = "([x::y) ASC".toList ∧
      Token.balances 0 (Token.scan colon.quotes (text colon marked)) = false := by
  decide +kernel

end

end Select

end PortableSql
