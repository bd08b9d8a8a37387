import PortableSql.Proofs.QuotedName

/-!
# Reading a quoted expression again

The tokens of a quoted expression are known from those of the expression
(`Dialect.splits_requoted`): names have become quoted names, and where both quotes are one
character, quoted names that touch are one token, since the quotes between them read as a doubled
one. Copied words stay where they are, and what follows them begins a call exactly if it did before,
so quoting again changes nothing.
-/

namespace PortableSql

/-! ## Words have no blanks -/

namespace Text

/-- The codes of blanks. -/
def blankCodes : List Nat := [
  9, 10, 11, 12, 13, 0x20, 0x85, 0xA0, 0x1680, 0x2000, 0x2001, 0x2002, 0x2003, 0x2004, 0x2005,
  0x2006, 0x2007, 0x2008, 0x2009, 0x200A, 0x2028, 0x2029, 0x202F, 0x205F, 0x3000]

theorem toNat_mem_blankCodes {c : Char} (h : isBlank c = true) : c.toNat ∈ blankCodes := by
  simp only [isBlank, Bool.or_eq_true, Bool.and_eq_true, decide_eq_true_eq, beq_iff_eq] at h
  simp only [blankCodes, List.mem_cons, List.not_mem_nil, or_false]
  omega

theorem all_blankCodes : blankCodes.all (fun n => !isWord (Char.ofNat n)) = true := by
  decide +kernel

theorem isBlank_of_isWord {c : Char} (h : isWord c = true) : isBlank c = false := by
  cases hblank : isBlank c with
  | false => rfl
  | true =>
    have hword := List.all_eq_true.1 all_blankCodes c.toNat (toNat_mem_blankCodes hblank)
    rw [Char.ofNat_toNat, h] at hword
    cases hword

theorem not_isWord_of_isBlank {c : Char} (h : isBlank c = true) : isWord c = false := by
  refine Bool.eq_false_iff.2 fun hword => ?_
  rw [isBlank_of_isWord hword] at h
  cases h

end Text

/-! ## Quotes that are no other signs -/

/-- A character that can be told from words, blanks, string literals, markers and calls. -/
structure QuotePair.IsSign (c : Char) : Prop where
  not_word : Text.isWord c = false
  not_blank : Text.isBlank c = false
  not_other : c ∉ ['\'', '(', ':', '@', '$']

instance (c : Char) : Decidable (QuotePair.IsSign c) :=
  decidable_of_iff (_ ∧ _ ∧ _)
    ⟨fun ⟨hword, hblank, hother⟩ => ⟨hword, hblank, hother⟩,
      fun h => ⟨h.not_word, h.not_blank, h.not_other⟩⟩

/-- Quotes that are no part of words, blanks and string literals, of which the closing one begins
no marker either. -/
structure QuotePair.Clear (q : QuotePair) : Prop where
  opening_not_word : Text.isWord q.opening = false
  opening_not_blank : Text.isBlank q.opening = false
  opening_ne_literal : q.opening ≠ '\''
  closing_not_word : Text.isWord q.closing = false
  closing_not_blank : Text.isBlank q.closing = false
  closing_ne_literal : q.closing ≠ '\''
  closing_not_marker : Token.isMarkerSign q.closing = false

namespace QuotePair.IsSign

variable {c : Char} (h : IsSign c)
include h

theorem ne_literal : c ≠ '\'' := fun heq => h.not_other (by simp [heq])

theorem ne_call : c ≠ '(' := fun heq => h.not_other (by simp [heq])

theorem not_isMarkerSign : Token.isMarkerSign c = false := by
  have hother := h.not_other
  simp only [List.mem_cons, List.not_mem_nil, or_false, not_or] at hother
  simp [Token.isMarkerSign, hother]

theorem clear : QuotePair.Clear ⟨c, c⟩ where
  opening_not_word := h.not_word
  opening_not_blank := h.not_blank
  opening_ne_literal := h.ne_literal
  closing_not_word := h.not_word
  closing_not_blank := h.not_blank
  closing_ne_literal := h.ne_literal
  closing_not_marker := h.not_isMarkerSign

end QuotePair.IsSign

instance (q : QuotePair) : Decidable q.Clear :=
  decidable_of_iff (_ ∧ _ ∧ _ ∧ _ ∧ _ ∧ _ ∧ _)
    ⟨fun ⟨h₁, h₂, h₃, h₄, h₅, h₆, h₇⟩ => ⟨h₁, h₂, h₃, h₄, h₅, h₆, h₇⟩,
      fun h => ⟨h.opening_not_word, h.opening_not_blank, h.opening_ne_literal, h.closing_not_word,
        h.closing_not_blank, h.closing_ne_literal, h.closing_not_marker⟩⟩

open Dialect in
/-- The quotes of all presets are clear. -/
example : [ansi, postgres, mysql, sqlite, sqlServer].all (fun d => d.quotes.Clear) = true := by
  decide

theorem QuotePair.flatMap_double_of_forall_ne (q : QuotePair) {s : List Char}
    (h : ∀ c ∈ s, c ≠ q.closing) : s.flatMap q.double = s := by
  induction s with
  | nil => rfl
  | cons c s ih =>
    have hc : q.double c = [c] := if_neg (h c List.mem_cons_self)
    rw [List.flatMap_cons, hc, ih fun e he => h e (List.mem_cons_of_mem c he)]
    rfl

namespace Token

/-! ## Quoted names that touch -/

/-- A quoted name before tokens. Where both quotes are one character, it takes in a quoted name
that it touches. -/
def glue (q : QuotePair) (s : List Char) : List Token → List Token
  | quoted t :: ts =>
    if q.opening = q.closing then quoted (s ++ t) :: ts else quoted s :: quoted t :: ts
  | ts => quoted s :: ts

section
variable {q : QuotePair} {t : Token} {s rest : List Char} {ts : List Token}

theorem flatMap_text_glue (q : QuotePair) (s : List Char) (ts : List Token) :
    (glue q s ts).flatMap text = s ++ ts.flatMap text := by
  unfold glue
  split
  · split <;> simp [text]
  · simp [text]

theorem paired_of_forall_ne {close : Char} (h : ∀ c ∈ s, c ≠ close) : Paired close s := by
  induction s with
  | nil => exact .nil
  | cons c s ih =>
    exact .plain (h c List.mem_cons_self) (ih fun e he => h e (List.mem_cons_of_mem c he))

theorem glue_of_ne (h : q.opening ≠ q.closing) (s : List Char) (ts : List Token) :
    glue q s ts = quoted s :: ts := by
  unfold glue
  split
  · rw [if_neg h]
  · rfl

theorem Paired.ends_append {close : Char} {p : List Char} (hp : Paired close p)
    (h : Ends close s rest) : Ends close (p ++ s) rest := by
  induction hp with
  | nil => exact h
  | plain hc _ ih => exact ih.plain hc
  | pair _ ih => exact ih.pair

theorem Splits.exists_heads (h : Splits q s ts) (ht : t ∈ ts) : ∃ rest, Heads q t rest := by
  induction h with
  | nil => cases ht
  | @cons u rest us hu _ ih =>
    rcases List.mem_cons.1 ht with rfl | ht
    · exact ⟨rest, hu⟩
    · exact ih ht

/-- Where a text begins with the opening quote, its first token is a quoted name. -/
theorem Splits.exists_quoted (h : Splits q s ts) (hopen : q.opening ≠ '\'')
    (hhead : s.head? = some q.opening) :
    ∃ t us, ts = quoted (q.opening :: t) :: us ∧ Ends q.closing t (us.flatMap text) := by
  cases h with
  | nil => cases hhead
  | @cons t rest us ht hus =>
    rw [← hus.flatMap_text] at ht
    cases ht with
    | literal => exact absurd (Option.some.inj hhead).symm hopen
    | @quoted s _ _ hs => exact ⟨s, us, rfl, hs⟩
    | marker hne => exact absurd (Option.some.inj hhead) hne
    | word hne => exact absurd (Option.some.inj hhead) hne
    | other _ hne => exact absurd (Option.some.inj hhead) hne

theorem Splits.head?_of_quoted {x : List Char} (h : Splits q s (quoted x :: ts)) :
    s.head? = some q.opening := by
  cases h with
  | cons ht _ =>
    cases ht with
    | quoted => rfl

/-- A closed name before a text that goes on with the closing quote only where that opens a
name. -/
theorem Splits.glue (h : Splits q s ts) (hopen : q.opening ≠ '\'') {p : List Char}
    (hp : Paired q.closing p) (hhead : s.head? = some q.closing → q.opening = q.closing) :
    Splits q ((q.opening :: (p ++ [q.closing])) ++ s)
      (Token.glue q (q.opening :: (p ++ [q.closing])) ts) := by
  by_cases htouch : s.head? = some q.closing
  · have hsame := hhead htouch
    rw [← hsame] at htouch
    obtain ⟨t, us, rfl, ht⟩ := h.exists_quoted hopen htouch
    have hus : Splits q (us.flatMap text) us := by
      rw [← List.singleton_append] at h
      exact h.of_append
    have hends : Ends q.closing (p ++ (q.closing :: q.closing :: t)) (us.flatMap text) :=
      hp.ends_append ht.pair
    have hsplits := Splits.cons (Heads.quoted hopen hends) hus
    rw [Token.glue, if_pos hsame]
    rw [← h.flatMap_text]
    simpa [text, hsame] using hsplits
  · have hglue : Token.glue q (q.opening :: (p ++ [q.closing])) ts =
        quoted (q.opening :: (p ++ [q.closing])) :: ts := by
      by_cases hsame : q.opening = q.closing
      · unfold Token.glue
        split
        · exact absurd (hsame ▸ h.head?_of_quoted) htouch
        · rfl
      · exact glue_of_ne hsame _ ts
    rw [hglue]
    exact .cons (.quoted hopen (.closed hp htouch)) h

theorem firstInk?_cons_of_ink {c : Char} {x : List Char} (htext : t.text = c :: x)
    (hc : Text.isBlank c = false) (ts : List Token) : firstInk? (t :: ts) = some c := by
  have hfind : t.text.find? (fun c => !Text.isBlank c) = some c := by
    rw [htext]
    exact List.find?_cons_of_pos (by simp [hc])
  rw [firstInk?, hfind, Option.some_or]

theorem firstInk?_glue (q : QuotePair) (x : List Char) (ts : List Token) :
    firstInk? (glue q x ts) = firstInk? (quoted x :: ts) := by
  rw [firstInk?_eq, firstInk?_eq, flatMap_text_glue]
  rfl

/-- Where no closing quote stands alone, a closing quote at the beginning is an opening one. -/
theorem Splits.opening_eq_closing (h : Splits q s ts) (hq : q.Clear)
    (hlone : ∀ t ∈ ts, t ≠ other q.closing) (hhead : s.head? = some q.closing) :
    q.opening = q.closing := by
  cases h with
  | nil => cases hhead
  | @cons t rest us ht hus =>
    cases ht with
    | literal => exact absurd (Option.some.inj hhead).symm hq.closing_ne_literal
    | quoted => exact Option.some.inj hhead
    | @marker c _ _ _ _ hsign =>
      have hc : c = q.closing := Option.some.inj hhead
      rw [hc, hq.closing_not_marker] at hsign
      cases hsign
    | @word c _ _ _ hrun =>
      have hc : c = q.closing := Option.some.inj hhead
      have hword := hrun.isWord c List.mem_cons_self
      rw [hc, hq.closing_not_word] at hword
      cases hword
    | @other c =>
      have hc : c = q.closing := Option.some.inj hhead
      rw [hc] at hlone
      exact absurd rfl (hlone _ List.mem_cons_self)

end

end Token

/-! ## The tokens of a quoted expression -/

namespace Dialect

section
variable (d : Dialect) (extra : List String)

/-- The tokens of an expression whose names are quoted. -/
def requoted : List Token → List Token
  | [] => []
  | .word w :: ts =>
    if d.copies extra w ts then .word w :: requoted ts
    else Token.glue d.quotes (d.quotes.quote w) (requoted ts)
  | .quoted s :: ts => Token.glue d.quotes s (requoted ts)
  | t :: ts => t :: requoted ts

end

section
variable {d : Dialect} {extra : List String} {t : Token} {s rest w : List Char} {ts : List Token}

/-- A word is put between the quotes as it is. -/
theorem quote_word (hq : d.quotes.Clear) (hrun : Token.Run w rest) :
    d.quotes.quote w = d.quotes.opening :: (w ++ [d.quotes.closing]) ∧
      Token.Paired d.quotes.closing w := by
  have hne : ∀ c ∈ w, c ≠ d.quotes.closing := by
    rintro c hc rfl
    exact absurd (hrun.isWord _ hc) (by simp [hq.closing_not_word])
  have hstar : w ≠ ['*'] := by
    rintro rfl
    exact absurd (hrun.isWord '*' List.mem_cons_self) (by decide)
  rw [d.quotes.quote_of_ne hstar, d.quotes.flatMap_double_of_forall_ne hne]
  exact ⟨rfl, Token.paired_of_forall_ne hne⟩

/-- A quoted expression begins as the expression does, or with the opening quote of a name. -/
theorem head?_quoteTokens (extra : List String) (hq : d.quotes.Clear)
    (h : Token.Splits d.quotes s ts) :
    (d.quoteTokens extra ts).head? = s.head? ∨
      Token.startsWord s = true ∧ (d.quoteTokens extra ts).head? = some d.quotes.opening := by
  cases h with
  | nil => exact .inl rfl
  | @cons t rest ts ht _ =>
    cases ht with
    | @word c w _ _ hrun =>
      rw [quoteTokens]
      split
      · exact .inl rfl
      · rw [(quote_word hq hrun).1]
        exact .inr ⟨hrun.isWord c List.mem_cons_self, rfl⟩
    | literal => exact .inl rfl
    | quoted => exact .inl rfl
    | marker => exact .inl rfl
    | other => exact .inl rfl

theorem startsWord_quoteTokens (hq : d.quotes.Clear) (h : Token.Splits d.quotes s ts)
    (hs : Token.startsWord s = false) :
    Token.startsWord (d.quoteTokens extra ts) = false := by
  rcases head?_quoteTokens extra hq h with hhead | ⟨hword, -⟩
  · rw [Token.startsWord_eq] at hs ⊢
    rwa [hhead]
  · rw [hs] at hword
    cases hword

/-- Of a character that is no word character, a quoted expression begins with it only if the
expression does, or if it is the quote of a name. -/
theorem head?_ne_of_head?_ne {c : Char} (hq : d.quotes.Clear) (h : Token.Splits d.quotes s ts)
    (hs : s.head? ≠ some c) (hc : (d.quoteTokens extra ts).head? = some c) :
    c = d.quotes.opening := by
  rcases head?_quoteTokens extra hq h with hhead | ⟨-, hhead⟩
  · rw [hhead] at hc
    exact absurd hc hs
  · rw [hhead] at hc
    exact (Option.some.inj hc).symm

theorem quoteTokens_eq_nil (h : Token.Splits d.quotes [] ts) :
    d.quoteTokens extra ts = [] := by
  rw [h.eq_scan, Token.scan, quoteTokens]

/-- Tokens other than words and quoted names stand before the quoted rest as before the rest. -/
theorem heads_quoteTokens (extra : List String) (hq : d.quotes.Clear)
    (ht : Token.Heads d.quotes t rest)
    (h : Token.Splits d.quotes rest ts) (hquoted : ∀ x, t ≠ .quoted x) :
    Token.Heads d.quotes t (d.quoteTokens extra ts) := by
  cases ht with
  | literal hs =>
    refine .literal ?_
    cases hs with
    | closed hp hrest =>
      refine .closed hp fun hhead => ?_
      exact hq.opening_ne_literal (head?_ne_of_head?_ne hq h hrest hhead).symm
    | unclosed hp =>
      rw [quoteTokens_eq_nil h]
      exact .unclosed hp
  | quoted => exact absurd rfl (hquoted _)
  | marker hopen hsign hrun =>
    exact .marker hopen hsign ⟨hrun.isWord, startsWord_quoteTokens hq h hrun.ends⟩
  | word hopen hrun =>
    exact .word hopen ⟨hrun.isWord, startsWord_quoteTokens hq h hrun.ends⟩
  | @other c _ hliteral hopen hmarker hc =>
    refine .other hliteral hopen ?_ hc
    cases hsign : Token.isMarkerSign c with
    | false => rfl
    | true =>
      rw [hsign, Bool.true_and] at hmarker
      rw [startsWord_quoteTokens hq h hmarker]
      rfl

/-- Where no closing quote stands alone, the quoted expression splits into the tokens that are
expected. -/
theorem splits_requoted (extra : List String) (hq : d.quotes.Clear)
    (h : Token.Splits d.quotes s ts)
    (hlone : ∀ t ∈ ts, t ≠ .other d.quotes.closing) :
    Token.Splits d.quotes (d.quoteTokens extra ts) (d.requoted extra ts) := by
  induction h with
  | nil => exact .nil
  | @cons t rest ts ht hts ih =>
    have hrest := ih fun u hu => hlone u (List.mem_cons_of_mem t hu)
    have hheads := heads_quoteTokens extra hq ht hts
    cases t with
    | word w =>
      rw [quoteTokens, requoted]
      split
      · exact .cons (hheads fun x h => by cases h) hrest
      · obtain ⟨hquote, hpaired⟩ := quote_word hq ht.run.1
        rw [hquote]
        refine hrest.glue hq.opening_ne_literal hpaired fun hhead => ?_
        by_cases hclosing : rest.head? = some d.quotes.closing
        · exact hts.opening_eq_closing hq (fun u hu => hlone u (List.mem_cons_of_mem _ hu)) hclosing
        · exact (head?_ne_of_head?_ne hq hts hclosing hhead).symm
    | quoted x =>
      rw [quoteTokens, requoted]
      · cases ht with
        | quoted hopen hends =>
          cases hends with
          | closed hp hclosing =>
            exact hrest.glue hopen hp fun hhead =>
              (head?_ne_of_head?_ne hq hts hclosing hhead).symm
          | unclosed hp =>
            obtain rfl : ts = [] := by rw [hts.eq_scan, Token.scan]
            exact .cons (.quoted hopen (.unclosed hp)) .nil
      · intro w h
        cases h
    | literal x => exact .cons (hheads fun x h => by cases h) hrest
    | marker x => exact .cons (hheads fun x h => by cases h) hrest
    | other c => exact .cons (hheads fun x h => by cases h) hrest

/-! ## Quoting twice -/

theorem quoteTokens_glue (x : List Char) (ts : List Token) :
    d.quoteTokens extra (Token.glue d.quotes x ts) = x ++ d.quoteTokens extra ts := by
  unfold Token.glue
  split
  · split
    · simp only [quoteTokens, Token.text, List.append_assoc]
    · simp only [quoteTokens, Token.text]
  · simp only [quoteTokens, Token.text]

/-- The first character that is not blank begins a call after quoting if it did before. -/
theorem firstInk?_requoted (hq : d.quotes.Clear) (hcall : d.quotes.opening ≠ '(')
    (h : Token.Splits d.quotes s ts) :
    (Token.firstInk? (d.requoted extra ts) == some '(') = (Token.firstInk? ts == some '(') := by
  induction h with
  | nil => rfl
  | @cons t rest ts ht hts ih =>
    have hsame (x : List Char) :
        ((x.find? fun c => !Text.isBlank c).or (Token.firstInk? (d.requoted extra ts)) ==
            some '(') =
          ((x.find? fun c => !Text.isBlank c).or (Token.firstInk? ts) == some '(') := by
      cases x.find? fun c => !Text.isBlank c with
      | none => exact ih
      | some c => rfl
    cases t with
    | word w =>
      rw [requoted]
      split
      · exact hsame w
      · obtain ⟨hrun, -⟩ := ht.run
        obtain ⟨c, w, rfl⟩ : ∃ c w', w = c :: w' := by
          cases ht with
          | word => exact ⟨_, _, rfl⟩
        have hc : Text.isWord c = true := hrun.isWord c List.mem_cons_self
        have hne : c ≠ '(' := by
          rintro rfl
          exact absurd hc (by decide)
        rw [Token.firstInk?_glue, (quote_word hq hrun).1,
          Token.firstInk?_cons_of_ink rfl hq.opening_not_blank,
          Token.firstInk?_cons_of_ink (t := .word (c :: w)) rfl (Text.isBlank_of_isWord hc)]
        have hopen : (some d.quotes.opening == some '(') = false := by
          simpa using hcall
        rw [hopen]
        simpa using hne
    | quoted x =>
      rw [requoted, Token.firstInk?_glue]
      exact hsame x
    | literal x => exact hsame x
    | marker x => exact hsame x
    | other c => exact hsame [c]

/-- The words that were copied are copied again, and there are no others. -/
theorem quoteTokens_requoted (hq : d.quotes.Clear) (hcall : d.quotes.opening ≠ '(')
    (h : Token.Splits d.quotes s ts) :
    d.quoteTokens extra (d.requoted extra ts) = d.quoteTokens extra ts := by
  induction h with
  | nil => rfl
  | @cons t rest ts ht hts ih =>
    cases t with
    | word w =>
      have hcopies : d.copies extra w (d.requoted extra ts) = d.copies extra w ts := by
        simp only [copies, firstInk?_requoted hq hcall hts]
      rw [requoted, quoteTokens]
      split
      · next hcopied => rw [quoteTokens, hcopies, if_pos hcopied, ih]
      · rw [quoteTokens_glue, ih]
    | quoted x =>
      rw [requoted, quoteTokens_glue, ih]
      rfl
    | literal x => exact congrArg (x ++ ·) ih
    | marker x => exact congrArg (x ++ ·) ih
    | other c => exact congrArg ([c] ++ ·) ih

end

/-- Where both quotes of a dialect are one character, and it is no part of words, blanks, literals,
markers and calls, quoting the names of a quoted expression changes nothing. -/
theorem quoteExpression_idem (d : Dialect) (extra : List String) {c : Char}
    (hquotes : d.quotes = ⟨c, c⟩) (hc : QuotePair.IsSign c) (s : String) :
    d.quoteExpression extra (d.quoteExpression extra s) = d.quoteExpression extra s := by
  have hq : d.quotes.Clear := by
    rw [hquotes]
    exact hc.clear
  have hcall : d.quotes.opening ≠ '(' := by
    rw [hquotes]
    exact hc.ne_call
  have hsplits := Token.splits_scan d.quotes s.toList
  have hlone : ∀ t ∈ Token.scan d.quotes s.toList, t ≠ .other d.quotes.closing := by
    rintro t ht rfl
    obtain ⟨rest, hheads⟩ := hsplits.exists_heads ht
    cases hheads with
    | other _ hopen => exact hopen (by rw [hquotes])
  have hagain := splits_requoted extra hq hsplits hlone
  rw [quoteExpression, quoteExpression, String.toList_ofList, ← hagain.eq_scan,
    quoteTokens_requoted hq hcall hsplits]

/-- Quoted names that touch names, a call, a copied word and a name that is not closed. -/
theorem quoteExpression_idem_touching :
    let s := "a\"b\"c(d) AS e f\"g :h"
    ansi.quotes = ⟨'"', '"'⟩ ∧ QuotePair.IsSign '"' ∧
      ansi.quoteExpression ["f"] (ansi.quoteExpression ["f"] s) = ansi.quoteExpression ["f"] s := by
  intro s
  have hsign : QuotePair.IsSign '"' := by decide
  exact ⟨rfl, hsign, quoteExpression_idem ansi ["f"] rfl hsign s⟩

end Dialect

end PortableSql
