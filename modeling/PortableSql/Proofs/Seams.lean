import Mathlib.Data.List.Basic
import PortableSql.Proofs.Tokens

/-!
# Expressions put together

A token reads on into the text behind it only where a quote is open or doubled and where word
characters go on. So if nothing is left open at the end of an expression and the next text begins
with another sign, the tokens of the two texts stay as they are (`Token.scan_append`). A word looks
further, past blanks, for the parenthesis of a call; with no such parenthesis the expressions are
quoted one after the other (`Dialect.quoteExpression_append`), as they are at a comma.
-/

namespace PortableSql

namespace Token

/-- All tokens but a literal or a quoted name without its closing quote. -/
inductive Closed (q : QuotePair) : Token → Prop where
  | literal {s : List Char} : Paired '\'' s → Closed q (literal ('\'' :: (s ++ ['\''])))
  | quoted {s : List Char} : Paired q.closing s →
      Closed q (quoted (q.opening :: (s ++ [q.closing])))
  | marker (s : List Char) : Closed q (marker s)
  | word (s : List Char) : Closed q (word s)
  | other (c : Char) : Closed q (other c)

/-- No literal and no quoted name is open at the end of a text. A quote closes its literal unless it
is doubled, a backslash before it or not. -/
def ClosedAtEnd (q : QuotePair) (s : List Char) : Prop :=
  ∀ t, (scan q s).getLast? = some t → Closed q t

section
variable {q : QuotePair} {t : Token} {s rest x y r : List Char} {ts us : List Token} {c : Char}

/-! ## The text behind a token -/

theorem Ends.congr_head? {close : Char} (h : Ends close s x) (hne : x ≠ [])
    (hhead : x.head? = y.head?) : Ends close s y := by
  cases h with
  | closed hs hx => exact .closed hs (hhead ▸ hx)
  | unclosed _ => exact absurd rfl hne

/-- A token that does not end the text depends on the next character only. -/
theorem Heads.congr_head? (h : Heads q t x) (hne : x ≠ []) (hhead : x.head? = y.head?) :
    Heads q t y := by
  have hstarts : startsWord x = startsWord y := by rw [startsWord_eq, startsWord_eq, hhead]
  cases h with
  | literal hs => exact .literal (hs.congr_head? hne hhead)
  | quoted hopen hs => exact .quoted hopen (hs.congr_head? hne hhead)
  | marker hopen hsign hrun => exact .marker hopen hsign ⟨hrun.isWord, hstarts ▸ hrun.ends⟩
  | word hopen hrun => exact .word hopen ⟨hrun.isWord, hstarts ▸ hrun.ends⟩
  | other hliteral hopen hmarker hc => exact .other hliteral hopen (hstarts ▸ hmarker) hc

/-- A closed token at the end of a text stays as it is before a sign that does not touch its closing
quote. -/
theorem Closed.heads_cons (ht : Closed q t) (h : Heads q t []) (hword : Text.isWord c = false)
    (htouch : t.text.getLast? = some c → c ≠ '\'' ∧ c ≠ q.closing) (r : List Char) :
    Heads q t (c :: r) := by
  have hstarts : startsWord (c :: r) = false := hword
  cases ht with
  | literal hs =>
    refine .literal (.closed hs fun heq => ?_)
    obtain rfl : c = '\'' := Option.some.inj heq
    exact (htouch (by rw [text, ← List.cons_append, List.getLast?_concat])).1 rfl
  | quoted hs =>
    cases h with
    | quoted hopen =>
      refine .quoted hopen (.closed hs fun heq => ?_)
      obtain rfl : c = q.closing := Option.some.inj heq
      exact (htouch (by rw [text, ← List.cons_append, List.getLast?_concat])).2 rfl
  | marker =>
    cases h with
    | marker hopen hsign hrun => exact .marker hopen hsign ⟨hrun.isWord, hstarts⟩
  | word =>
    cases h with
    | word hopen hrun => exact .word hopen ⟨hrun.isWord, hstarts⟩
  | other =>
    cases h with
    | other hliteral hopen _ hc =>
      exact .other hliteral hopen (by rw [hstarts, Bool.and_false]) hc

/-! ## Splits put together -/

/-- Only the last token of a text can change when text is put behind it. -/
theorem Splits.append_of_heads (h : Splits q s us)
    (hlast : ∀ t, us.getLast? = some t → Heads q t y) (hy : Splits q y ts) :
    Splits q (s ++ y) (us ++ ts) := by
  induction h with
  | nil => exact hy
  | @cons t rest us ht hus ih =>
    rw [List.append_assoc, List.cons_append]
    cases us with
    | nil =>
      cases hus with
      | nil => exact .cons (hlast t rfl) hy
    | cons u us =>
      cases rest with
      | nil => cases hus.eq_scan.trans (scan.eq_1 q)
      | cons c r => exact .cons (ht.congr_head? (List.cons_ne_nil c r) rfl) (ih hlast)

theorem Splits.heads_getLast? (h : Splits q s us) (hlast : us.getLast? = some t) :
    Heads q t [] ∧ s.getLast? = t.text.getLast? := by
  obtain ⟨us, rfl⟩ := List.getLast?_eq_some_iff.1 hlast
  have hheads : Heads q t [] := h.of_append.heads
  obtain ⟨c, r, htext, -⟩ := hheads.exists_next_eq
  refine ⟨hheads, ?_⟩
  rw [← h.flatMap_text, List.flatMap_append, List.flatMap_singleton]
  refine List.getLast?_append_of_ne_nil _ ?_
  rw [List.append_nil] at htext
  simp [htext]

/-- Where nothing is open at the end of a text, a sign behind it that doubles no quote begins a
token. -/
theorem scan_append (h : ClosedAtEnd q s) (hword : Text.isWord c = false)
    (htouch : s.getLast? = some c → c ≠ '\'' ∧ c ≠ q.closing) (r : List Char) :
    scan q (s ++ c :: r) = scan q s ++ scan q (c :: r) := by
  have hsplits := splits_scan q s
  refine (hsplits.append_of_heads (fun t ht => ?_) (splits_scan q (c :: r))).eq_scan.symm
  obtain ⟨hheads, hend⟩ := hsplits.heads_getLast? ht
  exact (h t ht).heads_cons hheads hword (hend ▸ htouch) r

end

end Token

/-! ## Expressions that are quoted -/

namespace Dialect

section
variable {d : Dialect} {c : Char} {y : List Char} {vs : List Token}

/-- What is written for a token does not change when a text that begins with no parenthesis is put
behind it. -/
theorem written_append (extra : List String) (hy : (y.find? fun c => !Text.isBlank c) ≠ some '(')
    (x : List Char) (t : Token) : d.written extra (x ++ y) t = d.written extra x t := by
  cases t with
  | word w =>
    have hcalled : ((x ++ y).find? fun c => !Text.isBlank c) = some '(' ↔
        (x.find? fun c => !Text.isBlank c) = some '(' := by
      rw [List.find?_append]
      cases x.find? fun c => !Text.isBlank c with
      | none => simpa using hy
      | some c => rfl
    have hname : d.IsName extra w (x ++ y) ↔ d.IsName extra w x :=
      ⟨fun h => ⟨h.not_number, fun hx => h.not_called (hcalled.2 hx), h.not_bare⟩,
        fun h => ⟨h.not_number, fun hx => h.not_called (hcalled.1 hx), h.not_bare⟩⟩
    simp only [written, hname]
  | _ => rfl

theorem quoteTokens_append (extra : List String) (us : List Token)
    (hvs : ((vs.flatMap Token.text).find? fun c => !Text.isBlank c) ≠ some '(') :
    d.quoteTokens extra (us ++ vs) = d.quoteTokens extra us ++ d.quoteTokens extra vs := by
  induction us with
  | nil => rfl
  | cons t us ih =>
    rw [List.cons_append, quoteTokens_cons, List.flatMap_append, written_append extra hvs, ih,
      quoteTokens_cons, List.append_assoc]

/-- Expressions are quoted one after the other where the first is closed and the second begins with
a sign that touches no quote of the first and calls no word of it. -/
theorem quoteExpression_append {a b : String} {r : List Char} (extra : List String)
    (ha : Token.ClosedAtEnd d.quotes a.toList) (hb : b.toList = c :: r)
    (hword : Text.isWord c = false) (hink : Text.isBlank c = false) (hcall : c ≠ '(')
    (htouch : a.toList.getLast? = some c → c ≠ '\'' ∧ c ≠ d.quotes.closing) :
    d.quoteExpression extra (a ++ b) = d.quoteExpression extra a ++ d.quoteExpression extra b := by
  have hfirst : ((Token.scan d.quotes (c :: r)).flatMap Token.text).find?
      (fun c => !Text.isBlank c) ≠ some '(' := by
    rw [Token.flatMap_text_scan, List.find?_cons_of_pos (by simp [hink])]
    exact fun heq => hcall (Option.some.inj heq)
  rw [quoteExpression, String.toList_append, hb, Token.scan_append ha hword htouch,
    d.quoteTokens_append extra _ hfirst, String.ofList_append, ← hb]
  rfl

theorem quoteExpression_comma (extra : List String) (hopen : d.quotes.opening ≠ ',') (b : String) :
    d.quoteExpression extra ("," ++ b) = "," ++ d.quoteExpression extra b := by
  have hheads : Token.Heads d.quotes (.other ',') b.toList :=
    .other (by decide) hopen.symm rfl (by decide)
  have hscan : Token.scan d.quotes (',' :: b.toList) = .other ',' :: Token.scan d.quotes b.toList :=
    (Token.Splits.cons hheads (Token.splits_scan d.quotes b.toList)).eq_scan.symm
  have htext : ("," ++ b).toList = ',' :: b.toList := by simp
  rw [quoteExpression, htext, hscan]
  exact String.ofList_append

end

/-- Names are quoted on both sides of a comma as they are without the other side, unless the comma
stands in a literal or a quoted name. -/
theorem quoteExpression_at_comma (d : Dialect) (extra : List String)
    (hopen : d.quotes.opening ≠ ',') (hclose : d.quotes.closing ≠ ',') {a : String}
    (ha : Token.ClosedAtEnd d.quotes a.toList) (b : String) :
    d.quoteExpression extra (a ++ "," ++ b) =
      d.quoteExpression extra a ++ "," ++ d.quoteExpression extra b := by
  have hb : ("," ++ b).toList = ',' :: b.toList := by simp
  have happend := quoteExpression_append extra ha hb (by decide) (by decide) (by decide)
    fun _ => ⟨by decide, hclose.symm⟩
  rw [String.append_assoc, happend, quoteExpression_comma extra hopen, String.append_assoc]

/-- A closed literal, and a word that the parenthesis behind the comma does not call. -/
theorem quoteExpression_at_comma_call :
    let a := "'it''s' f "
    ansi.quotes.opening ≠ ',' ∧ ansi.quotes.closing ≠ ',' ∧
      Token.ClosedAtEnd ansi.quotes a.toList ∧
      ansi.quoteExpression [] (a ++ "," ++ "(x)") = "'it''s' \"f\" ,(\"x\")" := by
  intro a
  have hopen : ansi.quotes.opening ≠ ',' := by decide
  have hclose : ansi.quotes.closing ≠ ',' := by decide
  have hclosed : Token.ClosedAtEnd ansi.quotes a.toList := by
    have hscan : (Token.scan ansi.quotes a.toList).getLast? = some (.other ' ') := by
      decide +kernel
    intro t ht
    rw [hscan] at ht
    cases ht
    exact .other ' '
  refine ⟨hopen, hclose, hclosed, ?_⟩
  rw [quoteExpression_at_comma ansi [] hopen hclose hclosed "(x)"]
  decide +kernel

end Dialect

end PortableSql
