import PortableSql.Token

/-!
# Tokens of an expression

Which tokens a text has is said by two relations: `Token.Heads` for the token before a given rest,
and `Token.Splits` for the whole text. A text has one split, and scanning finds it
(`Token.splits_iff`). A quoted expression is what is written for its tokens one by one; only for a
word does it depend on the text that follows (`Dialect.quoteTokens_eq`).
-/

namespace PortableSql

namespace Token

/-! ## What stands between quotes -/

/-- A text in which the closing character stands in pairs only. -/
inductive Paired (close : Char) : List Char → Prop where
  | nil : Paired close []
  | plain {c : Char} {s : List Char} : c ≠ close → Paired close s → Paired close (c :: s)
  | pair {s : List Char} : Paired close s → Paired close (close :: close :: s)

/-- The text before `rest` goes to a closing character that is not doubled, or to the end. -/
inductive Ends (close : Char) : List Char → List Char → Prop where
  | closed {s rest : List Char} : Paired close s → rest.head? ≠ some close →
      Ends close (s ++ [close]) rest
  | unclosed {s : List Char} : Paired close s → Ends close s []

section
variable {close c : Char} {s rest : List Char}

theorem enclosed_plain (h : c ≠ close) (r : List Char) :
    enclosed close (c :: r) = (c :: (enclosed close r).1, (enclosed close r).2) := by
  cases r <;> simp only [enclosed, h, ↓reduceIte]

theorem enclosed_pair (close : Char) (r : List Char) :
    enclosed close (close :: close :: r) =
      (close :: close :: (enclosed close r).1, (enclosed close r).2) := by
  simp only [enclosed, ↓reduceIte]

theorem enclosed_close (h : rest.head? ≠ some close) :
    enclosed close (close :: rest) = ([close], rest) := by
  cases rest with
  | nil => simp only [enclosed, ↓reduceIte]
  | cons d r =>
    have hd : d ≠ close := fun heq => h (congrArg some heq)
    simp only [enclosed, hd, ↓reduceIte]

theorem Paired.append {t : List Char} (hs : Paired close s) (ht : Paired close t) :
    Paired close (s ++ t) := by
  induction hs with
  | nil => exact ht
  | plain hc _ ih => exact .plain hc ih
  | pair _ ih => exact .pair ih

theorem Paired.flatMap {f : Char → List Char} (h : ∀ c, Paired close (f c)) (s : List Char) :
    Paired close (s.flatMap f) := by
  induction s with
  | nil => exact .nil
  | cons c s ih =>
    rw [List.flatMap_cons]
    exact (h c).append ih

theorem Paired.enclosed_append (h : Paired close s) (r : List Char) :
    enclosed close (s ++ r) = (s ++ (enclosed close r).1, (enclosed close r).2) := by
  induction h with
  | nil => rfl
  | plain hc _ ih => rw [List.cons_append, enclosed_plain hc, ih]; rfl
  | pair _ ih => rw [List.cons_append, List.cons_append, enclosed_pair, ih]; rfl

theorem Ends.enclosed_append (h : Ends close s rest) : enclosed close (s ++ rest) = (s, rest) := by
  cases h with
  | closed hs hrest =>
    rw [List.append_assoc, hs.enclosed_append, List.singleton_append, enclosed_close hrest]
  | unclosed hs =>
    rw [hs.enclosed_append]
    simp [enclosed]

theorem Ends.plain (hc : c ≠ close) (h : Ends close s rest) : Ends close (c :: s) rest := by
  cases h with
  | closed hs hrest => exact .closed (.plain hc hs) hrest
  | unclosed hs => exact .unclosed (.plain hc hs)

theorem Ends.pair (h : Ends close s rest) : Ends close (close :: close :: s) rest := by
  cases h with
  | closed hs hrest => exact .closed (.pair hs) hrest
  | unclosed hs => exact .unclosed (.pair hs)

theorem ends_enclosed (close : Char) (s : List Char) :
    Ends close (enclosed close s).1 (enclosed close s).2 := by
  fun_induction enclosed close s with
  | case1 => exact .unclosed .nil
  | case2 => exact .closed .nil (Option.some_ne_none close).symm
  | case3 r s rest hr ih =>
    rw [hr] at ih
    exact ih.pair
  | case4 d r hd => exact .closed .nil fun heq => hd (Option.some.inj heq)
  | case5 d r hd s rest hr ih =>
    rw [hr] at ih
    exact ih.plain hd

end

/-! ## Runs of word characters -/

/-- Word characters, as many as there are before `rest`. -/
structure Run (w rest : List Char) : Prop where
  isWord : ∀ c ∈ w, Text.isWord c = true
  ends : startsWord rest = false

section
variable {c : Char} {w rest : List Char}

theorem startsWord_eq (s : List Char) : startsWord s = s.head?.any Text.isWord := by
  cases s <;> rfl

theorem takeWhile_of_not_startsWord (h : startsWord rest = false) :
    rest.takeWhile Text.isWord = [] := by
  cases rest with
  | nil => rfl
  | cons d r => exact List.takeWhile_cons_of_neg (by simpa [startsWord] using h)

theorem dropWhile_of_not_startsWord (h : startsWord rest = false) :
    rest.dropWhile Text.isWord = rest := by
  cases rest with
  | nil => rfl
  | cons d r => exact List.dropWhile_cons_of_neg (by simpa [startsWord] using h)

theorem Run.takeWhile_append (h : Run w rest) : (w ++ rest).takeWhile Text.isWord = w := by
  rw [List.takeWhile_append_of_pos h.isWord, takeWhile_of_not_startsWord h.ends, List.append_nil]

theorem Run.dropWhile_append (h : Run w rest) : (w ++ rest).dropWhile Text.isWord = rest := by
  rw [List.dropWhile_append_of_pos h.isWord, dropWhile_of_not_startsWord h.ends]

theorem Run.tail (h : Run (c :: w) rest) : Run w rest :=
  ⟨fun d hd => h.isWord d (List.mem_cons_of_mem c hd), h.ends⟩

theorem Run.cons (hc : Text.isWord c = true) (h : Run w rest) : Run (c :: w) rest := by
  refine ⟨fun d hd => ?_, h.ends⟩
  rcases List.mem_cons.1 hd with rfl | hd
  · exact hc
  · exact h.isWord d hd

theorem run_takeWhile (s : List Char) :
    Run (s.takeWhile Text.isWord) (s.dropWhile Text.isWord) := by
  refine ⟨List.all_eq_true.1 List.all_takeWhile, ?_⟩
  have hhead := List.head?_dropWhile_not Text.isWord s
  cases hs : s.dropWhile Text.isWord with
  | nil => rfl
  | cons d r => simpa [hs, startsWord] using hhead

theorem not_isMarkerSign_of_isWord (h : Text.isWord c = true) : isMarkerSign c = false := by
  refine Bool.eq_false_iff.2 fun hsign => ?_
  simp only [isMarkerSign, Bool.or_eq_true, beq_iff_eq] at hsign
  rcases hsign with (rfl | rfl) | rfl <;> exact absurd h (by decide)

end

/-! ## The split of a text -/

/-- The token before `rest`. Each kind is tried where those before it do not fit; a sign of a marker
and a quote of a literal are no word characters. -/
inductive Heads (q : QuotePair) : Token → List Char → Prop where
  | literal {s rest : List Char} : Ends '\'' s rest → Heads q (literal ('\'' :: s)) rest
  | quoted {s rest : List Char} : q.opening ≠ '\'' → Ends q.closing s rest →
      Heads q (quoted (q.opening :: s)) rest
  | marker {c d : Char} {w rest : List Char} : c ≠ q.opening → isMarkerSign c = true →
      Run (d :: w) rest → Heads q (marker (c :: d :: w)) rest
  | word {c : Char} {w rest : List Char} : c ≠ q.opening → Run (c :: w) rest →
      Heads q (word (c :: w)) rest
  | other {c : Char} {rest : List Char} : c ≠ '\'' → c ≠ q.opening →
      (isMarkerSign c && startsWord rest) = false → Text.isWord c = false → Heads q (other c) rest

/-- The tokens of a text, cut off one after the other. -/
inductive Splits (q : QuotePair) : List Char → List Token → Prop where
  | nil : Splits q [] []
  | cons {t : Token} {rest : List Char} {ts : List Token} : Heads q t rest → Splits q rest ts →
      Splits q (t.text ++ rest) (t :: ts)

section
variable {q : QuotePair} {t : Token} {s rest : List Char} {ts : List Token}

theorem Heads.exists_next_eq (h : Heads q t rest) :
    ∃ c r, t.text ++ rest = c :: r ∧ next q c r = (t, rest) := by
  cases h with
  | @literal s _ hs =>
    refine ⟨'\'', s ++ rest, rfl, ?_⟩
    rw [next, if_pos rfl, hs.enclosed_append]
  | @quoted s _ hopen hs =>
    refine ⟨q.opening, s ++ rest, rfl, ?_⟩
    rw [next, if_neg hopen, if_pos rfl, hs.enclosed_append]
  | @marker c d w _ hopen hsign hrun =>
    refine ⟨c, d :: w ++ rest, rfl, ?_⟩
    have hquote : c ≠ '\'' := by
      rintro rfl
      exact absurd hsign (by decide)
    have hstarts : startsWord (d :: w ++ rest) = true := hrun.isWord d List.mem_cons_self
    rw [next, if_neg hquote, if_neg hopen, hsign, hstarts, hrun.takeWhile_append,
      hrun.dropWhile_append]
    rfl
  | @word c w _ hopen hrun =>
    refine ⟨c, w ++ rest, rfl, ?_⟩
    have hc : Text.isWord c = true := hrun.isWord c List.mem_cons_self
    have hquote : c ≠ '\'' := by
      rintro rfl
      exact absurd hc (by decide)
    rw [next, if_neg hquote, if_neg hopen, not_isMarkerSign_of_isWord hc, hc,
      hrun.tail.takeWhile_append, hrun.tail.dropWhile_append]
    rfl
  | @other c _ hquote hopen hsign hc =>
    refine ⟨c, rest, rfl, ?_⟩
    rw [next, if_neg hquote, if_neg hopen, hsign, hc]
    rfl

theorem heads_next (q : QuotePair) (c : Char) (r : List Char) :
    Heads q (next q c r).1 (next q c r).2 := by
  by_cases hquote : c = '\''
  · subst hquote
    rw [next, if_pos rfl]
    exact .literal (ends_enclosed '\'' r)
  by_cases hopen : c = q.opening
  · subst hopen
    rw [next, if_neg hquote, if_pos rfl]
    exact .quoted hquote (ends_enclosed q.closing r)
  by_cases hmarker : (isMarkerSign c && startsWord r) = true
  · rw [next, if_neg hquote, if_neg hopen, if_pos hmarker]
    rw [Bool.and_eq_true] at hmarker
    cases r with
    | nil => exact absurd hmarker.2 (by decide)
    | cons d r =>
      have hd : Text.isWord d = true := hmarker.2
      rw [List.takeWhile_cons_of_pos hd, List.dropWhile_cons_of_pos hd]
      exact .marker hopen hmarker.1 ((run_takeWhile r).cons hd)
  by_cases hc : Text.isWord c = true
  · rw [next, if_neg hquote, if_neg hopen, if_neg hmarker, if_pos hc]
    exact .word hopen ((run_takeWhile r).cons hc)
  · rw [next, if_neg hquote, if_neg hopen, if_neg hmarker, if_neg hc]
    exact .other hquote hopen (Bool.eq_false_iff.2 hmarker) (Bool.eq_false_iff.2 hc)

theorem splits_scan (q : QuotePair) (s : List Char) : Splits q s (scan q s) := by
  induction s using scan.induct q with
  | case1 => rw [scan]; exact .nil
  | case2 c r ih =>
    rw [scan]
    have hsplit := Splits.cons (heads_next q c r) ih
    rwa [next_append] at hsplit

theorem Splits.eq_scan (h : Splits q s ts) : ts = scan q s := by
  induction h with
  | nil => rw [scan]
  | cons hhead _ ih =>
    obtain ⟨c, r, htext, hnext⟩ := hhead.exists_next_eq
    rw [htext, scan, hnext, ← ih]

/-- A text has one split. -/
theorem splits_iff : Splits q s ts ↔ ts = scan q s :=
  ⟨Splits.eq_scan, fun h => h ▸ splits_scan q s⟩

theorem Splits.flatMap_text (h : Splits q s ts) : ts.flatMap text = s := by
  rw [h.eq_scan, flatMap_text_scan]

theorem Splits.heads (h : Splits q s (t :: ts)) : Heads q t (ts.flatMap text) := by
  cases h with
  | cons hhead hsplit => rwa [hsplit.flatMap_text]

theorem Splits.of_append {us : List Token} (h : Splits q s (us ++ ts)) :
    Splits q (ts.flatMap text) ts := by
  induction us generalizing s with
  | nil =>
    rw [List.nil_append] at h
    rwa [h.flatMap_text]
  | cons u us ih =>
    cases h with
    | cons _ hsplit => exact ih hsplit

end

/-! ## Words are not cut -/

section
variable {q : QuotePair} {t : Token} {s rest w : List Char} {ts us : List Token}

theorem Ends.getLast?_of_ne_nil {close : Char} (h : Ends close s rest) (hrest : rest ≠ []) :
    s.getLast? = some close := by
  cases h with
  | closed _ _ => exact List.getLast?_concat
  | unclosed _ => exact absurd rfl hrest

/-- A token before a word character does not end in one. -/
theorem Heads.exists_getLast?_eq (h : Heads q t rest) (hclose : Text.isWord q.closing = false)
    (hrest : startsWord rest = true) :
    ∃ c, t.text.getLast? = some c ∧ Text.isWord c = false := by
  have hne : rest ≠ [] := by
    rintro rfl
    exact absurd hrest (by decide)
  cases h with
  | literal hs =>
    refine ⟨'\'', ?_, by decide⟩
    rw [text, List.getLast?_cons, hs.getLast?_of_ne_nil hne, Option.getD_some]
  | quoted _ hs =>
    refine ⟨q.closing, ?_, hclose⟩
    rw [text, List.getLast?_cons, hs.getLast?_of_ne_nil hne, Option.getD_some]
  | marker _ _ hrun => exact absurd hrest (by rw [hrun.ends]; decide)
  | word _ hrun => exact absurd hrest (by rw [hrun.ends]; decide)
  | @other c _ _ _ _ hc => exact ⟨c, rfl, hc⟩

theorem Heads.run (h : Heads q (Token.word w) rest) : Run w rest ∧ startsWord w = true := by
  cases h with
  | word _ hrun => exact ⟨hrun, hrun.isWord _ List.mem_cons_self⟩

/-- No word character stands before a word or after it. -/
theorem Splits.word_apart (h : Splits q s (us ++ word w :: ts))
    (hclose : Text.isWord q.closing = false) :
    (us.flatMap text).getLast?.any Text.isWord = false ∧ startsWord (ts.flatMap text) = false := by
  obtain ⟨hrun, hstarts⟩ := h.of_append.heads.run
  refine ⟨?_, hrun.ends⟩
  rcases us.eq_nil_or_concat with rfl | ⟨us, t, rfl⟩
  · rfl
  · rw [List.concat_eq_append, List.append_assoc, List.singleton_append] at h
    have hrest : startsWord ((word w :: ts).flatMap text) = true := by
      cases w with
      | nil => exact absurd hstarts (by decide)
      | cons c w => exact hstarts
    obtain ⟨c, hlast, hc⟩ := h.of_append.heads.exists_getLast?_eq hclose hrest
    rw [List.concat_eq_append, List.flatMap_append, List.flatMap_singleton, List.getLast?_append,
      hlast]
    exact hc

end

/-! ## What is written for a token -/

theorem firstInk?_eq (ts : List Token) :
    firstInk? ts = (ts.flatMap text).find? fun c => !Text.isBlank c := by
  induction ts with
  | nil => rfl
  | cons t ts ih => rw [firstInk?, ih, List.flatMap_cons, List.find?_append]

end Token

namespace Dialect

/-- Whether a word is a name, by the text that follows it: no number, not called, and no bare word
of the dialect or of this call. -/
structure IsName (d : Dialect) (extra : List String) (w following : List Char) : Prop where
  not_number : w.head?.any Char.isDigit = false
  not_called : (following.find? fun c => !Text.isBlank c) ≠ some '('
  not_bare : ∀ e ∈ d.bareWords ++ extra, Text.sameWord e.toList w = false

instance (d : Dialect) (extra : List String) (w following : List Char) :
    Decidable (d.IsName extra w following) :=
  decidable_of_iff (_ ∧ _ ∧ _)
    ⟨fun ⟨hnumber, hcalled, hbare⟩ => ⟨hnumber, hcalled, hbare⟩,
      fun h => ⟨h.not_number, h.not_called, h.not_bare⟩⟩

/-- Names are quoted, and all else is copied. -/
def written (d : Dialect) (extra : List String) (following : List Char) : Token → List Char
  | .word w => if d.IsName extra w following then d.quotes.quote w else w
  | t => t.text

section
variable (d : Dialect) (extra : List String)

theorem isName_iff (w : List Char) (ts : List Token) :
    d.IsName extra w (ts.flatMap Token.text) ↔ d.copies extra w ts = false := by
  have hnumber : Token.isNumber w = w.head?.any Char.isDigit := by cases w <;> rfl
  simp only [copies, Token.firstInk?_eq, hnumber, Bool.or_eq_false_iff, isBare, List.any_eq_false,
    String.toList_ofList, beq_eq_false_iff_ne, Bool.not_eq_true]
  constructor
  · intro h
    refine ⟨⟨⟨h.not_number, h.not_called⟩, fun e he => ?_⟩, fun e he => ?_⟩
    · exact h.not_bare e (List.mem_append_left extra he)
    · exact h.not_bare e (List.mem_append_right d.bareWords he)
  · rintro ⟨⟨⟨hnumber, hcalled⟩, hbare⟩, hextra⟩
    refine ⟨hnumber, hcalled, fun e he => ?_⟩
    rcases List.mem_append.1 he with he | he
    · exact hbare e he
    · exact hextra e he

theorem quoteTokens_cons (t : Token) (ts : List Token) :
    d.quoteTokens extra (t :: ts) =
      d.written extra (ts.flatMap Token.text) t ++ d.quoteTokens extra ts := by
  cases t with
  | word w =>
    rw [quoteTokens, written]
    cases hcopies : d.copies extra w ts with
    | true =>
      have hname : ¬d.IsName extra w (ts.flatMap Token.text) := by
        rw [isName_iff, hcopies]
        decide
      rw [if_pos rfl, if_neg hname]
    | false => rw [if_neg (by decide), if_pos ((d.isName_iff extra w ts).2 hcopies)]
  | _ => rfl

/-- Every token is written in its place, by itself and the text after it. -/
theorem quoteTokens_eq (ts : List Token) :
    d.quoteTokens extra ts =
      (ts.mapIdx fun i t => d.written extra ((ts.drop (i + 1)).flatMap Token.text) t).flatten := by
  induction ts with
  | nil => rfl
  | cons t ts ih =>
    rw [quoteTokens_cons, ih, List.mapIdx_cons, List.flatten_cons]
    rfl

end

/-- An expression has one split into tokens. They are the expression, and the quoted expression is
what is written for them, in their order: a name is quoted, and all else is copied. Where the
closing quote is no word character, no word character stands before a word or after it. -/
theorem quoteExpression_tokens (d : Dialect) (extra : List String) (s : String) :
    ∃ ts : List Token,
      (∀ us, Token.Splits d.quotes s.toList us ↔ us = ts) ∧
      ts.flatMap Token.text = s.toList ∧
      (d.quoteExpression extra s).toList =
        (ts.mapIdx fun i t =>
          d.written extra ((ts.drop (i + 1)).flatMap Token.text) t).flatten ∧
      (Text.isWord d.quotes.closing = false → ∀ us w vs, ts = us ++ .word w :: vs →
        (us.flatMap Token.text).getLast?.any Text.isWord = false ∧
          Token.startsWord (vs.flatMap Token.text) = false) := by
  refine ⟨Token.scan d.quotes s.toList, fun us => Token.splits_iff, ?_, ?_, ?_⟩
  · exact Token.flatMap_text_scan d.quotes s.toList
  · rw [quoteExpression, String.toList_ofList, quoteTokens_eq]
  · intro hclose us w vs hts
    have hsplit : Token.Splits d.quotes s.toList (us ++ .word w :: vs) :=
      Token.splits_iff.2 hts.symm
    exact hsplit.word_apart hclose

/-- A word that is called is copied, and its argument is quoted, as is a word after a literal. -/
theorem quoteExpression_tokens_call :
    let s := "f (a)'b''d'c"
    let ts := [.word ['f'], .other ' ', .other '(', .word ['a'], .other ')',
      .literal ['\'', 'b', '\'', '\'', 'd', '\''], .word ['c']]
    Text.isWord ansi.quotes.closing = false ∧ Token.Splits ansi.quotes s.toList ts ∧
      (ansi.quoteExpression [] s).toList = "f (\"a\")'b''d'\"c\"".toList ∧
      Token.startsWord ")'b''d'c".toList = false := by
  intro s ts
  have hclose : Text.isWord ansi.quotes.closing = false := by decide
  have hsplits : Token.Splits ansi.quotes (ts.flatMap Token.text) ts := by
    refine .cons (.word (by decide) (.cons rfl ⟨nofun, rfl⟩)) ?_
    refine .cons (.other (by decide) (by decide) rfl rfl) ?_
    refine .cons (.other (by decide) (by decide) rfl rfl) ?_
    refine .cons (.word (by decide) (.cons rfl ⟨nofun, rfl⟩)) ?_
    refine .cons (.other (by decide) (by decide) rfl rfl) ?_
    refine .cons (.literal (.closed (.plain (by decide) (.pair (.plain (by decide) .nil))) ?_)) ?_
    · decide
    · exact .cons (.word (by decide) (.cons rfl ⟨nofun, rfl⟩)) .nil
  have htext : ts.flatMap Token.text = s.toList := by decide
  rw [htext] at hsplits
  obtain ⟨us, hunique, -, hwritten, hapart⟩ := quoteExpression_tokens ansi [] s
  have hus : ts = us := (hunique ts).1 hsplits
  subst hus
  refine ⟨hclose, hsplits, ?_, ?_⟩
  · rw [hwritten]
    decide
  · exact (hapart hclose [.word ['f'], .other ' ', .other '('] ['a'] _ rfl).2

end Dialect

end PortableSql
