import PortableSql.Proofs.StringLiteral
import PortableSql.Proofs.Tokens

/-!
# Quoted names

A database reads a quoted name from its opening quote to the first closing quote that is not
doubled. It reads back exactly the names that were quoted (`QuotePair.readQuoted_eq_some_iff`), so
no name ends its quotes early, and no two names are written alike.

The tokens of an expression go by the same rule. What is a literal or a quoted name already is one
token, also in a path of names, and quoting the names of an expression leaves it as it is.
-/

namespace PortableSql

namespace QuotePair

/-! ## Reading a quoted name -/

/-- The name before its closing quote, and what follows the quote. -/
def readName (q : QuotePair) : List Char → Option (List Char × List Char)
  | [] => none
  | c :: r =>
    if c = q.closing then
      match r with
      | [] => some ([], [])
      | d :: r' =>
        if d = q.closing then (q.readName r').map (Dialect.readFirst c)
        else some ([], r)
    else (q.readName r).map (Dialect.readFirst c)

/-- The name that is quoted at the beginning, and what follows its quotes. -/
def readQuoted (q : QuotePair) : List Char → Option (List Char × List Char)
  | [] => none
  | c :: r => if c = q.opening then q.readName r else none

section
variable (q : QuotePair) {name rest s : List Char}

theorem readName_closing (h : rest.head? ≠ some q.closing) :
    q.readName (q.closing :: rest) = some ([], rest) := by
  cases rest with
  | nil => simp only [readName, ↓reduceIte]
  | cons d r =>
    have hd : d ≠ q.closing := fun heq => h (congrArg some heq)
    simp only [readName, hd, ↓reduceIte]

/-- A character is read back from what it is written as. -/
theorem readName_double (c : Char) (r : List Char) :
    q.readName (q.double c ++ r) = (q.readName r).map (Dialect.readFirst c) := by
  by_cases hc : c = q.closing
  · subst hc
    simp only [double, ↓reduceIte, List.cons_append, List.nil_append, readName]
  · cases r <;> simp only [double, hc, ↓reduceIte, List.cons_append, List.nil_append, readName]

theorem readName_flatMap_double (name r : List Char) :
    q.readName (name.flatMap q.double ++ r) = (q.readName r).map fun p => (name ++ p.1, p.2) := by
  induction name with
  | nil => simp
  | cons c name ih =>
    rw [List.flatMap_cons, List.append_assoc, readName_double, ih, Option.map_map]
    rfl

/-- Only what quoting writes is read as a name. -/
theorem eq_of_readName (h : q.readName s = some (name, rest)) :
    s = name.flatMap q.double ++ q.closing :: rest ∧ rest.head? ≠ some q.closing := by
  fun_induction readName q s generalizing name with
  | case1 => cases h
  | case2 =>
    cases h
    exact ⟨rfl, nofun⟩
  | case3 r ih =>
    obtain ⟨⟨name', rest'⟩, hr, heq⟩ := Option.map_eq_some_iff.1 h
    cases heq
    obtain ⟨rfl, hrest⟩ := ih hr
    refine ⟨?_, hrest⟩
    simp [double]
  | case4 d r hd =>
    cases h
    exact ⟨rfl, fun heq => hd (Option.some.inj heq)⟩
  | case5 c r hc ih =>
    obtain ⟨⟨name', rest'⟩, hr, heq⟩ := Option.map_eq_some_iff.1 h
    cases heq
    obtain ⟨rfl, hrest⟩ := ih hr
    refine ⟨?_, hrest⟩
    simp [double, hc]

theorem readName_eq_some_iff :
    q.readName s = some (name, rest) ↔
      s = name.flatMap q.double ++ q.closing :: rest ∧ rest.head? ≠ some q.closing := by
  refine ⟨q.eq_of_readName, ?_⟩
  rintro ⟨rfl, hrest⟩
  rw [readName_flatMap_double, readName_closing q hrest, Option.map_some, List.append_nil]

theorem quote_of_ne (h : name ≠ ['*']) :
    q.quote name = q.opening :: name.flatMap q.double ++ [q.closing] := if_neg h

/-- A text begins with a quoted name exactly where the name was quoted and no closing quote
follows. -/
theorem readQuoted_eq_some_iff (hname : name ≠ ['*']) :
    q.readQuoted s = some (name, rest) ↔
      s = q.quote name ++ rest ∧ rest.head? ≠ some q.closing := by
  rw [q.quote_of_ne hname]
  cases s with
  | nil => simp [readQuoted]
  | cons c r =>
    rw [readQuoted]
    by_cases hc : c = q.opening
    · rw [if_pos hc, readName_eq_some_iff, hc]
      simp
    · rw [if_neg hc]
      constructor
      · intro h
        cases h
      · rintro ⟨heq, -⟩
        exact absurd (List.cons.inj heq).1 hc

/-- Nothing but the star is written without quotes. -/
theorem eq_of_quote_eq_star (h : q.quote name = ['*']) : name = ['*'] := by
  by_cases hname : name = ['*']
  · exact hname
  · rw [q.quote_of_ne hname] at h
    have hlength := congrArg List.length h
    simp only [List.length_append, List.length_cons, List.length_nil] at hlength
    omega

theorem quote_injective : Function.Injective q.quote := by
  intro a b h
  by_cases ha : a = ['*']
  · rw [ha] at h
    rw [ha, q.eq_of_quote_eq_star h.symm]
  by_cases hb : b = ['*']
  · rw [hb] at h
    rw [hb, q.eq_of_quote_eq_star h]
  have hread (name : List Char) (hname : name ≠ ['*']) :
      q.readQuoted (q.quote name) = some (name, []) :=
    (q.readQuoted_eq_some_iff hname).2 ⟨(List.append_nil _).symm, nofun⟩
  have heq := hread a ha
  rw [h, hread b hb] at heq
  cases heq
  rfl

end

end QuotePair

namespace Dialect

/-- A quoted name is read as the name, and reading ends with its quotes. No two names are written
alike. -/
theorem readQuoted_quoteName (d : Dialect) :
    (∀ (name : String) (rest : List Char), name ≠ "*" → rest.head? ≠ some d.quotes.closing →
      d.quotes.readQuoted ((d.quoteName name).toList ++ rest) = some (name.toList, rest)) ∧
    Function.Injective d.quoteName := by
  constructor
  · intro name rest hname hrest
    have hchars : name.toList ≠ ['*'] := fun heq => hname (String.toList_inj.1 heq)
    rw [quoteName, String.toList_ofList]
    exact (d.quotes.readQuoted_eq_some_iff hchars).2 ⟨rfl, hrest⟩
  · intro a b h
    have hchars : d.quotes.quote a.toList = d.quotes.quote b.toList := String.ofList_inj.1 h
    exact String.toList_inj.1 (d.quotes.quote_injective hchars)

/-- A name that ends in the closing quote, before another opening quote. -/
theorem readQuoted_quoteName_bracket :
    "a]" ≠ "*" ∧ ['['].head? ≠ some ']' ∧
      sqlServer.quotes.readQuoted ((sqlServer.quoteName "a]").toList ++ ['[']) =
        some (['a', ']'], ['[']) :=
  ⟨by decide, by decide,
    (readQuoted_quoteName sqlServer).1 "a]" ['['] (by decide) (by decide)⟩

end Dialect

/-! ## Tokens that are quoted already -/

namespace Token

section
variable {q : QuotePair} {s name rest : List Char} {ts : List Token}

theorem paired_double (q : QuotePair) (c : Char) : Paired q.closing (q.double c) := by
  by_cases hc : c = q.closing
  · subst hc
    rw [QuotePair.double, if_pos rfl]
    exact .pair .nil
  · rw [QuotePair.double, if_neg hc]
    exact .plain hc .nil

/-- A backslash is no quote, whether it is doubled or not. -/
theorem paired_escape (d : Dialect) (c : Char) : Paired '\'' (d.escape c) := by
  by_cases hquote : c = '\''
  · subst hquote
    exact .pair .nil
  by_cases hslash : c = '\\' ∧ d.backslashEscapes
  · rw [Dialect.escape, if_neg hquote, if_pos hslash]
    exact .plain (by decide) (.plain (by decide) .nil)
  · rw [Dialect.escape, if_neg hquote, if_neg hslash]
    exact .plain hquote .nil

theorem heads_quoteText (q : QuotePair) (d : Dialect) (s : List Char)
    (hrest : rest.head? ≠ some '\'') : Heads q (literal (d.quoteText s)) rest :=
  .literal (.closed (.flatMap (paired_escape d) s) hrest)

/-- A quoted name is one token, and so is a star; neither is a word. -/
theorem exists_heads_quote (hquote : q.opening ≠ '\'') (hstar : q.opening ≠ '*') (name : List Char)
    (hrest : rest.head? ≠ some q.closing) :
    ∃ t, t.text = q.quote name ∧ Heads q t rest ∧ ∀ w, t ≠ word w := by
  by_cases hname : name = ['*']
  · subst hname
    exact ⟨other '*', rfl, .other (by decide) hstar.symm rfl (by decide), nofun⟩
  · refine ⟨quoted (q.quote name), rfl, ?_, nofun⟩
    rw [q.quote_of_ne hname]
    exact .quoted hquote (.closed (.flatMap (paired_double q) name) hrest)

/-- A path of quoted names has no words. -/
theorem exists_splits_path (hquote : q.opening ≠ '\'') (hstar : q.opening ≠ '*')
    (hopen : q.opening ≠ '.') (hclose : q.closing ≠ '.') (names : List (List Char)) :
    ∃ ts, Splits q (['.'].intercalate (names.map q.quote)) ts ∧ ∀ w, word w ∉ ts := by
  induction names with
  | nil => exact ⟨[], .nil, nofun⟩
  | cons name names ih =>
    cases names with
    | nil =>
      have hrest : ([] : List Char).head? ≠ some q.closing := nofun
      obtain ⟨t, htext, hheads, hword⟩ := exists_heads_quote hquote hstar name hrest
      refine ⟨[t], ?_, fun w hw => hword w (List.mem_singleton.1 hw).symm⟩
      have hsplits : Splits q (t.text ++ []) [t] := .cons hheads .nil
      rw [List.append_nil, htext] at hsplits
      rwa [List.map_singleton, List.intercalate_singleton]
    | cons next names =>
      obtain ⟨ts, hts, hwords⟩ := ih
      have hdot : Heads q (other '.') (['.'].intercalate ((next :: names).map q.quote)) :=
        .other (by decide) hopen.symm rfl (by decide)
      have hrest : (['.'] ++ ['.'].intercalate ((next :: names).map q.quote)).head? ≠
          some q.closing := fun heq => hclose (Option.some.inj heq).symm
      obtain ⟨t, htext, hheads, hword⟩ := exists_heads_quote hquote hstar name hrest
      refine ⟨t :: other '.' :: ts, ?_, ?_⟩
      · have hsplits := Splits.cons hheads (.cons hdot hts)
        rw [htext] at hsplits
        rw [List.map_cons, List.map_cons, List.intercalate_cons_cons, List.append_assoc]
        exact hsplits
      · intro w hw
        rcases List.mem_cons.1 hw with heq | hw
        · exact hword w heq.symm
        · rcases List.mem_cons.1 hw with heq | hw
          · cases heq
          · exact hwords w hw

end

end Token

namespace Dialect

section
variable (d : Dialect) (extra : List String)

theorem quoteTokens_of_no_word {ts : List Token} (h : ∀ w, Token.word w ∉ ts) :
    d.quoteTokens extra ts = ts.flatMap Token.text := by
  induction ts with
  | nil => rfl
  | cons t ts ih =>
    have hts : ∀ w, Token.word w ∉ ts := fun w hw => h w (List.mem_cons_of_mem t hw)
    rw [quoteTokens_cons, ih hts, List.flatMap_cons]
    cases t with
    | word w => exact absurd List.mem_cons_self (h w)
    | _ => rfl

theorem quoteExpression_of_no_word {s : String} {ts : List Token}
    (hsplits : Token.Splits d.quotes s.toList ts) (h : ∀ w, Token.word w ∉ ts) :
    d.quoteExpression extra s = s := by
  rw [quoteExpression, ← hsplits.eq_scan, quoteTokens_of_no_word d extra h, hsplits.flatMap_text,
    String.ofList_toList]

end

/-- Quoting the names of an expression leaves a string literal as it is, and also a path of quoted
names, unless a quote of the dialect is taken for one of the other signs. -/
theorem quoteExpression_quoted (d : Dialect) (extra : List String) :
    (∀ s : String, d.quoteExpression extra (d.literal (.text s)) = d.literal (.text s)) ∧
    (d.quotes.opening ≠ '\'' → d.quotes.opening ≠ '*' → d.quotes.opening ≠ '.' →
      d.quotes.closing ≠ '.' → ∀ names : List String,
        d.quoteExpression extra (".".intercalate (names.map d.quoteName)) =
          ".".intercalate (names.map d.quoteName)) := by
  constructor
  · intro s
    have hnil : ([] : List Char).head? ≠ some '\'' := nofun
    have hsplits : Token.Splits d.quotes (d.literal (.text s)).toList
        [.literal (d.quoteText s.toList)] := by
      have htext : (d.literal (.text s)).toList = d.quoteText s.toList ++ [] := by
        rw [literal, String.toList_ofList, List.append_nil]
        rfl
      rw [htext]
      exact .cons (Token.heads_quoteText d.quotes d s.toList hnil) .nil
    exact d.quoteExpression_of_no_word extra hsplits (by simp)
  · intro hquote hstar hopen hclose names
    obtain ⟨ts, hsplits, hwords⟩ :=
      Token.exists_splits_path hquote hstar hopen hclose (names.map String.toList)
    have htext : (".".intercalate (names.map d.quoteName)).toList =
        ['.'].intercalate ((names.map String.toList).map d.quotes.quote) := by
      rw [String.toList_intercalate, List.map_map, List.map_map]
      simp only [Function.comp_def, quoteName, String.toList_ofList]
      rfl
    rw [← htext] at hsplits
    exact d.quoteExpression_of_no_word extra hsplits hwords

/-- A literal with a backslash before a quote, and a path of names with quotes in them. -/
theorem quoteExpression_quoted_bracket :
    sqlServer.quotes.opening ≠ '\'' ∧ sqlServer.quotes.opening ≠ '*' ∧
      sqlServer.quotes.opening ≠ '.' ∧ sqlServer.quotes.closing ≠ '.' ∧
      mysql.quoteExpression [] (mysql.literal (.text "a\\'b")) = mysql.literal (.text "a\\'b") ∧
      sqlServer.quoteExpression ["b"]
          (".".intercalate (["a]", "", "b.c", "*"].map sqlServer.quoteName)) =
        ".".intercalate (["a]", "", "b.c", "*"].map sqlServer.quoteName) :=
  ⟨by decide, by decide, by decide, by decide, (quoteExpression_quoted mysql []).1 "a\\'b",
    (quoteExpression_quoted sqlServer ["b"]).2 (by decide) (by decide) (by decide) (by decide) _⟩

end Dialect

end PortableSql
