import PortableSql.Proofs.BareWords
import PortableSql.Proofs.Fields.Entries
import PortableSql.Proofs.Precedence.Reading
import PortableSql.Proofs.Template.Tree

/-!
# Conditions of a join

The conditions of a join stand one after the other with AND between them and without parentheses.
Quoting names changes the atoms of a condition and not what stands between them
(`Dialect.formula_quoteExpression`), so the clause is read as the conditions put together
(`Join.formula_conditionText`): an OR in one condition parts the conditions before it from those
behind it.
-/

namespace PortableSql

namespace Dialect

/-- The condition of a join, as it is read by itself, with each atom as it is quoted. -/
def formula (d : Dialect) (c : String) : Formula (List Token) :=
  (Token.formulaAt .top (Token.scan d.quotes c.toList)).map fun a =>
    Token.ink (Token.scan d.quotes (d.quoteTokens ["="] a))

/-- The words that say where the atoms are stay bare. -/
def KeepsKeywords (d : Dialect) (ts : List Token) : Prop :=
  ∀ w, .word w ∈ ts → (Token.word w).isKeyword = true → d.isBare (String.ofList w) = true

/-- A condition that can be read by itself: its literals and quoted names are closed, and so are its
parentheses, `CASE`s and `BETWEEN`s; no closing quote stands alone; and names are told from the
words between its atoms. -/
structure Legible (d : Dialect) (c : String) : Prop where
  matched : ∀ t ∈ Token.scan d.quotes c.toList, Token.Matched d.quotes t
  settled : (Token.scan d.quotes c.toList).foldl Level.after .top = .top
  keeps : d.KeepsKeywords (Token.scan d.quotes c.toList)

/-- Where the dialect has all of these words as bare words, they stay bare in every condition. -/
theorem keepsKeywords_of_all {d : Dialect} (h : Token.keywords.all d.isBare = true)
    (ts : List Token) : d.KeepsKeywords ts := by
  intro w _ hw
  obtain ⟨k, hk, hkw⟩ := List.any_eq_true.1 hw
  refine isBare_of_sameWord (List.all_eq_true.1 h k hk) ?_
  rwa [String.toList_ofList]

end Dialect

/-! ## Names that are quoted -/

namespace Token

section
variable {q : QuotePair} {t : Token} {l : Level} {ts : List Token}

/-- Tokens that have no quotes are closed. -/
theorem matched_of_all (h : ts.all (fun t => !t.isEnclosed && t != .other q.closing) = true) :
    ∀ t ∈ ts, Matched q t := by
  intro t ht
  have hplain := List.all_eq_true.1 h t ht
  rw [Bool.and_eq_true] at hplain
  cases t with
  | literal s => cases hplain.1
  | quoted s => cases hplain.1
  | marker s => exact .marker s
  | word s => exact .word s
  | other c =>
    refine .other ?_
    rintro rfl
    simp at hplain

theorem foldl_after_glue (l : Level) (s : List Char) (ts : List Token) :
    (glue q s ts).foldl Level.after l = ts.foldl Level.after l := by
  unfold glue
  split
  · split <;> simp only [List.foldl_cons, (plain_quoted _).after_eq]
  · rw [List.foldl_cons, (plain_quoted s).after_eq]

theorem glue_of_head? (h : ∀ x, ts.head? ≠ some (quoted x)) (s : List Char) :
    glue q s ts = quoted s :: ts := by
  unfold glue
  split
  · next x ts => exact absurd rfl (h x)
  · rfl

/-- A quoted name takes in the one it touches where the first atom begins with that. -/
theorem formulaAt_glue (l : Level) (s : List Char) (ts : List Token) :
    formulaAt l (glue q s ts) = (formulaAt l ts).mapFirst (glue q s) := by
  by_cases hquoted : ∃ x us, ts = quoted x :: us
  · obtain ⟨x, us, rfl⟩ := hquoted
    rw [glue, (plain_quoted x).formulaAt_cons, Formula.mapFirst_mapFirst]
    by_cases hsame : q.opening = q.closing
    · rw [if_pos hsame, (plain_quoted _).formulaAt_cons]
      exact Formula.mapFirst_congr (if_pos hsame).symm
    · rw [if_neg hsame, (plain_quoted _).formulaAt_cons, (plain_quoted _).formulaAt_cons,
        Formula.mapFirst_mapFirst]
      exact Formula.mapFirst_congr (if_neg hsame).symm
  · have hhead (x : List Char) : ts.head? ≠ some (quoted x) := by
      intro hx
      obtain ⟨us, rfl⟩ := List.head?_eq_some_iff.1 hx
      exact hquoted ⟨x, us, rfl⟩
    rw [glue_of_head? hhead, (plain_quoted s).formulaAt_cons]
    refine Formula.mapFirst_congr (glue_of_head? (fun x hx => hhead x ?_) s).symm
    obtain ⟨after, hts⟩ := first_isPrefix l ts
    rw [← hts, List.head?_append, hx]
    rfl

theorem Splits.and {s : List Char} (h : Splits q s ts) (hq : q.Clear) :
    Splits q (' ' :: ("AND".toList ++ ' ' :: s))
      (other ' ' :: word "AND".toList :: other ' ' :: ts) := by
  have hopen : 'A' ≠ q.opening := by
    intro heq
    have hword := hq.opening_not_word
    rw [← heq] at hword
    exact absurd hword (by decide)
  refine .cons (heads_blank hq (by decide) _) (.cons (.word hopen ⟨?_, rfl⟩) ?_)
  · exact List.all_eq_true.1 (by decide)
  · exact .cons (heads_blank hq (by decide) _) h

end

end Token

namespace Dialect

section
variable {d : Dialect} {extra : List String} {c : String} {ts : List Token}

theorem KeepsKeywords.tail {t : Token} (h : d.KeepsKeywords (t :: ts)) : d.KeepsKeywords ts :=
  fun w hw => h w (List.mem_cons_of_mem t hw)

/-- A word that is not copied is a name. -/
theorem KeepsKeywords.plain {w : List Char} (h : d.KeepsKeywords (.word w :: ts))
    (hcopies : ¬d.copies extra w ts = true) : Token.Plain (.word w) := by
  refine ⟨Bool.eq_false_iff.2 fun hkey => hcopies ?_, rfl⟩
  rw [copies, h w List.mem_cons_self hkey, Bool.or_true, Bool.true_or]

theorem copies_first (d : Dialect) (extra : List String) (w : List Char) (l : Level)
    (ts : List Token) :
    d.copies extra w (Token.formulaAt l ts).first = d.copies extra w ts := by
  rw [copies, copies, Token.firstInk?_first]

/-- Quoting names opens and closes nothing. -/
theorem KeepsKeywords.foldl_after_requoted (h : d.KeepsKeywords ts) (extra : List String)
    (l : Level) : (d.requoted extra ts).foldl Level.after l = ts.foldl Level.after l := by
  induction ts generalizing l with
  | nil => rfl
  | cons t ts ih =>
    rw [List.foldl_cons, ← ih h.tail]
    cases t with
    | word w =>
      rw [requoted]
      split
      · rw [List.foldl_cons]
      · next hcopies => rw [Token.foldl_after_glue, (h.plain hcopies).after_eq]
    | quoted x => rw [requoted, Token.foldl_after_glue, (Token.plain_quoted x).after_eq]
    | literal x => rfl
    | marker x => rfl
    | other c => rfl

/-- The atoms of a condition whose names are quoted are its atoms with their names quoted. -/
theorem KeepsKeywords.formulaAt_requoted (h : d.KeepsKeywords ts) (extra : List String)
    (l : Level) :
    Token.formulaAt l (d.requoted extra ts) =
      (Token.formulaAt l ts).map (d.requoted extra) := by
  induction ts generalizing l with
  | nil => rfl
  | cons t ts ih =>
    have hrest := ih h.tail
    cases t with
    | word w =>
      -- a word is copied in its atom exactly if it is copied in the text
      by_cases hcopies : d.copies extra w ts = true
      · rw [requoted, if_pos hcopies]
        refine Token.formulaAt_cons_eq_map rfl hrest (fun l => ?_) l
        rw [requoted, copies_first, if_pos hcopies]
      · have hfirst : d.requoted extra (.word w :: (Token.formulaAt l ts).first) =
            Token.glue d.quotes (d.quotes.quote w)
              (d.requoted extra (Token.formulaAt l ts).first) := by
          rw [requoted, copies_first, if_neg hcopies]
        rw [requoted, if_neg hcopies, Token.formulaAt_glue, hrest,
          (h.plain hcopies).formulaAt_cons, Formula.map_mapFirst hfirst]
    | quoted x =>
      have hfirst : d.requoted extra (.quoted x :: (Token.formulaAt l ts).first) =
          Token.glue d.quotes x (d.requoted extra (Token.formulaAt l ts).first) := by
        rw [requoted]
      rw [requoted, Token.formulaAt_glue, hrest, (Token.plain_quoted x).formulaAt_cons,
        Formula.map_mapFirst hfirst]
    | literal x => exact Token.formulaAt_cons_eq_map rfl hrest (fun _ => rfl) l
    | marker x => exact Token.formulaAt_cons_eq_map rfl hrest (fun _ => rfl) l
    | other c => exact Token.formulaAt_cons_eq_map rfl hrest (fun _ => rfl) l

theorem scan_quoteTokens {s : List Char} (hq : d.quotes.Clear) (h : Token.Splits d.quotes s ts)
    (hts : ∀ t ∈ ts, Token.Matched d.quotes t) (extra : List String) :
    Token.scan d.quotes (d.quoteTokens extra ts) = d.requoted extra ts := by
  have hlone : ∀ t ∈ ts, t ≠ .other d.quotes.closing := by
    rintro t ht rfl
    cases hts _ ht with
    | other hne => exact hne rfl
  exact (splits_requoted extra hq h hlone).eq_scan.symm

/-- A condition whose names are quoted is read as the condition. -/
theorem formula_quoteExpression (hq : d.quotes.Clear) (hc : d.Legible c) :
    Token.formula d.quotes (d.quoteExpression ["="] c) = d.formula c := by
  have hsplits := Token.splits_scan d.quotes c.toList
  rw [Token.formula, quoteExpression, String.toList_ofList, scan_quoteTokens hq hsplits hc.matched,
    Token.formulaAt_ink, hc.keeps.formulaAt_requoted, Formula.map_map, formula]
  refine Formula.map_congr fun a ha => ?_
  have hpart := Token.infix_of_mem_atoms ha
  have hatom := scan_quoteTokens hq (hsplits.of_isInfix hpart)
    (fun t ht => hc.matched t (hpart.subset ht)) ["="]
  rw [hatom]

/-- AND between a condition and a text is read as a word between atoms. -/
theorem formula_and (hq : d.quotes.Clear) (hc : d.Legible c) (s : String) :
    Token.formula d.quotes (d.quoteExpression ["="] c ++ " AND " ++ s) =
      (d.formula c).andThen (Token.formula d.quotes s) := by
  let ts := d.requoted ["="] (Token.scan d.quotes c.toList)
  have hscan := Token.splits_scan d.quotes c.toList
  have hfirst : Token.Splits d.quotes (d.quoteExpression ["="] c).toList ts := by
    rw [quoteExpression, String.toList_ofList, Token.splits_iff]
    exact (scan_quoteTokens hq hscan hc.matched ["="]).symm
  have hsplits := hfirst.append hq (matched_requoted _ hq hscan hc.matched) (by decide)
    ((Token.splits_scan d.quotes s.toList).and hq)
  have htext : (d.quoteExpression ["="] c ++ " AND " ++ s).toList =
      (d.quoteExpression ["="] c).toList ++ ' ' :: ("AND".toList ++ ' ' :: s.toList) := by
    simp
  have hsettled : (Token.ink ts).foldl Level.after .top = .top := by
    rw [Token.foldl_after_ink, hc.keeps.foldl_after_requoted, hc.settled]
  have hink : Token.ink (ts ++ .other ' ' :: .word "AND".toList :: .other ' ' ::
      Token.scan d.quotes s.toList) =
        Token.ink ts ++ .word "AND".toList :: Token.ink (Token.scan d.quotes s.toList) := by
    rw [Token.ink, List.filter_append]
    rfl
  rw [← formula_quoteExpression hq hc, Token.formula, htext, ← hsplits.eq_scan, hink,
    Token.formulaAt_append_and hsettled, Token.formula, ← hfirst.eq_scan, Token.formula]

end

end Dialect

/-! ## The clause of a join -/

namespace Join

open Dialect (ansi)

theorem renderAll_names (d : Dialect) (cs : List String) :
    Expr.renderAll d (cs.map Expr.names) = pure (cs.map (d.quoteExpression ["="])) := by
  induction cs with
  | nil => rfl
  | cons c cs ih => simp [Expr.renderAll, Expr.render, ih]

theorem render_table (d : Dialect) (kind : JoinKind) (name : String) :
    Join.render d ⟨kind, .table name, none, []⟩ =
      pure (kind.text ++ " JOIN " ++ d.quoteExpression [] name) := by
  simp [Join.render, JoinTarget.render, Expr.renderAll, aliasText, clauseText]

/-- The conditions after ON. -/
def conditionText (d : Dialect) (cs : List String) : String :=
  " AND ".intercalate (cs.map (d.quoteExpression ["="]))

theorem render_conditions (d : Dialect) {j : Join} {cs : List String} (hkind : j.kind ≠ .cross)
    (hcs : cs ≠ []) (hj : j.conditions = cs.map Expr.names) :
    j.render d = (do
      return (← Join.render d { j with conditions := [] }) ++ " ON " ++ conditionText d cs) := by
  obtain ⟨kind, target, asName, conditions⟩ := j
  obtain rfl : conditions = cs.map Expr.names := hj
  have hkind : kind ≠ .cross := hkind
  have hne : (cs.map (d.quoteExpression ["="])).isEmpty = false := by simpa using hcs
  simp only [Join.render, hkind, ↓reduceIte, renderAll_names, Expr.renderAll, clauseText, hne,
    List.isEmpty_nil, conditionText, bind_assoc, pure_bind]
  simp [String.append_assoc]

/-- The clause is read as the conditions with AND between them. -/
theorem formula_conditionText {d : Dialect} (hq : d.quotes.Clear) {c : String} {cs : List String}
    (h : ∀ e ∈ c :: cs, d.Legible e) :
    Token.formula d.quotes (conditionText d (c :: cs)) =
      Formula.joined (d.formula c) (cs.map d.formula) := by
  induction cs generalizing c with
  | nil =>
    have htext : conditionText d [c] = d.quoteExpression ["="] c := by simp [conditionText]
    rw [htext, Dialect.formula_quoteExpression hq (h c List.mem_cons_self)]
    rfl
  | cons e es ih =>
    have htext : conditionText d (c :: e :: es) =
        d.quoteExpression ["="] c ++ " AND " ++ conditionText d (e :: es) := by
      simp [conditionText]
    rw [htext, Dialect.formula_and hq (h c List.mem_cons_self),
      ih fun e' he' => h e' (List.mem_cons_of_mem c he')]
    rfl

/-- The conditions of a join that is not crossed stand after ON with AND between them, and they are
read so: AND binds the last group of one to the first group of the next. If all conditions are true,
so is the clause, and it is their conjunction exactly if each of its groups has all atoms of a group
of every condition. So it is for one condition, and for conditions without OR; and where the first
condition shares no atom with the others, for no more than these. -/
theorem holds_conditions {d : Dialect} (hq : d.quotes.Clear) {j : Join} (hkind : j.kind ≠ .cross)
    {c : String} {cs : List String} (hj : j.conditions = (c :: cs).map Expr.names)
    (hlegible : ∀ e ∈ c :: cs, d.Legible e) :
    let clause := Token.formula d.quotes (conditionText d (c :: cs))
    let isConjunction := ∀ truth, clause.Holds truth ↔ ∀ e ∈ c :: cs, (d.formula e).Holds truth
    j.render d = (do
      return (← Join.render d { j with conditions := [] }) ++ " ON " ++
        conditionText d (c :: cs)) ∧
    clause = Formula.joined (d.formula c) (cs.map d.formula) ∧
    (∀ truth, (∀ e ∈ c :: cs, (d.formula e).Holds truth) → clause.Holds truth) ∧
    (isConjunction ↔
      ∀ g ∈ clause.groups, ∀ e ∈ c :: cs, ∃ f ∈ (d.formula e).groups, f ⊆ g) ∧
    (cs = [] ∨ (∀ e ∈ c :: cs, (d.formula e).groups.length = 1) → isConjunction) ∧
    ((∀ e ∈ cs, (d.formula c).atoms.Disjoint (d.formula e).atoms) → isConjunction →
      cs = [] ∨ ∀ e ∈ c :: cs, (d.formula e).groups.length = 1) := by
  intro clause isConjunction
  have hclause : clause = Formula.joined (d.formula c) (cs.map d.formula) :=
    formula_conditionText hq hlegible
  have hall (P : Formula (List Token) → Prop) :
      (∀ F ∈ d.formula c :: cs.map d.formula, P F) ↔ ∀ e ∈ c :: cs, P (d.formula e) := by
    rw [← List.map_cons, List.forall_mem_map]
  have himplied (truth : List Token → Prop)
      (h : ∀ F ∈ d.formula c :: cs.map d.formula, F.Holds truth) : clause.Holds truth := by
    rw [hclause]
    exact Formula.holds_joined h
  have hexact := Formula.holds_iff_forall himplied
  simp only [hall] at himplied hexact
  refine ⟨render_conditions d hkind (List.cons_ne_nil c cs) hj, hclause, himplied, hexact, ?_, ?_⟩
  · rintro (rfl | hflat)
    · intro truth
      rw [hclause, List.forall_mem_singleton]
      rfl
    · have hsub := Formula.exists_subset_of_length_eq_one
        ((hall fun F => F.groups.length = 1).2 hflat)
      rw [← hclause] at hsub
      exact hexact.2 fun g hg => (hall fun F => ∃ f ∈ F.groups, f ⊆ g).1 (hsub g hg)
  · intro hdisjoint hconjunction
    have hcover (g : List (List Token)) (hg : g ∈ clause.groups) :=
      (hall fun F => ∃ f ∈ F.groups, f ⊆ g).2 (hexact.1 hconjunction g hg)
    rw [hclause] at hcover
    have hflat := Formula.length_groups_of_forall (List.forall_mem_map.2 hdisjoint) hcover
    rwa [List.map_eq_nil_iff, hall] at hflat

/-- A range and a literal have words in them that stand between no atoms. -/
theorem holds_conditions_range :
    let c := "a BETWEEN 1 AND 2 AND b = c"
    let e := "d = 'x OR y'"
    let j : Join := ⟨.left, .table "t", none, [.names c, .names e]⟩
    let text := "\"a\" BETWEEN 1 AND 2 AND \"b\" = \"c\" AND \"d\" = 'x OR y'"
    ansi.quotes.Clear ∧ j.kind ≠ .cross ∧ j.conditions = [c, e].map Expr.names ∧
      (∀ s ∈ [c, e], ansi.Legible s) ∧
      j.render ansi = pure ("LEFT JOIN \"t\" ON " ++ text) ∧
      ∀ truth, (Token.formula ansi.quotes text).Holds truth ↔
        ∀ s ∈ [c, e], (ansi.formula s).Holds truth := by
  intro c e j text
  have hq : ansi.quotes.Clear := by decide
  have hkind : j.kind ≠ .cross := by decide
  have hkeeps (ts : List Token) : ansi.KeepsKeywords ts :=
    Dialect.keepsKeywords_of_all (by decide) ts
  have hc : ansi.Legible c := by
    have hscan : Token.scan ansi.quotes c.toList = [.word ['a'], .other ' ', .word "BETWEEN".toList,
        .other ' ', .word ['1'], .other ' ', .word "AND".toList, .other ' ', .word ['2'],
        .other ' ', .word "AND".toList, .other ' ', .word ['b'], .other ' ', .other '=', .other ' ',
        .word ['c']] := by
      decide +kernel
    refine ⟨?_, ?_, hkeeps _⟩
    · rw [hscan]
      exact Token.matched_of_all (by decide)
    · rw [hscan]
      decide
  have he : ansi.Legible e := by
    have hscan : Token.scan ansi.quotes e.toList =
        [.word ['d'], .other ' ', .other '=', .other ' '] ++
          [.literal ('\'' :: ("x OR y".toList ++ ['\'']))] := by
      decide +kernel
    refine ⟨?_, ?_, hkeeps _⟩
    · rw [hscan]
      have hliteral : Token.Paired '\'' "x OR y".toList :=
        Token.paired_of_forall_ne fun c hc => by
          simpa using List.all_eq_true.1 (by decide : "x OR y".toList.all (· != '\'') = true) c hc
      exact List.forall_mem_append.2 ⟨Token.matched_of_all (by decide),
        List.forall_mem_singleton.2 (.literal hliteral)⟩
    · rw [hscan]
      decide
  have hlegible : ∀ s ∈ [c, e], ansi.Legible s :=
    List.forall_mem_cons.2 ⟨hc, List.forall_mem_singleton.2 he⟩
  have htext : conditionText ansi [c, e] = text := by decide +kernel
  have hflat : ∀ s ∈ [c, e], (ansi.formula s).groups.length = 1 :=
    List.forall_mem_cons.2 ⟨by decide +kernel, List.forall_mem_singleton.2 (by decide +kernel)⟩
  have hj : j.conditions = [c, e].map Expr.names := rfl
  obtain ⟨hrender, -, -, -, hconjunction, -⟩ := holds_conditions hq hkind hj hlegible
  rw [htext] at hrender hconjunction
  have htable : ansi.quoteExpression [] "t" = "\"t\"" := by decide +kernel
  refine ⟨hq, hkind, hj, hlegible, ?_, hconjunction (.inr hflat)⟩
  rw [hrender, render_table, htable]
  rfl

/-- The two conditions are true and the clause is not, if only one atom is false: the clause is that
atom. -/
def Swallows (d : Dialect) (c e : String) (whole : List Token) : Prop :=
  (d.formula c).Holds (· ≠ whole) ∧ (d.formula e).Holds (· ≠ whole) ∧
    ¬(Token.formula d.quotes (conditionText d [c, e])).Holds (· ≠ whole)

theorem swallows_of_atoms {d : Dialect} {c e : String} {a b whole : List Token}
    (hc : d.formula c = .atom a) (he : d.formula e = .atom b)
    (hclause : Token.formula d.quotes (conditionText d [c, e]) = .atom whole)
    (ha : a ≠ whole) (hb : b ≠ whole) : Swallows d c e whole := by
  rw [Swallows, hc, he, hclause, Formula.holds_atom, Formula.holds_atom, Formula.holds_atom]
  exact ⟨ha, hb, fun h => h rfl⟩

/-- The OR of the first condition keeps the second one away from its first atom. Quotes can do more:
an OR that is no bare word is read as a name; a closing quote that stands alone, put behind a name,
is read on beyond the AND; and so is a letter of AND that is a quote. -/
theorem not_holds_conditions :
    let either := "a = b OR c = d"
    let j : Join := ⟨.left, .table "t", none, [.names either, .names "e = f"]⟩
    let text := "\"a\" = \"b\" OR \"c\" = \"d\" AND \"e\" = \"f\""
    let first : List Token := [.quoted "\"a\"".toList, .other '=', .quoted "\"b\"".toList]
    let named := ansi.removeBareWord "OR"
    let angled := { ansi with quotes := ⟨'<', '>'⟩ }
    let lettered := { ansi with quotes := ⟨'A', 'A'⟩ }
    j.render ansi = pure ("LEFT JOIN \"t\" ON " ++ text) ∧
      (Token.formula ansi.quotes text).Holds (· = first) ∧
      ¬(ansi.formula "e = f").Holds (· = first) ∧
    conditionText named [either] = "\"a\" = \"b\" \"OR\" \"c\" = \"d\"" ∧
      (named.formula either).Holds (· = first) ∧
      ¬(Token.formula named.quotes (conditionText named [either])).Holds (· = first) ∧
    angled.quotes.Clear ∧ conditionText angled ["a> 1", "b = c"] = "<a>> 1 AND <b> = <c>" ∧
      Swallows angled "a> 1" "b = c"
        [.quoted "<a>> 1 AND <b>".toList, .other '=', .quoted "<c>".toList] ∧
    conditionText lettered ["x = 1", "y = 2"] = "AxA = 1 AND AyA = 2" ∧
      Swallows lettered "x = 1" "y = 2"
        [.quoted "AxA".toList, .other '=', .word ['1'], .quoted "AND A".toList,
          .word "yA".toList, .other '=', .word ['2']] := by
  intro either j text first named angled lettered
  let second : List Token := [.quoted "\"c\"".toList, .other '=', .quoted "\"d\"".toList]
  let third : List Token := [.quoted "\"e\"".toList, .other '=', .quoted "\"f\"".toList]
  have hboth : Token.formula ansi.quotes text = .or first (.and second (.atom third)) := by
    decide +kernel
  have hthird : ansi.formula "e = f" = .atom third := by decide +kernel
  have heither : named.formula either = .or first (.atom second) := by decide +kernel
  have hnamed : conditionText named [either] = "\"a\" = \"b\" \"OR\" \"c\" = \"d\"" := by
    decide +kernel
  have hone : Token.formula named.quotes "\"a\" = \"b\" \"OR\" \"c\" = \"d\"" =
      .atom (first ++ .quoted "\"OR\"".toList :: second) := by
    decide +kernel
  have hgreater : angled.formula "a> 1" = .atom [.quoted "<a>> 1".toList] := by decide +kernel
  have hequal : angled.formula "b = c" =
      .atom [.quoted "<b>".toList, .other '=', .quoted "<c>".toList] := by
    decide +kernel
  have hx : lettered.formula "x = 1" = .atom [.quoted "AxA".toList, .other '=', .word ['1']] := by
    decide +kernel
  have hy : lettered.formula "y = 2" = .atom [.quoted "AyA".toList, .other '=', .word ['2']] := by
    decide +kernel
  refine ⟨?_, ?_, ?_, hnamed, ?_, ?_, by decide, by decide +kernel, ?_, by decide +kernel, ?_⟩
  · have hcs : [either, "e = f"] ≠ [] := List.cons_ne_nil _ _
    have hkind : j.kind ≠ .cross := by decide
    have htext : conditionText ansi [either, "e = f"] = text := by decide +kernel
    have htable : ansi.quoteExpression [] "t" = "\"t\"" := by decide +kernel
    rw [render_conditions ansi hkind hcs rfl, render_table, htext, htable]
    rfl
  · rw [hboth, Formula.holds_or]
    exact .inl rfl
  · rw [hthird, Formula.holds_atom]
    decide
  · rw [heither, Formula.holds_or]
    exact .inl rfl
  · rw [hnamed, hone, Formula.holds_atom]
    decide
  · exact swallows_of_atoms hgreater hequal (by decide +kernel) (by decide) (by decide)
  · exact swallows_of_atoms hx hy (by decide +kernel) (by decide) (by decide)

end Join

end PortableSql
