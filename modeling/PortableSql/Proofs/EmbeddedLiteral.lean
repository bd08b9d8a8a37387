import PortableSql.Proofs.Seams
import PortableSql.Proofs.StringLiteral

/-!
# String literals inside an expression

A scanned literal ends at the first quote that is not doubled, whether the dialect escapes with
backslashes or not. So a literal of the dialect is one token wherever it stands, and copied as it
is, exactly if no quote in it is written with a backslash (`Token.scan_literal_iff`).
-/

namespace PortableSql

namespace Token

section
variable {d : Dialect} {q : QuotePair} {close c : Char} {s before after : List Char}
  {us : List (List Char)}

/-! ## Quotes in pairs -/

theorem paired_cons_iff (h : c ≠ close) : Paired close (c :: s) ↔ Paired close s := by
  constructor
  · intro hp
    cases hp with
    | plain _ hs => exact hs
    | pair => exact absurd rfl h
  · exact .plain h

theorem paired_pair_iff : Paired close (close :: close :: s) ↔ Paired close s := by
  constructor
  · intro hp
    cases hp with
    | plain h => exact absurd rfl h
    | pair hs => exact hs
  · exact .pair

/-- A quote before spelled characters is never doubled by the next spelling alone. -/
theorem not_paired_cons_flatten (h : List.Forall₂ d.Spells s us) :
    ¬Paired '\'' ('\'' :: us.flatten) := by
  induction h with
  | nil =>
    intro hp
    cases hp with
    | plain h => exact h rfl
  | @cons c u s us hu _ ih =>
    rw [List.flatten_cons]
    cases hu with
    | plain hquote =>
      intro hp
      cases hp with
      | plain h => exact h rfl
      | pair => exact hquote rfl
    | doubled =>
      intro hp
      exact ih (paired_pair_iff.1 hp)
    | escaped =>
      intro hp
      cases hp with
      | plain h => exact h rfl

/-- Quotes stand in pairs unless one is written with a backslash: it is a single one, and pairs
behind it do not change that. -/
theorem paired_flatten_iff (h : List.Forall₂ d.Spells s us) :
    Paired '\'' us.flatten ↔ ['\\', '\''] ∉ us := by
  induction h with
  | nil => exact ⟨fun _ => List.not_mem_nil, fun _ => .nil⟩
  | @cons c u s us hu hus ih =>
    rw [List.flatten_cons, List.mem_cons, not_or]
    cases hu with
    | plain hquote =>
      rw [List.singleton_append, paired_cons_iff hquote, ih]
      simp
    | doubled =>
      have hpair : Paired '\'' (['\'', '\''] ++ us.flatten) ↔ Paired '\'' us.flatten :=
        paired_pair_iff
      rw [hpair, ih]
      simp
    | escaped =>
      have hslash : Paired '\'' (['\\', c] ++ us.flatten) ↔ Paired '\'' (c :: us.flatten) :=
        paired_cons_iff (by decide)
      rw [hslash]
      by_cases hc : c = '\''
      · subst hc
        exact iff_of_false (not_paired_cons_flatten hus) fun h => h.1 rfl
      · rw [paired_cons_iff hc, ih]
        simp [Ne.symm hc]

/-! ## Literals with text around them -/

/-- Texts around a literal: the one before it leaves nothing open, and neither touches it with a
quote. -/
structure Surrounds (q : QuotePair) (before after : List Char) : Prop where
  closed : ClosedAtEnd q before
  getLast?_ne : before.getLast? ≠ some '\''
  head?_ne : after.head? ≠ some '\''

theorem closedAtEnd_nil (q : QuotePair) : ClosedAtEnd q [] := by
  intro t ht
  rw [scan] at ht
  cases ht

theorem Heads.ends_of_literal (h : Heads q (Token.literal ('\'' :: s)) after) :
    Ends '\'' s after := by
  cases h with
  | literal hs => exact hs

theorem Ends.exists_paired (h : Ends close s after) (hne : after ≠ []) :
    ∃ p, Paired close p ∧ s = p ++ [close] := by
  cases h with
  | closed hs _ => exact ⟨_, hs, rfl⟩
  | unclosed _ => exact absurd rfl hne

theorem scan_quoteSpelling (q : QuotePair) (h : Paired '\'' us.flatten)
    (hafter : after.head? ≠ some '\'') :
    scan q (Dialect.quoteSpelling us ++ after) =
      literal (Dialect.quoteSpelling us) :: scan q after := by
  have hheads : Heads q (literal (Dialect.quoteSpelling us)) after := .literal (.closed h hafter)
  exact (Splits.cons hheads (splits_scan q after)).eq_scan.symm

/-- A literal is one token wherever it stands exactly if no quote in it is written with a
backslash. -/
theorem scan_literal_iff (q : QuotePair) (hus : List.Forall₂ d.Spells s us) :
    (∀ before after, Surrounds q before after →
      scan q (before ++ (Dialect.quoteSpelling us ++ after)) =
        scan q before ++ literal (Dialect.quoteSpelling us) :: scan q after) ↔
      ['\\', '\''] ∉ us := by
  rw [← paired_flatten_iff hus]
  constructor
  · intro h
    -- before a blank a literal that is one token is closed
    have hblank : Surrounds q [] [' '] := ⟨closedAtEnd_nil q, by decide, by decide⟩
    have hsplits := splits_scan q ([] ++ (Dialect.quoteSpelling us ++ [' ']))
    rw [h [] [' '] hblank, scan, List.nil_append] at hsplits
    have hheads := hsplits.heads
    rw [flatMap_text_scan] at hheads
    obtain ⟨p, hp, hbody⟩ := hheads.ends_of_literal.exists_paired (List.cons_ne_nil _ _)
    rwa [List.append_cancel_right hbody]
  · intro hpaired before after hsurrounds
    rw [← scan_quoteSpelling q hpaired hsurrounds.head?_ne]
    exact scan_append hsurrounds.closed (by decide)
      (fun heq => absurd heq hsurrounds.getLast?_ne) _

end

end Token

namespace Dialect

section
variable {d : Dialect} {s before after : List Char} {us : List (List Char)}

theorem not_mem_of_not_backslashEscapes (h : List.Forall₂ d.Spells s us)
    (hd : d.backslashEscapes = false) : ['\\', '\''] ∉ us := by
  induction h with
  | nil => exact List.not_mem_nil
  | cons hu _ ih =>
    rw [List.mem_cons, not_or]
    refine ⟨?_, ih⟩
    rintro rfl
    cases hu with
    | escaped _ hescapes =>
      rw [hd] at hescapes
      cases hescapes

end

/-- The spellings of a literal are read back, and it stands in an expression as it is wherever
nothing is open before it and no quote touches it, unless a quote in it is written with a backslash.
That is exactly when it is one token in all places, and it is so where backslashes do not escape. -/
theorem quoteExpression_around_literal (d : Dialect) {s : List Char} {us : List (List Char)}
    (hus : List.Forall₂ d.Spells s us) :
    (∀ rest, rest.head? ≠ some '\'' → d.readLiteral (quoteSpelling us ++ rest) = some (s, rest)) ∧
    ((∀ before after, Token.Surrounds d.quotes before after →
      Token.scan d.quotes (before ++ (quoteSpelling us ++ after)) =
        Token.scan d.quotes before ++ .literal (quoteSpelling us) ::
          Token.scan d.quotes after) ↔ ['\\', '\''] ∉ us) ∧
    (['\\', '\''] ∉ us → ∀ (extra : List String) (before after : String),
      Token.Surrounds d.quotes before.toList after.toList →
      d.quoteExpression extra (before ++ String.ofList (quoteSpelling us) ++ after) =
        d.quoteExpression extra before ++ String.ofList (quoteSpelling us) ++
          d.quoteExpression extra after) ∧
    (d.backslashEscapes = false → ['\\', '\''] ∉ us) := by
  refine ⟨fun rest hrest => readLiteral_spelled hus hrest, Token.scan_literal_iff d.quotes hus, ?_,
    not_mem_of_not_backslashEscapes hus⟩
  intro hquote extra before after hsurrounds
  have hpaired := (Token.paired_flatten_iff hus).2 hquote
  have htext : (String.ofList (quoteSpelling us) ++ after).toList =
      quoteSpelling us ++ after.toList := by
    rw [String.toList_append, String.toList_ofList]
  have happend := quoteExpression_append extra hsurrounds.closed htext (by decide) (by decide)
    (by decide) fun heq => absurd heq hsurrounds.getLast?_ne
  have hliteral : d.quoteExpression extra (String.ofList (quoteSpelling us) ++ after) =
      String.ofList (quoteSpelling us) ++ d.quoteExpression extra after := by
    rw [quoteExpression, htext, Token.scan_quoteSpelling d.quotes hpaired hsurrounds.head?_ne]
    exact String.ofList_append
  rw [String.append_assoc, happend, hliteral, String.append_assoc]

/-- A doubled quote and an escaped backslash before the closing quote. -/
theorem quoteExpression_around_literal_mysql :
    let us := [['a'], ['\'', '\''], ['\\', '\\']]
    List.Forall₂ mysql.Spells ['a', '\'', '\\'] us ∧ ['\\', '\''] ∉ us ∧
      Token.Surrounds mysql.quotes "x = ".toList " y".toList ∧
      (mysql.quoteExpression [] ("x = " ++ String.ofList (quoteSpelling us) ++ " y")).toList =
        "\x60x\x60 = 'a''\\\\' \x60y\x60".toList := by
  intro us
  have hescapes : mysql.backslashEscapes = true := by decide
  have hus : List.Forall₂ mysql.Spells ['a', '\'', '\\'] us :=
    .cons (.plain (by decide) (by decide)) (.cons .doubled (.cons (.escaped '\\' hescapes) .nil))
  have hquote : ['\\', '\''] ∉ us := by decide
  have hclosed : Token.ClosedAtEnd mysql.quotes "x = ".toList := by
    have hscan : (Token.scan mysql.quotes "x = ".toList).getLast? = some (.other ' ') := by
      decide +kernel
    intro t ht
    rw [hscan] at ht
    cases ht
    exact .other ' '
  have hsurrounds : Token.Surrounds mysql.quotes "x = ".toList " y".toList :=
    ⟨hclosed, by decide, by decide⟩
  obtain ⟨-, -, hcopied, -⟩ := quoteExpression_around_literal mysql hus
  refine ⟨hus, hquote, hsurrounds, ?_⟩
  rw [hcopied hquote [] "x = " " y" hsurrounds]
  decide +kernel

/-- A quote written with a backslash ends the literal for the scanner, and the words behind it are
quoted. -/
theorem quoteExpression_escaped_quote :
    let us := [['i'], ['t'], ['\\', '\''], ['s'], [' '], ['n']]
    List.Forall₂ mysql.Spells "it's n".toList us ∧
      mysql.readLiteral (quoteSpelling us) = some ("it's n".toList, []) ∧
      Token.Surrounds mysql.quotes [] [] ∧
      (mysql.quoteExpression [] (String.ofList (quoteSpelling us))).toList =
        "'it\\'\x60s\x60 \x60n\x60'".toList ∧
      mysql.quoteExpression [] (String.ofList (quoteSpelling us)) ≠
        String.ofList (quoteSpelling us) := by
  intro us
  have hescapes : mysql.backslashEscapes = true := by decide
  have hplain {c : Char} (hquote : c ≠ '\'') (hslash : c ≠ '\\') : mysql.Spells c [c] :=
    .plain hquote fun h => hslash h.1
  have hus : List.Forall₂ mysql.Spells "it's n".toList us :=
    .cons (hplain (by decide) (by decide)) <| .cons (hplain (by decide) (by decide)) <|
      .cons (.escaped '\'' hescapes) <| .cons (hplain (by decide) (by decide)) <|
      .cons (hplain (by decide) (by decide)) <| .cons (hplain (by decide) (by decide)) .nil
  have hread : mysql.readLiteral (quoteSpelling us ++ []) = some ("it's n".toList, []) :=
    readLiteral_spelled hus (by decide)
  rw [List.append_nil] at hread
  exact ⟨hus, hread, ⟨Token.closedAtEnd_nil _, by decide, by decide⟩, by decide +kernel,
    by decide +kernel⟩

end Dialect

end PortableSql
