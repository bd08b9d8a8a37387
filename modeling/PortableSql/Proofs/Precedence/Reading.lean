import PortableSql.Proofs.Fields.Cuts
import PortableSql.Proofs.Precedence.Formula

/-!
# Reading a condition

A reader finds the atoms of a condition by its tokens (`Token.formulaAt`): the words AND and OR
stand between them, but in parentheses, in `CASE ... END`, and the AND of a `BETWEEN`. Where all of
these are closed, AND behind a text stands between two atoms (`Token.formulaAt_append_and`).
-/

namespace PortableSql

namespace Token

/-- Whether a token is the given word, in any case. -/
def spells (k : String) : Token → Bool
  | word w => Text.sameWord k.toList w
  | _ => false

/-- The words that say where the atoms of a condition are. -/
def keywords : List String := ["AND", "OR", "BETWEEN", "CASE", "END"]

def isKeyword (t : Token) : Bool := keywords.any fun k => t.spells k

/-- All tokens but blanks. -/
def isInk : Token → Bool
  | other c => !Text.isBlank c
  | _ => true

def ink (ts : List Token) : List Token := ts.filter isInk

end Token

/-- What is open where a token stands. -/
structure Level where
  /-- Parentheses and `CASE`s. -/
  nesting : Int
  /-- Outside of those, `BETWEEN`s before their AND. -/
  ranges : Nat
  deriving DecidableEq, Repr

inductive Connective where
  | and
  | or
  deriving DecidableEq, Repr

namespace Level

def top : Level := ⟨0, 0⟩

def after (l : Level) (t : Token) : Level :=
  if t.spells "CASE" then { l with nesting := l.nesting + 1 }
  else if t.spells "END" then { l with nesting := l.nesting - 1 }
  else if l.nesting = 0 ∧ t.spells "BETWEEN" then { l with ranges := l.ranges + 1 }
  else if l.nesting = 0 ∧ t.spells "AND" then { l with ranges := l.ranges - 1 }
  else { l with nesting := l.nesting + t.depth }

/-- A word between atoms. -/
def connective? (l : Level) (t : Token) : Option Connective :=
  if l.nesting = 0 ∧ t.spells "OR" then some .or
  else if l = top ∧ t.spells "AND" then some .and
  else none

end Level

namespace Token

/-- The atoms of tokens from a level on. -/
def formulaAt : Level → List Token → Formula (List Token)
  | _, [] => .atom []
  | l, t :: ts =>
    match l.connective? t with
    | some .and => .and [] (formulaAt (l.after t) ts)
    | some .or => .or [] (formulaAt (l.after t) ts)
    | none => (formulaAt (l.after t) ts).mapFirst (t :: ·)

/-- A text read as a condition. Blanks between tokens do not matter. -/
def formula (q : QuotePair) (s : String) : Formula (List Token) :=
  formulaAt .top (ink (scan q s.toList))

section
variable {q : QuotePair} {t : Token} {l : Level} {ts us : List Token}

theorem isKeyword_eq_false_iff : t.isKeyword = false ↔ ∀ k ∈ keywords, t.spells k = false := by
  simp [isKeyword]

theorem connective?_eq_none (h : t.isKeyword = false) (l : Level) : l.connective? t = none := by
  have hspells := isKeyword_eq_false_iff.1 h
  have hor : t.spells "OR" = false := hspells "OR" (by decide)
  have hand : t.spells "AND" = false := hspells "AND" (by decide)
  simp [Level.connective?, hor, hand]

/-- A token that is no parenthesis and no word of a condition. -/
structure Plain (t : Token) : Prop where
  not_keyword : t.isKeyword = false
  depth_eq : t.depth = 0

theorem Plain.after_eq (h : Plain t) (l : Level) : l.after t = l := by
  have hspells := isKeyword_eq_false_iff.1 h.not_keyword
  have hcase : t.spells "CASE" = false := hspells "CASE" (by decide)
  have hend : t.spells "END" = false := hspells "END" (by decide)
  have hbetween : t.spells "BETWEEN" = false := hspells "BETWEEN" (by decide)
  have hand : t.spells "AND" = false := hspells "AND" (by decide)
  simp [Level.after, hcase, hend, hbetween, hand, h.depth_eq]

theorem isKeyword_of_connective? {c : Connective} (h : l.connective? t = some c) :
    t.isKeyword = true := by
  cases hkey : t.isKeyword with
  | true => rfl
  | false =>
    rw [connective?_eq_none hkey] at h
    cases h

theorem Plain.formulaAt_cons (h : Plain t) (l : Level) (ts : List Token) :
    formulaAt l (t :: ts) = (formulaAt l ts).mapFirst (t :: ·) := by
  rw [formulaAt, connective?_eq_none h.not_keyword, h.after_eq]

theorem plain_blank {c : Char} (hc : Text.isBlank c = true) : Plain (other c) :=
  ⟨rfl, (Idle.blank hc).depth_eq⟩

theorem plain_quoted (s : List Char) : Plain (quoted s) := ⟨rfl, rfl⟩

/-- Where the atoms of some tokens are those of others, changed, so they are with one more token
before both that is put before the first atom. -/
theorem formulaAt_cons_eq_map {f : List Token → List Token} (hnil : f [] = [])
    (h : ∀ l, formulaAt l us = (formulaAt l ts).map f)
    (hfirst : ∀ l, f (t :: (formulaAt l ts).first) = t :: f (formulaAt l ts).first) (l : Level) :
    formulaAt l (t :: us) = (formulaAt l (t :: ts)).map f := by
  rw [formulaAt, formulaAt, h]
  cases l.connective? t with
  | none => rw [Formula.map_mapFirst (hfirst _)]
  | some c =>
    cases c with
    | and => rw [Formula.map, hnil]
    | or => rw [Formula.map, hnil]

/-! ## Blanks -/

theorem exists_blank_of_not_isInk (h : t.isInk = false) :
    ∃ c, t = other c ∧ Text.isBlank c = true := by
  cases t with
  | other c => exact ⟨c, rfl, by simpa [isInk] using h⟩
  | _ => cases h

theorem ink_cons_of_isInk (h : t.isInk = true) (ts : List Token) : ink (t :: ts) = t :: ink ts :=
  List.filter_cons_of_pos h

theorem ink_cons_of_not_isInk (h : t.isInk = false) (ts : List Token) : ink (t :: ts) = ink ts :=
  List.filter_cons_of_neg (by simp [h])

theorem foldl_after_ink (l : Level) (ts : List Token) :
    (ink ts).foldl Level.after l = ts.foldl Level.after l := by
  induction ts generalizing l with
  | nil => rfl
  | cons t ts ih =>
    rw [List.foldl_cons, ← ih]
    cases hink : t.isInk with
    | true => rw [ink_cons_of_isInk hink, List.foldl_cons]
    | false =>
      obtain ⟨c, rfl, hc⟩ := exists_blank_of_not_isInk hink
      rw [ink_cons_of_not_isInk hink, (plain_blank hc).after_eq]

/-- The atoms of the tokens that are no blanks are the atoms without their blanks. -/
theorem formulaAt_ink (l : Level) (ts : List Token) :
    formulaAt l (ink ts) = (formulaAt l ts).map ink := by
  induction ts generalizing l with
  | nil => rfl
  | cons t ts ih =>
    cases hink : t.isInk with
    | true =>
      rw [ink_cons_of_isInk hink]
      exact formulaAt_cons_eq_map rfl ih (fun l => ink_cons_of_isInk hink _) l
    | false =>
      obtain ⟨c, rfl, hc⟩ := exists_blank_of_not_isInk hink
      rw [ink_cons_of_not_isInk hink, (plain_blank hc).formulaAt_cons, ih,
        Formula.map_mapFirst (h := id) (ink_cons_of_not_isInk hink _), Formula.mapFirst_id]

/-! ## AND between two texts -/

/-- Where all is closed at the end, AND after it stands between atoms. -/
theorem formulaAt_append_and (h : ts.foldl Level.after l = .top) (us : List Token) :
    formulaAt l (ts ++ word "AND".toList :: us) = (formulaAt l ts).andThen (formulaAt .top us) := by
  induction ts generalizing l with
  | nil =>
    obtain rfl : l = .top := h
    rfl
  | cons t ts ih =>
    rw [List.cons_append, formulaAt, formulaAt, ih h]
    cases l.connective? t with
    | none => exact (Formula.mapFirst_andThen _ _ _).symm
    | some c =>
      cases c with
      | and => rw [Formula.andThen]
      | or => rw [Formula.andThen]

/-! ## Atoms are parts of the text -/

theorem first_isPrefix (l : Level) (ts : List Token) : (formulaAt l ts).first <+: ts := by
  induction ts generalizing l with
  | nil => exact List.prefix_rfl
  | cons t ts ih =>
    rw [formulaAt]
    cases l.connective? t with
    | none =>
      rw [Formula.first_mapFirst]
      exact (List.prefix_cons_inj t).2 (ih _)
    | some c =>
      cases c with
      | and => exact ⟨t :: ts, rfl⟩
      | or => exact ⟨t :: ts, rfl⟩

theorem mem_atoms_cons {a : List Token} (ha : a ∈ (formulaAt l (t :: ts)).atoms) :
    a = [] ∨ a = t :: (formulaAt (l.after t) ts).first ∨
      a ∈ (formulaAt (l.after t) ts).atoms := by
  rw [formulaAt] at ha
  split at ha
  · exact (List.mem_cons.1 ha).imp_right .inr
  · exact (List.mem_cons.1 ha).imp_right .inr
  · rw [Formula.atoms_mapFirst] at ha
    exact .inr ((List.mem_cons.1 ha).imp_right List.mem_of_mem_tail)

theorem infix_of_mem_atoms {a : List Token} (ha : a ∈ (formulaAt l ts).atoms) : a <:+: ts := by
  induction ts generalizing l with
  | nil =>
    obtain rfl : a = [] := List.mem_singleton.1 ha
    exact List.infix_rfl
  | cons t ts ih =>
    rcases mem_atoms_cons ha with rfl | rfl | ha
    · exact ⟨[], t :: ts, rfl⟩
    · exact ((List.prefix_cons_inj t).2 (first_isPrefix _ ts)).isInfix
    · exact (ih ha).trans (List.suffix_cons t ts).isInfix

theorem Splits.of_isInfix {s : List Char} {a : List Token} (h : Splits q s ts) (ha : a <:+: ts) :
    Splits q (a.flatMap text) a := by
  obtain ⟨before, after, rfl⟩ := ha
  rw [List.append_assoc] at h
  exact h.of_append.of_append_left

/-! ## Calls -/

/-- A word of a condition begins with a letter. -/
theorem exists_word_of_isKeyword (h : t.isKeyword = true) :
    ∃ c w, t = word (c :: w) ∧ Text.isWord c = true := by
  obtain ⟨k, hk, hspells⟩ := List.any_eq_true.1 h
  have hkeywords : keywords.all (fun k =>
      (k.toList.map Char.toLower).head?.any Char.isLower) = true := by
    decide
  cases t with
  | word w =>
    have hletter := List.all_eq_true.1 hkeywords k hk
    rw [Text.sameWord_iff.1 hspells] at hletter
    cases w with
    | nil => cases hletter
    | cons c w => exact ⟨c, w, rfl, Text.isWord_of_isLower_toLower hletter⟩
  | _ => cases hspells

/-- The first atom begins a call exactly if the text does: where it ends, a letter follows. -/
theorem firstInk?_first (l : Level) (ts : List Token) :
    (firstInk? (formulaAt l ts).first == some '(') = (firstInk? ts == some '(') := by
  induction ts generalizing l with
  | nil => rfl
  | cons t ts ih =>
    rw [formulaAt]
    cases hc : l.connective? t with
    | none =>
      -- blanks of the token are passed over on both sides
      rw [Formula.first_mapFirst, firstInk?, firstInk?]
      cases t.text.find? fun c => !Text.isBlank c with
      | none => exact ih _
      | some c => rfl
    | some c =>
      obtain ⟨e, w, rfl, he⟩ := exists_word_of_isKeyword (isKeyword_of_connective? hc)
      have hne : (some e == some '(') = false := by
        refine beq_eq_false_iff_ne.2 ?_
        rintro ⟨⟩
        exact absurd he (by decide)
      rw [firstInk?_cons_of_ink rfl (Text.isBlank_of_isWord he), hne]
      cases c with
      | and => rfl
      | or => rfl

end

end Token

end PortableSql
