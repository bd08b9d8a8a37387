import PortableSql.Dialect.Basic
import PortableSql.Text.Blank
import PortableSql.Text.Word

/-!
# Tokens

An expression is cut into tokens from the left: string literals and quoted names up to the closing
quote that is not doubled, or to the end; bind markers; longest words; and single characters. The
tokens put together are the expression.
-/

namespace PortableSql

inductive Token where
  /-- A string literal with its quotes. -/
  | literal (s : List Char)
  /-- A quoted name with its quotes. -/
  | quoted (s : List Char)
  | marker (s : List Char)
  | word (s : List Char)
  | other (c : Char)
  deriving DecidableEq, Repr

namespace Token

def text : Token → List Char
  | literal s | quoted s | marker s | word s => s
  | other c => [c]

/-- The text up to the first closing character that is not doubled, or all of it, and the rest. -/
def enclosed (close : Char) : List Char → List Char × List Char
  | [] => ([], [])
  | c :: r =>
    if c = close then
      match r with
      | [] => ([c], [])
      | d :: r' =>
        if d = close then
          let (s, rest) := enclosed close r'
          (c :: d :: s, rest)
        else ([c], r)
    else
      let (s, rest) := enclosed close r
      (c :: s, rest)

theorem enclosed_append (close : Char) (s : List Char) :
    (enclosed close s).1 ++ (enclosed close s).2 = s := by
  fun_induction enclosed close s <;> simp_all

def isMarkerSign (c : Char) : Bool := c == ':' || c == '@' || c == '$'

def startsWord : List Char → Bool
  | c :: _ => Text.isWord c
  | [] => false

/-- The token at the start of `c :: r`, and what follows it. -/
def next (q : QuotePair) (c : Char) (r : List Char) : Token × List Char :=
  if c = '\'' then
    let (s, rest) := enclosed '\'' r
    (literal (c :: s), rest)
  else if c = q.opening then
    let (s, rest) := enclosed q.closing r
    (quoted (c :: s), rest)
  else if isMarkerSign c && startsWord r then
    (marker (c :: r.takeWhile Text.isWord), r.dropWhile Text.isWord)
  else if Text.isWord c then
    (word (c :: r.takeWhile Text.isWord), r.dropWhile Text.isWord)
  else (other c, r)

theorem next_append (q : QuotePair) (c : Char) (r : List Char) :
    (next q c r).1.text ++ (next q c r).2 = c :: r := by
  unfold next
  split
  · simpa [text] using enclosed_append '\'' r
  · split
    · simpa [text] using enclosed_append q.closing r
    · split
      · simp [text]
      · split <;> simp [text]

theorem length_text_pos (q : QuotePair) (c : Char) (r : List Char) :
    0 < (next q c r).1.text.length := by
  unfold next
  repeat' split
  all_goals simp [text]

theorem length_next_lt (q : QuotePair) (c : Char) (r : List Char) :
    (next q c r).2.length < (c :: r).length := by
  have h := congrArg List.length (next_append q c r)
  have := length_text_pos q c r
  simp only [List.length_append, List.length_cons] at h ⊢
  omega

/-- The tokens of an expression. -/
def scan (q : QuotePair) : List Char → List Token
  | [] => []
  | c :: r => (next q c r).1 :: scan q (next q c r).2
termination_by s => s.length
decreasing_by exact length_next_lt q c r

/-- The tokens are the expression, cut. -/
theorem flatMap_text_scan (q : QuotePair) (s : List Char) : (scan q s).flatMap text = s := by
  fun_induction scan q s with
  | case1 => rfl
  | case2 c r ih => rw [List.flatMap_cons, ih, next_append]

/-- The first character that is not blank. -/
def firstInk? : List Token → Option Char
  | [] => none
  | t :: ts => (t.text.find? fun c => !Text.isBlank c).or (firstInk? ts)

def isNumber : List Char → Bool
  | c :: _ => c.isDigit
  | [] => false

end Token

/-! ## Expressions

In an expression such as `u.name = 'x' AND COUNT(o.id) > 3` the words that are names are quoted.
All other tokens are copied, and so are numbers, words that are called, and bare words.
-/

namespace Dialect

/-- Whether a word is copied, by the tokens that follow it and the words kept bare for this call. -/
def copies (d : Dialect) (extra : List String) (w : List Char) (following : List Token) : Bool :=
  Token.isNumber w || Token.firstInk? following == some '(' || d.isBare (String.ofList w) ||
    extra.any fun e => Text.sameWord e.toList w

def quoteTokens (d : Dialect) (extra : List String) : List Token → List Char
  | [] => []
  | .word w :: ts =>
    (if d.copies extra w ts then w else d.quotes.quote w) ++ d.quoteTokens extra ts
  | t :: ts => t.text ++ d.quoteTokens extra ts

/-- The expression with its names quoted; `extra` words are bare in this call. -/
def quoteExpression (d : Dialect) (extra : List String) (s : String) : String :=
  String.ofList (d.quoteTokens extra (Token.scan d.quotes s.toList))

end Dialect

end PortableSql
