/-!
# Letter case

Keywords, operators and function names are compared and raised in the 26 letters of ASCII only;
every other character stands for itself.
-/

namespace PortableSql.Text

def upper (s : List Char) : List Char := s.map Char.toUpper

/-- Equality up to ASCII case. -/
def sameWord (a b : List Char) : Bool := a.map Char.toLower == b.map Char.toLower

theorem sameWord_iff {a b : List Char} :
    sameWord a b = true ↔ a.map Char.toLower = b.map Char.toLower := by
  simp [sameWord]

theorem sameWord_refl (a : List Char) : sameWord a a = true := by
  simp [sameWord]

theorem sameWord_symm {a b : List Char} (h : sameWord a b = true) : sameWord b a = true :=
  sameWord_iff.2 (sameWord_iff.1 h).symm

theorem sameWord_trans {a b c : List Char} (h : sameWord a b = true) (h' : sameWord b c = true) :
    sameWord a c = true :=
  sameWord_iff.2 ((sameWord_iff.1 h).trans (sameWord_iff.1 h'))

end PortableSql.Text
