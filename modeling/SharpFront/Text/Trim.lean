import SharpFront.Text.CharClass

/-!
# Trimming

Dropping characters of a class from the end of a text.
-/

namespace SharpFront.Text

def dropEndWhile (p : Char → Bool) (cs : List Char) : List Char :=
  (cs.reverse.dropWhile p).reverse

/-- The text without the blanks at its end. -/
def trimEnd (cs : List Char) : List Char := dropEndWhile isBlank cs

end SharpFront.Text
