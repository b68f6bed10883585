import SharpFront.Text.Alphabetic
import SharpFront.Text.GraphemeExtend
import SharpFront.Text.Numeric
import SharpFront.Text.Unprintable

/-!
# Character classes

Blanks separate tokens, letters and numerals make up words, and unprintable characters and extending
marks are spelled out where a text is quoted.
-/

namespace SharpFront.Text

/-- The characters with the Unicode property White_Space. -/
def blanks : Ranges := [
  (0x9, 0xD), (0x20, 0x20), (0x85, 0x85), (0xA0, 0xA0), (0x1680, 0x1680), (0x2000, 0x200A),
  (0x2028, 0x2029), (0x202F, 0x202F), (0x205F, 0x205F), (0x3000, 0x3000)]

def isBlank (c : Char) : Bool := blanks.contains c.toNat

/-- A blank that does not end the line. -/
def isInlineBlank (c : Char) : Bool := c != '\n' && isBlank c

def isAlphabetic (c : Char) : Bool := alphabetic.contains c.toNat

def isNumeric (c : Char) : Bool := numeric.contains c.toNat

def isWordStart (c : Char) : Bool := c == '_' || isAlphabetic c

def isWordPart (c : Char) : Bool := c == '_' || isAlphabetic c || isNumeric c

def isUnprintable (c : Char) : Bool := unprintable.contains c.toNat

def isExtending (c : Char) : Bool := graphemeExtend.contains c.toNat

theorem isWordPart_of_isWordStart {c : Char} (h : isWordStart c = true) : isWordPart c = true := by
  simp only [isWordStart, isWordPart, Bool.or_eq_true] at h ⊢
  exact .inl h

theorem isBlank_of_isInlineBlank {c : Char} (h : isInlineBlank c = true) : isBlank c = true := by
  simp only [isInlineBlank, Bool.and_eq_true] at h
  exact h.2

end SharpFront.Text
