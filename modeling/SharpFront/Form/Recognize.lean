import SharpFront.Form.Quoted
import SharpFront.Form.Verbatim
import SharpFront.Form.Word

/-!
# Recognizing forms

What each form finds at the start of a text. The text a lexeme covers is where that text starts.
-/

namespace SharpFront.Form

def operator? (o : Operator) (text : List Char) : Option Lexeme :=
  if o.chars.isPrefixOf text then some { token := .operator o, text := o.chars } else none

def brace? (b : Brace) (text : List Char) : Option Lexeme :=
  if text.head? = some b.char then some { token := .brace b, text := [b.char] } else none

/-- Covers as many characters as the match has. -/
def pattern? (p : NamedPattern) (place : Place) (text : List Char) : Option Lexeme :=
  (p.program.find? text).map fun found =>
    let covered := text.take found.length
    { token := .custom p.name (.ofChars place.offset covered), text := covered }

/-- `followsHash` says whether the last token before, blanks aside, is a `#` on a given line. -/
def recognize (form : Form) (followsHash : Nat → Bool) (place : Place) (text : List Char) :
    Option Lexeme :=
  match form with
  | whitespace => whitespace? text
  | lineComment => lineComment? place text
  | blockComment => blockComment? place text
  | word => word? followsHash place text
  | operator o => operator? o text
  | brace b => brace? b text
  | number => number? place text
  | char => quoted? '\'' .char place text
  | string => quoted? '"' .string place text
  | verbatimString => verbatimString? place text
  | pattern p => pattern? p place text

end SharpFront.Form
