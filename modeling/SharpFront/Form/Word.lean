import SharpFront.Form.Trivia

/-!
# Words

A word is a letter or an underscore, followed by letters, numerals and underscores. After a `#`, the
words `warning` and `error` take the rest of their line as a message.
-/

namespace SharpFront.Form

/-- The word that a text starts with, empty if it starts with none. -/
def wordText : List Char → List Char
  | [] => []
  | c :: rest => if Text.isWordStart c then c :: rest.takeWhile Text.isWordPart else []

/-- The directive with the message that follows it, the blanks in front left out. -/
def directiveMessage (d : Directive) (place : Place) (word rest : List Char) : Lexeme :=
  let gap := rest.takeWhile Text.isInlineBlank
  let message := restOfLine (rest.drop gap.length)
  {
    token := .directiveMessage d (.ofChars (place.after (word ++ gap)).offset message)
    text := word ++ gap ++ message }

/-- `followsHash` says whether the last token before, blanks aside, is a `#` on a given line. -/
def word? (followsHash : Nat → Bool) (place : Place) (text : List Char) : Option Lexeme :=
  let word := wordText text
  if word.isEmpty then none
  else
    match Reserved.ofWord? (String.ofList word) with
    | some (.directive d) =>
      if d.takesMessage && followsHash place.line then
        some (directiveMessage d place word (text.drop word.length))
      else some { token := .directive d, text := word }
    | some (.keyword w) => some { token := .keyword w, text := word }
    | none => some { token := .identifier (.ofChars place.offset word), text := word }

end SharpFront.Form
