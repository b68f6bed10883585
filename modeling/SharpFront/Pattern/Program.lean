/-!
# Programs of patterns

How a text is searched for a pattern is left to a program. Of the match only its text counts: a
token covers as much of the start of the text as the match has characters, which is the match itself
where the pattern is tied to the start.
-/

namespace SharpFront.Pattern

/-- What searches texts for a pattern, such as a regular expression that a library has compiled. -/
structure Program where
  /-- The first match in a text. -/
  find? : List Char → Option (List Char)
  /-- A match is a part of the text. -/
  isInfix : ∀ {text found : List Char}, find? text = some found → found <:+: text

end SharpFront.Pattern
