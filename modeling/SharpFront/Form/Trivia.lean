import SharpFront.Form

/-!
# Blanks and comments

A line comment ends before the line feed, a block comment after the first `*/`. A block comment
without an end is reported where it begins and covers the rest of the text.
-/

namespace SharpFront.Form

def whitespace? (text : List Char) : Option Lexeme :=
  let blanks := text.takeWhile Text.isBlank
  if blanks.isEmpty then none else some { token := .whitespace, text := blanks }

/-- The text up to the end of the line. -/
def restOfLine (text : List Char) : List Char := text.takeWhile (· != '\n')

def lineComment? (place : Place) (text : List Char) : Option Lexeme :=
  match text with
  | '/' :: '/' :: rest =>
    let body := restOfLine rest
    some {
      token := .lineComment (.ofChars (place.offset + 2) body)
      text := '/' :: '/' :: body }
  | _ => none

/-- What a block comment holds, and whether it ends. -/
def commentBody : List Char → List Char × Bool
  | [] => ([], false)
  | '*' :: '/' :: _ => ([], true)
  | c :: rest =>
    let (body, closed) := commentBody rest
    (c :: body, closed)

def blockComment? (place : Place) (text : List Char) : Option Lexeme :=
  match text with
  | '/' :: '*' :: rest =>
    let (body, closed) := commentBody rest
    some {
      token := .blockComment (.ofChars (place.offset + 2) body)
      text := '/' :: '*' :: body ++ (if closed then ['*', '/'] else [])
      reports := if closed then [] else [⟨.unterminatedComment, place.line, place.column, 2⟩] }
  | _ => none

end SharpFront.Form
