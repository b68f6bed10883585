import SharpFront.Form

/-!
# Verbatim strings

Between `@"` and `"` every character stands for itself, line feeds included; a quote is written
twice. A verbatim string without an end is reported where it begins.
-/

namespace SharpFront.Form

/-- The value of a verbatim string, and whether it ends. -/
def verbatimBody : List Char → List Char × Bool
  | [] => ([], false)
  | '"' :: '"' :: rest =>
    let (value, closed) := verbatimBody rest
    ('"' :: value, closed)
  | c :: rest =>
    if c = '"' then ([], true)
    else
      let (value, closed) := verbatimBody rest
      (c :: value, closed)

def doubleQuotes (value : List Char) : List Char :=
  value.flatMap fun c => if c = '"' then ['"', '"'] else [c]

def verbatimString? (place : Place) (text : List Char) : Option Lexeme :=
  match text with
  | '@' :: '"' :: rest =>
    let (value, closed) := verbatimBody rest
    some {
      token := .verbatimString (String.ofList value)
      text := '@' :: '"' :: doubleQuotes value ++ (if closed then ['"'] else [])
      reports := if closed then [] else [⟨.unterminatedString, place.line, place.column, 2⟩] }
  | _ => none

end SharpFront.Form
