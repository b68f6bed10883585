import SharpFront.Diagnostic.Sink
import SharpFront.Source
import SharpFront.Text.Trim

/-!
# Excerpts

A diagnostic is shown with the source line it is about, and a caret below the column. The line
loses its leading spaces and tabs, and the caret moves with it:

```text
error 1028: Unexpected preprocessor directive
-> main.cs:3:2
  |
3 | #else
  | -^
```
-/

namespace SharpFront

namespace Excerpt

def isIndent (c : Char) : Bool := c == ' ' || c == '\t'

/-- How many spaces and tabs a line begins with. -/
def indentation (line : List Char) : Nat := (line.takeWhile isIndent).length

/-- The line as it is shown. -/
def shown (line : List Char) : List Char := Text.trimEnd (line.dropWhile isIndent)

/-- How wide the row below the line is: the caret stands at its end. A column inside the
indentation is shown as the first. -/
def caretColumn (line : List Char) (column : Nat) : Nat := max (column - indentation line) 1

/-- No row is wider. -/
def widthLimit : Nat := UInt16.size - 1

/-- Dashes up to the caret, if the row is not too wide. -/
def caretRow? (line : List Char) (column : Nat) : Option (List Char) :=
  let width := caretColumn line column
  if width ≤ widthLimit then some (List.replicate (width - 1) '-' ++ ['^']) else none

/-- The bar between line number and text, on rows without a number. -/
def bar (number : String) : String :=
  String.ofList (List.replicate (number.length + 1) ' ') ++ "|"

end Excerpt

/-- The diagnostic with its excerpt; `none` when its column cannot be shown. A diagnostic at a line
that the source text does not have is shown without an excerpt. -/
def Diagnostic.excerpt? (d : Diagnostic) (file : String) (source : SourceText) :
    Option String :=
  let number := toString d.line
  let bar := Excerpt.bar number
  let head :=
    s!"{d.severity.name} {d.code}: {d.message}\n-> {file}:{d.line}:{d.column}\n{bar}\n"
  match source.line? d.line with
  | none => some head
  | some line =>
    let text := String.ofList (Excerpt.shown line)
    (Excerpt.caretRow? line d.column).map fun caret =>
      s!"{head}{number} | {text}\n{bar} {String.ofList caret}\n"

end SharpFront
