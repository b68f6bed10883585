import SharpFront.Form

/-!
# The default catalog

The forms of the language. Verbatim strings come before the operator `@`, so that of the two it is
the operator that waits for the other to fail.
-/

namespace SharpFront

def defaultCatalog : List Form :=
  [.whitespace, .blockComment, .lineComment, .verbatimString, .string, .char] ++
  Operator.doubles.map .operator ++
  Operator.singles.map .operator ++
  [Brace.blockOpen, .blockClose, .parenOpen, .parenClose, .bracketOpen, .bracketClose].map
    Form.brace ++
  [.number, .word]

end SharpFront
