import SharpFront.Token

/-!
# Directive lines

A `#` begins a directive line, which takes in every token that starts on the line of the `#` after
it. The other tokens stand by themselves.
-/

namespace SharpFront

inductive SourceItem where
  | token (t : PositionedToken)
  /-- The body is without blanks and comments. -/
  | directive (hash : PositionedToken) (leads : Bool) (body : List PositionedToken)
  deriving DecidableEq, Repr

namespace SourceItem

/-- Divides tokens into items. `last` is the line of the last significant token before them; a `#`
leads its line when no such token starts on it. -/
def ofTokens (last : Option Nat) : List PositionedToken → List SourceItem
  | [] => []
  | t :: rest =>
    if t.token.isOperator .hash then
      let body := (rest.takeWhile (·.line == t.line)).filter (·.token.isSignificant)
      directive t (last != some t.line) body ::
        ofTokens (some t.line) (rest.dropWhile (·.line == t.line))
    else token t :: ofTokens (if t.token.isSignificant then some t.line else last) rest
termination_by tokens => tokens.length
decreasing_by
  · have := (List.dropWhile_suffix (l := rest) (·.line == t.line)).length_le
    simp only [List.length_cons]
    omega
  · simp

end SourceItem

end SharpFront
