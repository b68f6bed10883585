import SharpFront.Form.Recognize
import SharpFront.Proofs.Diagnostic.Position
import SharpFront.Proofs.Token.Content

/-!
# What forms find at other offsets

The offset at which a form is tried shows in nothing but where a span starts.

* `position_after`: the line and the column after a text;
* `recognize_content`: what is found at two places on the same line and column.
-/

namespace SharpFront

namespace Place

variable {p q : Place}

theorem position_step (h : p.position = q.position) (c : Char) :
    (p.step c).position = (q.step c).position := by
  obtain ⟨line, column⟩ := Prod.mk.inj (toLex.injective h)
  unfold step
  split
  · simp only [position, line]
  · simp only [position, line, column]

theorem position_after (h : p.position = q.position) (text : List Char) :
    (p.after text).position = (q.after text).position := by
  induction text generalizing p q with
  | nil => exact h
  | cons c text ih => exact ih (position_step h c)

/-- After a line feed the column no longer tells how long the line was. -/
theorem position_after_feed {p q : Place} (line : p.line = q.line) (more : List Char) :
    (p.after ('\n' :: more)).position = (q.after ('\n' :: more)).position := by
  refine position_after ?_ more
  rw [step, step, if_pos rfl, if_pos rfl, position, position, line]

end Place

/-- The lexeme with the span of its token at the start of the source. -/
def Lexeme.content (l : Lexeme) : Lexeme := { l with token := l.token.content }

namespace Form

variable {followsHash followsHash' : Nat → Bool} {p q : Place} {text : List Char}

theorem escapeReports_of_position (h : p.position = q.position) (pieces : List QuotedPiece) :
    escapeReports p pieces = escapeReports q pieces := by
  induction pieces generalizing p q with
  | nil => rfl
  | cons piece pieces ih =>
    obtain ⟨line, column⟩ := Prod.mk.inj (toLex.injective h)
    rw [escapeReports, escapeReports, ih (Place.position_after h piece.text), line, column]

theorem word?_content (line : p.line = q.line)
    (follows : followsHash q.line = followsHash' q.line) :
    (word? followsHash p text).map Lexeme.content =
      (word? followsHash' q text).map Lexeme.content := by
  simp only [word?, line, follows]
  split
  · rfl
  · split
    · split <;> rfl
    · rfl
    · rfl

theorem quoted?_of_position {quote : Char} {token : String → Token}
    (h : p.position = q.position) : quoted? quote token p text = quoted? quote token q text := by
  unfold quoted?
  split
  · rfl
  · next c rest =>
    split
    · have escapes := escapeReports_of_position (Place.position_step h quote)
        (quotedPieces quote rest).1
      have stop := Place.position_after h
        (quote :: (quotedPieces quote rest).1.flatMap (·.text))
      obtain ⟨line, column⟩ := Prod.mk.inj (toLex.injective stop)
      simp only [escapes, line, column]
    · rfl

/-- Where the line, the column and the tokens before are the same, so is what a form finds, with
spans by content. -/
theorem recognize_content (form : Form) (h : p.position = q.position)
    (follows : followsHash q.line = followsHash' q.line) (text : List Char) :
    (form.recognize followsHash p text).map Lexeme.content =
      (form.recognize followsHash' q text).map Lexeme.content := by
  obtain ⟨line, column⟩ := Prod.mk.inj (toLex.injective h)
  cases form with
  | whitespace | operator o | brace b => rfl
  | lineComment =>
    simp only [recognize, lineComment?]
    split <;> rfl
  | blockComment =>
    simp only [recognize, blockComment?, line, column]
    split <;> rfl
  | word => exact word?_content line follows
  | number =>
    simp only [recognize, number?]
    cases Numeral.ofText? text <;> rfl
  | char | string => exact congrArg _ (quoted?_of_position h)
  | verbatimString =>
    simp only [recognize, verbatimString?, line, column]
  | pattern p =>
    simp only [recognize, pattern?]
    cases p.program.find? text <;> rfl

end Form

end SharpFront
