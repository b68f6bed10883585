import SharpFront.Form.Recognize
import SharpFront.Proofs.Scan.Lines

/-!
# Texts that are put elsewhere

A text that begins at another place is read as at its own start, with everything moved along: lines
by the lines before it, columns on its first line by the columns before it, spans by the bytes
before it.

* `Place.moveTo`: where a place of a text comes to be;
* `Place.after_moveTo`: the place after a text moves with the place before it;
* `recognize_moveTo`: what a form finds moves with the place at which it is tried.
-/

namespace SharpFront

/-! ## Moving -/

/-- Where a place of a text comes to be when the text is put at the origin. -/
def Place.moveTo (p origin : Place) : Place where
  offset := p.offset + origin.offset
  line := p.line + (origin.line - 1)
  column := if p.line = 1 then p.column + (origin.column - 1) else p.column

/-- The span some bytes further on. -/
def Span.moveBy (s : Span) (n : Nat) : Span := { s with start := s.start + n }

/-- The token with its span some bytes further on. -/
def Token.moveBy (n : Nat) : Token → Token
  | lineComment text => lineComment (text.moveBy n)
  | blockComment text => blockComment (text.moveBy n)
  | identifier text => identifier (text.moveBy n)
  | directiveMessage d message => directiveMessage d (message.moveBy n)
  | number literal => number { literal with text := literal.text.moveBy n }
  | custom name text => custom name (text.moveBy n)
  | whitespace => whitespace
  | keyword word => keyword word
  | directive d => directive d
  | operator o => operator o
  | brace b => brace b
  | char value => char value
  | string value => string value
  | verbatimString value => verbatimString value

/-- The token where the text that it is from is put at the origin. -/
def PositionedToken.moveTo (t : PositionedToken) (origin : Place) : PositionedToken :=
  let p := ({ line := t.line, column := t.column } : Place).moveTo origin
  { t with token := t.token.moveBy origin.offset, line := p.line, column := p.column }

def Report.moveTo (r : Report) (origin : Place) : Report :=
  let p := ({ line := r.line, column := r.column } : Place).moveTo origin
  { r with line := p.line, column := p.column }

def Diagnostic.moveTo (d : Diagnostic) (origin : Place) : Diagnostic :=
  let p := ({ line := d.line, column := d.column } : Place).moveTo origin
  { d with line := p.line, column := p.column }

def Diagnostics.moveTo (s : Diagnostics) (origin : Place) : Diagnostics :=
  { s with entries := s.entries.map (·.moveTo origin) }

def Lexeme.moveTo (l : Lexeme) (origin : Place) : Lexeme where
  token := l.token.moveBy origin.offset
  text := l.text
  reports := l.reports.map (·.moveTo origin)

namespace Place

variable {p : Place}

theorem line_pos_after (positive : 0 < p.line) (text : List Char) : 0 < (p.after text).line :=
  Nat.lt_of_lt_of_le positive (p.line_le_after text)

theorem step_moveTo (origin : Place) (positive : 0 < p.line) (c : Char) :
    (p.step c).moveTo origin = (p.moveTo origin).step c := by
  unfold step
  by_cases isFeed : c = '\n'
  · have later : ¬p.line + 1 = 1 := by omega
    simp only [if_pos isFeed, moveTo, if_neg later, mk.injEq, and_true]
    omega
  · simp only [if_neg isFeed, moveTo, mk.injEq]
    refine ⟨by omega, trivial, ?_⟩
    split <;> omega

theorem after_moveTo (origin : Place) (positive : 0 < p.line) (text : List Char) :
    (p.after text).moveTo origin = (p.moveTo origin).after text := by
  induction text generalizing p with
  | nil => rfl
  | cons c text ih =>
    have stays : 0 < (p.step c).line := line_pos_after positive [c]
    rw [after_cons, after_cons, ih stays, step_moveTo origin positive]

/-- The start of a text moves to the origin. -/
theorem start_moveTo {origin : Place} (line : 0 < origin.line) (column : 0 < origin.column) :
    ({} : Place).moveTo origin = origin := by
  have lines : 1 + (origin.line - 1) = origin.line := by omega
  have columns : 1 + (origin.column - 1) = origin.column := by omega
  simp only [moveTo, if_true, lines, columns, Nat.zero_add]

end Place

namespace Token

variable (t : Token) (n : Nat)

@[simp] theorem isWhitespace_moveBy : (t.moveBy n).isWhitespace = t.isWhitespace := by
  cases t <;> rfl

@[simp] theorem isOperator_moveBy (o : Operator) : (t.moveBy n).isOperator o = t.isOperator o := by
  cases t <;> rfl

end Token

namespace Form

variable {followsHash followsHash' : Nat → Bool} {p origin : Place} {text : List Char}

theorem escapeReports_moveTo (positive : 0 < p.line) (pieces : List QuotedPiece) :
    escapeReports (p.moveTo origin) pieces =
      (escapeReports p pieces).map (·.moveTo origin) := by
  induction pieces generalizing p with
  | nil => rfl
  | cons piece pieces ih =>
    have stays := Place.line_pos_after positive piece.text
    rw [escapeReports, escapeReports, ← Place.after_moveTo origin positive, ih stays]
    split <;> rfl

theorem word?_moveTo (positive : 0 < p.line)
    (follows : followsHash' (p.moveTo origin).line = followsHash p.line) :
    word? followsHash' (p.moveTo origin) text =
      (word? followsHash p text).map (·.moveTo origin) := by
  simp only [word?, follows]
  split
  · rfl
  · split
    · split
      · simp only [directiveMessage, ← Place.after_moveTo origin positive]
        rfl
      · rfl
    · rfl
    · rfl

theorem quoted?_moveTo {quote : Char} {token : String → Token} (positive : 0 < p.line)
    (plain : ∀ value, (token value).moveBy origin.offset = token value) :
    quoted? quote token (p.moveTo origin) text =
      (quoted? quote token p text).map (·.moveTo origin) := by
  unfold quoted?
  split
  · rfl
  · split
    · have stays : 0 < (p.step quote).line := Place.line_pos_after positive [quote]
      simp only [← Place.step_moveTo origin positive, ← Place.after_moveTo origin positive,
        escapeReports_moveTo stays, Option.map_some, Lexeme.moveTo, plain, List.map_append]
      split <;> rfl
    · rfl

/-- What a form finds moves with the place at which it is tried, if the tokens behind tell the
same. -/
theorem recognize_moveTo (form : Form) (positive : 0 < p.line)
    (follows : followsHash' (p.moveTo origin).line = followsHash p.line) (text : List Char) :
    form.recognize followsHash' (p.moveTo origin) text =
      (form.recognize followsHash p text).map (·.moveTo origin) := by
  have offset : (p.moveTo origin).offset + 2 = p.offset + 2 + origin.offset :=
    Nat.add_right_comm _ _ _
  cases form with
  | whitespace =>
    simp only [recognize, whitespace?]
    split <;> rfl
  | lineComment =>
    simp only [recognize, lineComment?, offset]
    split <;> rfl
  | blockComment =>
    simp only [recognize, blockComment?, offset]
    split
    · next rest =>
      cases ends : (commentBody rest).2 <;> rfl
    · rfl
  | word => exact word?_moveTo positive follows
  | operator o =>
    simp only [recognize, operator?]
    split <;> rfl
  | brace b =>
    simp only [recognize, brace?]
    split <;> rfl
  | number =>
    simp only [recognize, number?]
    cases Numeral.ofText? text <;> rfl
  | char | string => exact quoted?_moveTo positive fun _ => rfl
  | verbatimString =>
    simp only [recognize, verbatimString?]
    split
    · next rest =>
      cases ends : (verbatimBody rest).2 <;> rfl
    · rfl
  | pattern pattern =>
    simp only [recognize, pattern?]
    cases pattern.program.find? text <;> rfl

end Form

end SharpFront
