import SharpFront.Preprocess.Directive

/-!
# The content of tokens

Two spans say the same when their texts are equal. The content of a token is the token with its span
at the start of the source, so that two tokens with equal contents differ in nothing but where their
spans start.

Nothing that a directive asks a token depends on where its span starts.
-/

namespace SharpFront

/-- The span as far as it counts, whatever it starts at. -/
def Span.content (s : Span) : Span := { s with start := 0 }

def NumberLiteral.content (n : NumberLiteral) : NumberLiteral := { n with text := n.text.content }

namespace Token

/-- The token with its span at the start of the source. -/
def content : Token → Token
  | lineComment text => lineComment text.content
  | blockComment text => blockComment text.content
  | identifier text => identifier text.content
  | directiveMessage d message => directiveMessage d message.content
  | number n => number n.content
  | custom name text => custom name text.content
  | whitespace => whitespace
  | keyword word => keyword word
  | directive d => directive d
  | operator o => operator o
  | brace b => brace b
  | char value => char value
  | string value => string value
  | verbatimString value => verbatimString value

variable (t : Token)

@[simp] theorem isWhitespace_content : t.content.isWhitespace = t.isWhitespace := by
  cases t <;> rfl

@[simp] theorem isComment_content : t.content.isComment = t.isComment := by cases t <;> rfl

@[simp] theorem isSignificant_content : t.content.isSignificant = t.isSignificant := by
  simp only [isSignificant, isWhitespace_content, isComment_content]

@[simp] theorem isOperator_content (o : Operator) :
    t.content.isOperator o = t.isOperator o := by
  cases t <;> rfl

@[simp] theorem isBrace_content (b : Brace) : t.content.isBrace b = t.isBrace b := by
  cases t <;> rfl

@[simp] theorem directive?_content : t.content.directive? = t.directive? := by cases t <;> rfl

@[simp] theorem word?_content : t.content.word? = t.word? := by cases t <;> rfl

@[simp] theorem plainNumber?_content : t.content.plainNumber? = t.plainNumber? := by
  cases t <;> rfl

end Token

/-- The token with its span at the start of the source; it stands where it stands. -/
def PositionedToken.content (t : PositionedToken) : PositionedToken :=
  { t with token := t.token.content }

namespace PositionedToken

variable (t : PositionedToken)

@[simp] theorem token_content : t.content.token = t.token.content := rfl

@[simp] theorem line_content : t.content.line = t.line := rfl

@[simp] theorem report_content (kind : DiagnosticKind) : t.content.report kind = t.report kind :=
  rfl

@[simp] theorem reportAfter_content (kind : DiagnosticKind) :
    t.content.reportAfter kind = t.reportAfter kind := rfl

end PositionedToken

theorem ApparentPosition.place_content (p : ApparentPosition) (t : PositionedToken) :
    p.place t.content = (p.place t).content := rfl

end SharpFront
