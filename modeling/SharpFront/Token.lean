import SharpFront.Binary64
import SharpFront.Place
import SharpFront.Source.Span
import SharpFront.Text.Quoted
import SharpFront.Token.Brace
import SharpFront.Token.Operator
import SharpFront.Token.Word

/-!
# Tokens

What a source text is made of. A token keeps the span of the text it stands for where that text is
not fixed by its kind; the values of quoted literals are decoded.
-/

namespace SharpFront

structure NumberLiteral where
  value : Binary64
  base : Nat
  /-- The literal is written with a decimal point. -/
  fraction : Bool
  text : Span
  deriving DecidableEq, Repr

inductive Token where
  | whitespace
  | lineComment (text : Span)
  | blockComment (text : Span)
  | identifier (text : Span)
  | keyword (word : String)
  | directive (d : Directive)
  /-- `warning` or `error` after `#`, with the rest of its line. -/
  | directiveMessage (d : Directive) (message : Span)
  | operator (o : Operator)
  | brace (b : Brace)
  | number (n : NumberLiteral)
  | char (value : String)
  | string (value : String)
  | verbatimString (value : String)
  /-- What a named pattern matched. -/
  | custom (name : String) (text : Span)
  deriving DecidableEq, Repr

namespace Token

def isWhitespace : Token → Bool
  | whitespace => true
  | _ => false

def isComment : Token → Bool
  | lineComment _ | blockComment _ => true
  | _ => false

/-- Neither a blank nor a comment. -/
def isSignificant (t : Token) : Bool := !t.isWhitespace && !t.isComment

def isOperator (t : Token) (o : Operator) : Bool := t == operator o

def isBrace (t : Token) (b : Brace) : Bool := t == brace b

def directive? : Token → Option Directive
  | directive d | directiveMessage d _ => some d
  | _ => none

/-- The word of an identifier, a keyword or a directive word. -/
def word? : Token → Option String
  | identifier text => some text.text
  | keyword word => some word
  | directive d | directiveMessage d _ => some d.word
  | _ => none

def kindName : Token → String
  | whitespace => "Whitespace"
  | lineComment _ => "LineComment"
  | blockComment _ => "BlockComment"
  | identifier _ => "Identifier"
  | keyword _ => "Keyword"
  | directive _ => "Directive"
  | directiveMessage .. => "DirectiveMessage"
  | operator _ => "Operator"
  | brace _ => "Brace"
  | number _ => "Number"
  | char _ => "Char"
  | string _ => "String"
  | verbatimString _ => "VerbatimString"
  | custom name _ => name

/-- The kind and the contents; the value of a quoted literal is quoted again. -/
def render (t : Token) : String :=
  match t with
  | whitespace => "Whitespace"
  | lineComment text | blockComment text | identifier text => s!"{t.kindName}: {text.text}"
  | keyword word => s!"Keyword: {word}"
  | directive d => s!"Directive: {d.word}"
  | directiveMessage d message => s!"Directive: {d.word} {message.text}"
  | operator o => s!"Operator: {o.text}"
  | brace b => s!"Brace: {b.char}"
  | number n => s!"Number: {n.text.text}"
  | char value | string value | verbatimString value => s!"{t.kindName}: {Text.quote value}"
  | custom name text => s!"{name}: {text.text}"

end Token

def Reserved.token : Reserved → Token
  | keyword word => .keyword word
  | directive d => .directive d

/-- A token and where it stands, or appears to stand. -/
structure PositionedToken where
  token : Token
  file : String
  line : Nat
  column : Nat
  /-- The number of characters it covers in the source text. -/
  length : Nat
  /-- Hidden from debuggers. -/
  hidden : Bool := false
  deriving DecidableEq, Repr

namespace PositionedToken

/-- The column right after the token, if it ends on the line where it starts. -/
def stopColumn (t : PositionedToken) : Nat := t.column + t.length

def render (t : PositionedToken) : String :=
  s!"{t.file}: ({t.line}, {t.column}) {t.token.render}"

end PositionedToken

end SharpFront
