import SharpFront.Diagnostic.Sink
import SharpFront.Pattern.Program
import SharpFront.Token

/-!
# Lexical forms

A form is one way for a token to be written. What a form finds at a place is a lexeme: the token,
the text it covers and what is wrong with it.
-/

namespace SharpFront

structure NamedPattern where
  name : String
  program : Pattern.Program
  /-- The character at which alone the pattern is tried. -/
  trigger : Option Char
  priority : Int

inductive Form where
  | whitespace
  | lineComment
  | blockComment
  | word
  | operator (o : Operator)
  | brace (b : Brace)
  | number
  | char
  | string
  | verbatimString
  | pattern (p : NamedPattern)

namespace Form

/-- The only character a match can start with, if there is one. -/
def trigger : Form → Option Char
  | whitespace | word | number => none
  | lineComment | blockComment => some '/'
  | operator o => some o.firstChar
  | brace b => some b.char
  | char => some '\''
  | string => some '"'
  | verbatimString => some '@'
  | pattern p => p.trigger

/-- A form of higher priority is tried first. -/
def priority : Form → Int
  | blockComment => 4
  | lineComment => 3
  | operator o => o.priority
  | word => -1
  | pattern p => p.priority
  | _ => 0

/-- Tried before blanks are skipped. -/
def seesBlanks : Form → Bool
  | whitespace => true
  | _ => false

def name : Form → String
  | whitespace => "Whitespace"
  | lineComment => "LineComment"
  | blockComment => "BlockComment"
  | word => "Word"
  | operator o => s!"Operator({o.text})"
  | brace b => s!"Brace({b.char})"
  | number => "Number"
  | char => "Char"
  | string => "String"
  | verbatimString => "VerbatimString"
  | pattern p => s!"Pattern({p.name})"

end Form

structure Lexeme where
  token : Token
  /-- The text covered, from the place at which the form was tried. -/
  text : List Char
  reports : List Report := []
  deriving DecidableEq, Repr

end SharpFront
