/-!
# Reserved words

Keywords have fixed meaning in the language. Directive words introduce or qualify a line that
begins with `#`; a directive word is never taken for a keyword.
-/

namespace SharpFront

def keywords : List String := [
  "abstract", "as", "base", "bool", "break", "byte", "case", "catch", "char", "checked", "class",
  "const", "continue", "decimal", "default", "delegate", "do", "double", "enum", "event",
  "explicit", "extern", "false", "finally", "fixed", "float", "for", "foreach", "goto", "implicit",
  "in", "int", "interface", "internal", "is", "lock", "long", "namespace", "new", "null", "object",
  "operator", "out", "override", "params", "private", "protected", "public", "readonly", "ref",
  "return", "sbyte", "sealed", "short", "sizeof", "stackalloc", "static", "string", "struct",
  "switch", "this", "throw", "true", "try", "typeof", "uint", "ulong", "unchecked", "unsafe",
  "ushort", "using", "virtual", "void", "volatile", "while"]

/-- `disable`, `restore` and `hidden` only carry meaning as operands of other directives. -/
inductive Directive where
  | ifWord
  | elif
  | elseWord
  | endif
  | define
  | undef
  | region
  | endregion
  | pragma
  | warning
  | error
  | line
  | checksum
  | disable
  | restore
  | hidden
  deriving DecidableEq, Repr

namespace Directive

def all : List Directive := [
  ifWord, elif, elseWord, endif, define, undef, region, endregion, pragma, warning, error, line,
  checksum, disable, restore, hidden]

def word : Directive → String
  | ifWord => "if"
  | elif => "elif"
  | elseWord => "else"
  | endif => "endif"
  | define => "define"
  | undef => "undef"
  | region => "region"
  | endregion => "endregion"
  | pragma => "pragma"
  | warning => "warning"
  | error => "error"
  | line => "line"
  | checksum => "checksum"
  | disable => "disable"
  | restore => "restore"
  | hidden => "hidden"

/-- A directive of this kind keeps the rest of its line as a message. -/
def takesMessage (d : Directive) : Bool := d == warning || d == error

def ofWord? (word : String) : Option Directive := all.find? (·.word == word)

end Directive

inductive Reserved where
  | keyword (word : String)
  | directive (d : Directive)
  deriving DecidableEq, Repr

/-- The reserved meaning of a word, if it has one. -/
def Reserved.ofWord? (word : String) : Option Reserved :=
  match Directive.ofWord? word with
  | some d => some (directive d)
  | none => if keywords.contains word then some (keyword word) else none

end SharpFront
