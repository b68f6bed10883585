/-!
# Kinds of diagnostics

Everything that can be wrong with a source text, its stable code, its severity and its wording.
-/

namespace SharpFront

inductive Severity where
  | info
  | warning
  | error
  deriving DecidableEq, Repr

namespace Severity

def name : Severity → String
  | info => "info"
  | warning => "warning"
  | error => "error"

/-- Info is the lowest severity, error the highest. -/
def rank : Severity → Nat
  | info => 0
  | warning => 1
  | error => 2

end Severity

inductive DiagnosticKind where
  | externAliasOrder
  | identifierExpected
  | semicolonExpected
  | unrecognizedEscape
  | newlineInConstant
  | directiveExpected
  | endOfLineExpected
  | endifExpected
  | unexpectedDirective
  | userError (message : String)
  | userWarning (message : String)
  | unterminatedComment
  | unterminatedString
  | notFirstCharacter
  | unexpectedKeyword (word : String)
  | invalidExpression
  | unexpectedCharacter (c : Char)
  | unrecognizedPragma
  | expectedDisableOrRestore
  | invalidNumber
  | endOfLineExpectedWarning
  deriving DecidableEq, Repr

namespace DiagnosticKind

def code : DiagnosticKind → Nat
  | externAliasOrder => 439
  | identifierExpected => 1001
  | semicolonExpected => 1002
  | unrecognizedEscape => 1009
  | newlineInConstant => 1010
  | directiveExpected => 1024
  | endOfLineExpected => 1025
  | endifExpected => 1027
  | unexpectedDirective => 1028
  | userError _ => 1029
  | userWarning _ => 1030
  | unterminatedComment => 1035
  | unterminatedString => 1039
  | notFirstCharacter => 1040
  | unexpectedKeyword _ => 1041
  | invalidExpression => 1517
  | unexpectedCharacter _ => 1519
  | unrecognizedPragma => 1633
  | expectedDisableOrRestore => 1634
  | invalidNumber => 1692
  | endOfLineExpectedWarning => 1696

/-- The codes whose overrides reach a warning. A user warning belongs to the family of user
diagnostics, so overrides that name the code of user errors reach it too. Errors have none. -/
def overrideCodes : DiagnosticKind → List Nat
  | userWarning _ => [1030, 1029]
  | unrecognizedPragma => [1633]
  | expectedDisableOrRestore => [1634]
  | invalidNumber => [1692]
  | endOfLineExpectedWarning => [1696]
  | _ => []

def severity : DiagnosticKind → Severity
  | userWarning _
  | unrecognizedPragma
  | expectedDisableOrRestore
  | invalidNumber
  | endOfLineExpectedWarning => .warning
  | _ => .error

def message : DiagnosticKind → String
  | externAliasOrder =>
    "An extern alias declaration must precede all other elements defined in the namespace"
  | identifierExpected => "Identifier expected"
  | semicolonExpected => "; expected"
  | unrecognizedEscape => "Unrecognized escape sequence"
  | newlineInConstant => "Newline in constant"
  | directiveExpected => "Preprocessor directive expected"
  | endOfLineExpected => "Single-line comment or end-of-line expected"
  | endifExpected => "#endif directive expected"
  | unexpectedDirective => "Unexpected preprocessor directive"
  | userError message => message
  | userWarning message => message
  | unterminatedComment => "End-of-file found, '*/' expected"
  | unterminatedString => "Unterminated string literal"
  | notFirstCharacter =>
    "Preprocessor directives must appear as the first non-whitespace character on a line"
  | unexpectedKeyword word => s!"Identifier expected; '{word}' is a keyword"
  | invalidExpression => "Invalid preprocessor expression"
  | unexpectedCharacter c => s!"Unexpected character: {c}"
  | unrecognizedPragma => "Unrecognized #pragma directive"
  | expectedDisableOrRestore => "Expected disable or restore"
  | invalidNumber => "Invalid number"
  | endOfLineExpectedWarning => "Single-line comment or end-of-line expected"

def isWarning (k : DiagnosticKind) : Bool := k.severity == .warning

end DiagnosticKind

end SharpFront
