import SharpFront.Condition.Expression
import SharpFront.Condition.Level
import SharpFront.Preprocess.Position
import SharpFront.Settings

/-!
# The state of preprocessing

The defined symbols, the open conditions, the apparent position and the diagnostics, which hold the
warning policy. Directives act on these.
-/

namespace SharpFront

structure PreprocessState where
  settings : Settings
  symbols : SymbolSet
  conditions : ConditionStack := {}
  position : ApparentPosition := {}
  diagnostics : Diagnostics

namespace PreprocessState

def ofSettings (settings : Settings) : PreprocessState where
  settings := settings
  symbols := settings.defines
  diagnostics := { policy := settings.policy }

def includesCode (s : PreprocessState) : Bool := s.conditions.includesCode

def report (s : PreprocessState) (r : Report) : PreprocessState :=
  { s with diagnostics := s.diagnostics.report r }

def reportAll (s : PreprocessState) (rs : List Report) : PreprocessState :=
  { s with diagnostics := s.diagnostics.reportAll rs }

/-- Reports a token, if there is one. -/
def reportAny (s : PreprocessState) (kind : DiagnosticKind) (t : Option PositionedToken) :
    PreprocessState :=
  match t with
  | none => s
  | some t => s.report (t.report kind)

/-- Appends an entry to the warning policy. -/
def applyPolicy (s : PreprocessState) (line : Nat) (code? : Option Nat) (action : WarningAction) :
    PreprocessState :=
  { s with diagnostics :=
    { s.diagnostics with policy := s.diagnostics.policy.apply line code? action } }

/-- The value of a condition over the defined symbols. -/
def evaluate (s : PreprocessState) (tokens : List PositionedToken) (anchor : PositionedToken) :
    Bool × PreprocessState :=
  let (value, reports) := Condition.evaluate s.symbols.contains tokens anchor
  (value, s.reportAll reports)

/-- Reports the first token past the expected ones. -/
def checkExcess (s : PreprocessState) (tokens : List PositionedToken) (expected : Nat) :
    PreprocessState :=
  s.reportAny .unexpectedDirective tokens[expected]?

/-- Blanks and comments are kept when the settings say so, any other token always. -/
def keeps (s : PreprocessState) (t : Token) : Bool :=
  if t.isWhitespace then s.settings.keepWhitespace
  else if t.isComment then s.settings.keepComments
  else true

end PreprocessState

end SharpFront
