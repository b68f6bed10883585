import SharpFront.Failure
import SharpFront.Preprocess.Directive
import SharpFront.Preprocess.Item

/-!
# Preprocessors

A preprocessor takes the tokens of one translation unit after the other. Conditions and positions
end with their unit; symbols stay.
-/

namespace SharpFront

namespace PreprocessState

/-- Takes one item: runs a directive, or keeps a token of included code. -/
def step (table : DirectiveTable) (s : PreprocessState) :
    SourceItem → PreprocessState × Option PositionedToken
  | .directive hash leads body =>
    let s := if leads then s else s.report (hash.report .notFirstCharacter)
    (table.dispatch hash body s, none)
  | .token t =>
    (s, if s.includesCode && s.keeps t.token then some (s.position.place t) else none)

/-- Takes items in order and gives the tokens that survive. -/
def steps (table : DirectiveTable) (s : PreprocessState) :
    List SourceItem → PreprocessState × List PositionedToken
  | [] => (s, [])
  | item :: items =>
    let (s, kept) := s.step table item
    let (s, later) := s.steps table items
    (s, kept.toList ++ later)

/-- An open condition is reported at the last token of the unit. -/
def finish (s : PreprocessState) (input : List PositionedToken) : PreprocessState :=
  if s.conditions.isEmpty then s else s.reportAny .endifExpected input.getLast?

/-- Takes a whole translation unit. -/
def runUnit (table : DirectiveTable) (s : PreprocessState) (input : List PositionedToken) :
    PreprocessState × List PositionedToken :=
  let (s, output) := s.steps table (SourceItem.ofTokens none input)
  (s.finish input, output)

end PreprocessState

structure Preprocessor where
  state : PreprocessState
  table : DirectiveTable := .default
  input? : Option (List PositionedToken) := none

namespace Preprocessor

def ofSettings (settings : Settings) : Preprocessor := { state := .ofSettings settings }

/-- Starts a translation unit. -/
def setInput (p : Preprocessor) (tokens : List PositionedToken) : Preprocessor :=
  { p with
    input? := some tokens
    state := { p.state with conditions := {}, position := {} } }

/-- Takes the input, which is then gone. -/
def run (p : Preprocessor) : Preprocessor × Except Failure (List PositionedToken) :=
  match p.input? with
  | none => (p, .error ⟨.noInput "preprocessor", .nowhere⟩)
  | some input =>
    let (state, output) := p.state.runUnit p.table input
    ({ p with state, input? := none }, .ok output)

/-- Hands out the diagnostics; new ones start from the policy of the settings. -/
def takeDiagnostics (p : Preprocessor) : Preprocessor × Diagnostics :=
  ({ p with state := { p.state with diagnostics := { policy := p.state.settings.policy } } },
    p.state.diagnostics)

def install (p : Preprocessor) (word : Directive) (handler : DirectiveHandler) : Preprocessor :=
  { p with table := p.table.install word handler }

end Preprocessor

end SharpFront
