import SharpFront.Preprocess.State
import SharpFront.Text.Trim

/-!
# Directives

What each directive does with its line. In excluded code only the conditional directives have an
effect; `#define` and `#undef` still check their operands there.
-/

namespace SharpFront

/-- A directive line after its `#`, without blanks and comments. -/
structure DirectiveLine where
  /-- The token with the directive word. -/
  word : PositionedToken
  operands : List PositionedToken
  deriving DecidableEq, Repr

abbrev DirectiveHandler := DirectiveLine → PreprocessState → PreprocessState

/-- The value of a whole decimal number that fits in 32 bits. -/
def Token.plainNumber? : Token → Option Nat
  | .number n =>
    if !n.fraction && n.base == 10 then n.value.toNat?.filter (· < UInt32.size) else none
  | _ => none

namespace DirectiveLine

/-! ## Conditional code -/

def runIf (d : DirectiveLine) (s : PreprocessState) : PreprocessState :=
  let (value, s) := s.evaluate d.operands d.word
  { s with conditions := s.conditions.push (.opened value) }

/-- After the `#else` of its level an `#elif` is out of place and changes nothing. -/
def runElif (d : DirectiveLine) (s : PreprocessState) : PreprocessState :=
  let (value, s) := s.evaluate d.operands d.word
  if s.conditions.top?.any (!·.isFinal) then
    { s with conditions := s.conditions.modifyTop (·.branch value) }
  else s.report (d.word.report .unexpectedDirective)

/-- A second `#else` is out of place and yet closes the branches of its level. -/
def runElse (d : DirectiveLine) (s : PreprocessState) : PreprocessState :=
  let s := s.checkExcess d.operands 0
  let accepted := s.conditions.top?.any (!·.isFinal)
  let s := { s with conditions := s.conditions.modifyTop (·.lastBranch) }
  if accepted then s else s.report (d.word.report .unexpectedDirective)

def runEndif (d : DirectiveLine) (s : PreprocessState) : PreprocessState :=
  let s := s.checkExcess d.operands 0
  let (conditions, closed) := s.conditions.pop
  if closed.isSome then { s with conditions }
  else s.report (d.word.report .unexpectedDirective)

/-! ## Symbols -/

/-- The symbol that a directive is about, when it is to take effect. -/
def symbol? (d : DirectiveLine) (s : PreprocessState) : Option String × PreprocessState :=
  match d.operands with
  | [] => (none, s.report (d.word.reportAfter .identifierExpected))
  | operand :: _ =>
    match operand.token.word? with
    | none => (none, s.report (operand.report .invalidExpression))
    | some symbol =>
      let s := s.checkExcess d.operands 1
      (if s.includesCode then some symbol else none, s)

def runDefine (d : DirectiveLine) (s : PreprocessState) : PreprocessState :=
  match d.symbol? s with
  | (none, s) => s
  | (some symbol, s) => { s with symbols := s.symbols.insert symbol }

def runUndef (d : DirectiveLine) (s : PreprocessState) : PreprocessState :=
  match d.symbol? s with
  | (none, s) => s
  | (some symbol, s) => { s with symbols := s.symbols.erase symbol }

/-! ## Positions -/

/-- The file after the number of a `#line`, which nothing may follow. -/
def lineFile (operands : List PositionedToken) (s : PreprocessState) : PreprocessState :=
  match operands with
  | [] => s
  | file :: more =>
    match file.token with
    | .string name | .verbatimString name =>
      let s := { s with position := { s.position with file? := some name } }
      s.reportAny .endOfLineExpected more.head?
    | _ => s.report (file.report .endOfLineExpected)

def runLine (d : DirectiveLine) (s : PreprocessState) : PreprocessState :=
  if !s.includesCode then s
  else
    match d.operands with
    | [] => s.report (d.word.reportAfter .invalidNumber)
    | argument :: more =>
      match argument.token with
      | .keyword "default" => { s.reportAny .endOfLineExpected more.head? with position := {} }
      | .directive .hidden =>
        let s := s.reportAny .endOfLineExpected more.head?
        { s with position := { s.position with hidden := true } }
      | token =>
        match token.plainNumber? with
        | none => s.report (argument.report .invalidNumber)
        | some number =>
          lineFile more { s with position := s.position.setLine d.word.line number }

/-! ## Messages and warnings -/

def runRegion (_ : DirectiveLine) (s : PreprocessState) : PreprocessState := s

/-- The message of `#warning` or `#error`, without the blanks at its end. -/
def message (d : DirectiveLine) : String :=
  match d.word.token with
  | .directiveMessage _ message => String.ofList (Text.trimEnd message.text.toList)
  | _ => ""

def runError (d : DirectiveLine) (s : PreprocessState) : PreprocessState :=
  if s.includesCode then s.report (d.word.report (.userError d.message)) else s

/-- The codes that an action is about, with commas between them. -/
def policyCodes (line : Nat) (action : WarningAction) :
    List PositionedToken → PreprocessState → PreprocessState
  | [], s => s
  | item :: rest, s =>
    let s := match item.token.plainNumber? with
      | some code => s.applyPolicy line (some code) action
      | none => s.report (item.report .invalidNumber)
    match rest with
    | [] => s
    | separator :: rest =>
      if separator.token.isOperator .comma then policyCodes line action rest s
      else s.report (separator.report .endOfLineExpectedWarning)

/-- `disable` or `restore`, and the codes it is about: every warning if there are none. -/
def runPolicy (d : DirectiveLine) (s : PreprocessState) : PreprocessState :=
  let act (action : WarningAction) (codes : List PositionedToken) : PreprocessState :=
    if codes.isEmpty then s.applyPolicy d.word.line none action
    else policyCodes d.word.line action codes s
  match d.operands with
  | [] => s
  | [warning] => s.report (warning.reportAfter .expectedDisableOrRestore)
  | _ :: action :: codes =>
    match action.token.directive? with
    | some .disable => act .disable codes
    | some .restore => act .restore codes
    | _ => s.report (action.report .expectedDisableOrRestore)

/-- Serves both `#warning` and `#pragma warning`. -/
def runWarning (d : DirectiveLine) (s : PreprocessState) : PreprocessState :=
  if !s.includesCode then s
  else if d.word.token.directive? = some .pragma then d.runPolicy s
  else s.report (d.word.report (.userWarning d.message))

/-- A checksum belongs to `#pragma`; what follows it is not looked at. -/
def runChecksum (d : DirectiveLine) (s : PreprocessState) : PreprocessState :=
  if s.includesCode && d.word.token.directive? != some .pragma then
    s.report (d.word.report .directiveExpected)
  else s

def runPragma (d : DirectiveLine) (s : PreprocessState) : PreprocessState :=
  if !s.includesCode then s
  else
    match d.operands with
    | [] => s.report (d.word.report .unrecognizedPragma)
    | kind :: _ =>
      match kind.token.directive? with
      | some .warning => d.runWarning s
      | some .checksum => d.runChecksum s
      | _ => s.report (kind.report .unrecognizedPragma)

end DirectiveLine

/-- What is done for each directive word. A word without a handler begins no directive. -/
abbrev DirectiveTable := Directive → Option DirectiveHandler

namespace DirectiveTable

open DirectiveLine

def default : DirectiveTable
  | .ifWord => some runIf
  | .elif => some runElif
  | .elseWord => some runElse
  | .endif => some runEndif
  | .define => some runDefine
  | .undef => some runUndef
  | .region | .endregion => some runRegion
  | .line => some runLine
  | .pragma => some runPragma
  | .checksum => some runChecksum
  | .warning => some runWarning
  | .error => some runError
  | .disable | .restore | .hidden => none

/-- Replaces the handler of one word. -/
def install (t : DirectiveTable) (word : Directive) (handler : DirectiveHandler) : DirectiveTable :=
  fun d => if d = word then some handler else t d

/-- Runs a directive line: the tokens after `hash` on its line, without blanks and comments. -/
def dispatch (t : DirectiveTable) (hash : PositionedToken) (body : List PositionedToken)
    (s : PreprocessState) : PreprocessState :=
  match body with
  | [] => s.report ⟨.directiveExpected, hash.line, hash.column, 1⟩
  | word :: operands =>
    match word.token.directive?.bind t with
    | some handler => handler ⟨word, operands⟩ s
    | none => s.report (word.report .directiveExpected)

end DirectiveTable

end SharpFront
