import SharpFront.Preprocess.Run
import SharpFront.Proofs.Condition.Content

/-!
# Preprocessing by content

Where the spans of tokens start makes no difference to preprocessing: the state comes out the same,
and the tokens that survive are the same by content.

* `runElse_content`, `runLine_content`, ...: one lemma for each handler;
* `dispatch_content`, `step_content`: one item;
* `steps_content`: the items of a text.
-/

namespace SharpFront

variable (s : PreprocessState)

/-! ## The state -/

namespace PreprocessState

theorem evaluate_content (tokens : List PositionedToken) (anchor : PositionedToken) :
    s.evaluate (tokens.map PositionedToken.content) anchor.content = s.evaluate tokens anchor := by
  rw [evaluate, evaluate, Condition.evaluate_content]

theorem reportAny_content (kind : DiagnosticKind) (t : Option PositionedToken) :
    s.reportAny kind (t.map PositionedToken.content) = s.reportAny kind t := by
  cases t <;> rfl

theorem checkExcess_content (tokens : List PositionedToken) (expected : Nat) :
    s.checkExcess (tokens.map PositionedToken.content) expected =
      s.checkExcess tokens expected := by
  rw [checkExcess, checkExcess, List.getElem?_map, reportAny_content]

end PreprocessState

/-! ## The handlers -/

namespace DirectiveLine

variable (d : DirectiveLine)

def content (d : DirectiveLine) : DirectiveLine :=
  ⟨d.word.content, d.operands.map PositionedToken.content⟩

theorem runIf_content : runIf d.content s = runIf d s := by
  simp only [runIf, content, PreprocessState.evaluate_content]

theorem runElif_content : runElif d.content s = runElif d s := by
  simp only [runElif, content, PreprocessState.evaluate_content, PositionedToken.report_content]

theorem runElse_content : runElse d.content s = runElse d s := by
  simp only [runElse, content, PreprocessState.checkExcess_content, PositionedToken.report_content]

theorem runEndif_content : runEndif d.content s = runEndif d s := by
  simp only [runEndif, content, PreprocessState.checkExcess_content, PositionedToken.report_content]

theorem symbol?_content : d.content.symbol? s = d.symbol? s := by
  obtain ⟨word, operands⟩ := d
  cases operands with
  | nil => rfl
  | cons operand operands =>
    have excess := s.checkExcess_content (operand :: operands) 1
    simp only [List.map_cons] at excess
    simp only [symbol?, content, List.map_cons, PositionedToken.token_content, Token.word?_content,
      PositionedToken.report_content, excess]

theorem runDefine_content : runDefine d.content s = runDefine d s := by
  simp only [runDefine, symbol?_content]

theorem runUndef_content : runUndef d.content s = runUndef d s := by
  simp only [runUndef, symbol?_content]

theorem lineFile_content (operands : List PositionedToken) :
    lineFile (operands.map PositionedToken.content) s = lineFile operands s := by
  cases operands with
  | nil => rfl
  | cons file operands =>
    simp only [lineFile, List.map_cons, PositionedToken.token_content,
      PositionedToken.report_content, List.head?_map, PreprocessState.reportAny_content]
    cases file.token <;> rfl

theorem runLine_content : runLine d.content s = runLine d s := by
  obtain ⟨word, operands⟩ := d
  cases operands with
  | nil => rfl
  | cons argument operands =>
    simp only [runLine, content, List.map_cons, PositionedToken.token_content,
      PositionedToken.report_content, PositionedToken.line_content, List.head?_map,
      PreprocessState.reportAny_content, lineFile_content]
    cases argument.token <;> rfl

theorem message_content : d.content.message = d.message := by
  simp only [message, content, PositionedToken.token_content]
  cases d.word.token <;> rfl

theorem runError_content : runError d.content s = runError d s := by
  simp only [runError, message_content]
  rfl

theorem policyCodes_content (line : Nat) (action : WarningAction) (codes : List PositionedToken) :
    policyCodes line action (codes.map PositionedToken.content) s =
      policyCodes line action codes s := by
  fun_induction policyCodes line action codes s with
  | case1 s => rfl
  | case2 item s t =>
    simp only [List.map_cons, List.map_nil, policyCodes, PositionedToken.token_content,
      Token.plainNumber?_content, PositionedToken.report_content]
    rfl
  | case3 item s t separator rest isComma ih =>
    rw [← ih]
    simp only [List.map_cons, policyCodes, PositionedToken.token_content,
      Token.plainNumber?_content, Token.isOperator_content, PositionedToken.report_content, isComma,
      if_true]
    rfl
  | case4 item s t separator rest notComma =>
    simp only [List.map_cons, policyCodes, PositionedToken.token_content,
      Token.plainNumber?_content, Token.isOperator_content, PositionedToken.report_content,
      notComma, Bool.false_eq_true, if_false]
    rfl

theorem runPolicy_content : runPolicy d.content s = runPolicy d s := by
  obtain ⟨word, operands⟩ := d
  match operands with
  | [] => rfl
  | [warning] => rfl
  | _ :: action :: codes =>
    simp only [runPolicy, content, List.map_cons, PositionedToken.token_content,
      PositionedToken.report_content, PositionedToken.line_content, Token.directive?_content,
      policyCodes_content, List.isEmpty_map]

theorem runWarning_content : runWarning d.content s = runWarning d s := by
  simp only [runWarning, runPolicy_content, message_content]
  simp only [content, PositionedToken.token_content, Token.directive?_content,
    PositionedToken.report_content]

theorem runChecksum_content : runChecksum d.content s = runChecksum d s := by
  simp only [runChecksum, content, PositionedToken.token_content, Token.directive?_content,
    PositionedToken.report_content]

theorem runPragma_content : runPragma d.content s = runPragma d s := by
  have warning := runWarning_content s d
  have checksum := runChecksum_content s d
  obtain ⟨word, operands⟩ := d
  cases operands with
  | nil => rfl
  | cons kind operands =>
    simp only [runPragma, warning, checksum]
    simp only [content, List.map_cons, PositionedToken.token_content, Token.directive?_content,
      PositionedToken.report_content]

end DirectiveLine

open DirectiveLine in
theorem DirectiveTable.default_content {w : Directive} {handler : DirectiveHandler}
    (h : DirectiveTable.default w = some handler) (d : DirectiveLine) :
    handler d.content s = handler d s := by
  cases w <;> cases h
  case ifWord => exact runIf_content s d
  case elif => exact runElif_content s d
  case elseWord => exact runElse_content s d
  case endif => exact runEndif_content s d
  case define => exact runDefine_content s d
  case undef => exact runUndef_content s d
  case line => exact runLine_content s d
  case region | endregion => rfl
  case pragma => exact runPragma_content s d
  case checksum => exact runChecksum_content s d
  case warning => exact runWarning_content s d
  case error => exact runError_content s d

theorem DirectiveTable.dispatch_content (hash : PositionedToken) (body : List PositionedToken) :
    DirectiveTable.default.dispatch hash.content (body.map PositionedToken.content) s =
      DirectiveTable.default.dispatch hash body s := by
  cases body with
  | nil => rfl
  | cons word operands =>
    simp only [dispatch, List.map_cons, PositionedToken.token_content, Token.directive?_content,
      PositionedToken.report_content]
    split
    · next handler found =>
      obtain ⟨w, -, isHandler⟩ := Option.bind_eq_some_iff.mp found
      exact default_content s isHandler ⟨word, operands⟩
    · rfl

/-! ## The items of a text -/

namespace SourceItem

def content : SourceItem → SourceItem
  | token t => token t.content
  | directive hash leads body => directive hash.content leads (body.map PositionedToken.content)

theorem ofTokens_content (last : Option Nat) (tokens : List PositionedToken) :
    ofTokens last (tokens.map PositionedToken.content) = (ofTokens last tokens).map content := by
  fun_induction ofTokens last tokens with
  | case1 last => rw [List.map_nil, ofTokens, List.map_nil]
  | case2 last t rest isHash body ih =>
    have isHash' : t.content.token.isOperator .hash = true := by
      rw [PositionedToken.token_content, Token.isOperator_content]
      exact isHash
    have sameLine : (fun u : PositionedToken => u.line == t.content.line) ∘
        PositionedToken.content = fun u => u.line == t.line := rfl
    have significant : (fun u : PositionedToken => u.token.isSignificant) ∘
        PositionedToken.content = fun u => u.token.isSignificant := by
      funext u
      exact u.token.isSignificant_content
    rw [List.map_cons, ofTokens, if_pos isHash', List.takeWhile_map, List.filter_map,
      List.dropWhile_map, sameLine, significant, PositionedToken.line_content, ih]
    rfl
  | case3 last t rest notHash ih =>
    have notHash' : ¬t.content.token.isOperator .hash = true := by
      rw [PositionedToken.token_content, Token.isOperator_content]
      exact notHash
    rw [List.map_cons, ofTokens, if_neg notHash', PositionedToken.token_content,
      Token.isSignificant_content, PositionedToken.line_content]
    exact congrArg (token t.content :: ·) ih

end SourceItem

namespace PreprocessState

theorem keeps_content (t : Token) : s.keeps t.content = s.keeps t := by
  rw [keeps, keeps, Token.isWhitespace_content, Token.isComment_content]

theorem step_content (item : SourceItem) :
    s.step .default item.content =
      ((s.step .default item).1, (s.step .default item).2.map PositionedToken.content) := by
  cases item with
  | token t =>
    simp only [step, SourceItem.content, PositionedToken.token_content, keeps_content,
      ApparentPosition.place_content]
    split <;> rfl
  | directive hash leads body =>
    simp only [step, SourceItem.content, PositionedToken.report_content,
      DirectiveTable.dispatch_content]
    rfl

/-- **Preprocessing goes by content.** -/
theorem steps_content (items : List SourceItem) :
    s.steps .default (items.map SourceItem.content) =
      ((s.steps .default items).1, (s.steps .default items).2.map PositionedToken.content) := by
  induction items generalizing s with
  | nil => rfl
  | cons item items ih =>
    simp only [List.map_cons, steps, step_content, ih, List.map_append]
    cases (s.step .default item).2 <;> rfl

end PreprocessState

end SharpFront
