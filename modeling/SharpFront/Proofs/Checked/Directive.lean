import SharpFront.Proofs.Checked.Body

/-!
# Directives on bodies that can be overrun

Each directive again on the list of its tokens, the word first, with the indices it takes them by.

* `dispatch_eq`: no directive of the default table takes a token that is not there, or reports a
  number that does not fit; each does what it does to the word and its operands.
-/

namespace SharpFront.Checked

/-! ## The directives -/

abbrev BodyHandler := List PositionedToken → PreprocessState → Checked PreprocessState

/-- Reports the first token past the expected ones. -/
def checkExcess (body : List PositionedToken) (expected : Nat) (s : PreprocessState) :
    Checked PreprocessState :=
  putAny s .unexpectedDirective body[expected]?

/-- The value of the condition after the word. -/
def condition (body : List PositionedToken) (s : PreprocessState) :
    Checked (Bool × PreprocessState) := do
  let tokens ← itemsFrom body 1
  let (value, reports) ← evaluate s.symbols.contains tokens (← item body 0)
  return (value, ← putAll reports s)

def runIf : BodyHandler := fun body s => do
  let (value, s) ← condition body s
  return { s with conditions := s.conditions.push (.opened value) }

def runElif : BodyHandler := fun body s => do
  let (value, s) ← condition body s
  if s.conditions.top?.any (!·.isFinal) then
    return { s with conditions := s.conditions.modifyTop (·.branch value) }
  else
    let word ← item body 0
    put s (word.report .unexpectedDirective)

def runElse : BodyHandler := fun body s => do
  let s ← checkExcess body 1 s
  let accepted := s.conditions.top?.any (!·.isFinal)
  let s := { s with conditions := s.conditions.modifyTop (·.lastBranch) }
  if accepted then return s
  else
    let word ← item body 0
    put s (word.report .unexpectedDirective)

def runEndif : BodyHandler := fun body s => do
  let s ← checkExcess body 1 s
  let (conditions, closed) := s.conditions.pop
  if closed.isSome then return { s with conditions }
  else
    let word ← item body 0
    put s (word.report .unexpectedDirective)

def symbol? (body : List PositionedToken) (s : PreprocessState) :
    Checked (Option String × PreprocessState) := do
  match body[1]? with
  | none =>
    let word ← item body 0
    return (none, ← put s (word.reportAfter .identifierExpected))
  | some operand =>
    match operand.token.word? with
    | none => return (none, ← put s (operand.report .invalidExpression))
    | some symbol =>
      let s ← checkExcess body 2 s
      return (if s.includesCode then some symbol else none, s)

def runDefine : BodyHandler := fun body s => do
  match ← symbol? body s with
  | (none, s) => return s
  | (some symbol, s) => return { s with symbols := s.symbols.insert symbol }

def runUndef : BodyHandler := fun body s => do
  match ← symbol? body s with
  | (none, s) => return s
  | (some symbol, s) => return { s with symbols := s.symbols.erase symbol }

/-- The number of a `#line`, and the file after it. -/
def lineNumber (word argument : PositionedToken) : BodyHandler := fun body s => do
  match argument.token.plainNumber? with
  | none => put s (argument.report .invalidNumber)
  | some number =>
    let s := { s with position := s.position.setLine word.line number }
    match body[2]? with
    | none => return s
    | some file =>
      match file.token with
      | .string name | .verbatimString name =>
        let s := { s with position := { s.position with file? := some name } }
        putAny s .endOfLineExpected body[3]?
      | _ => put s (file.report .endOfLineExpected)

def runLine : BodyHandler := fun body s => do
  if !s.includesCode then return s
  else
    let word ← item body 0
    match body[1]? with
    | none => put s (word.reportAfter .invalidNumber)
    | some argument =>
      match argument.token with
      | .keyword "default" =>
        return { ← putAny s .endOfLineExpected body[2]? with position := {} }
      | .directive .hidden =>
        let s ← putAny s .endOfLineExpected body[2]?
        return { s with position := { s.position with hidden := true } }
      | _ => lineNumber word argument body s

def runRegion : BodyHandler := fun _ s => return s

def messageOf (word : PositionedToken) : String := DirectiveLine.message ⟨word, []⟩

def runError : BodyHandler := fun body s => do
  if s.includesCode then
    let word ← item body 0
    put s (word.report (.userError (messageOf word)))
  else return s

def policyCode (line : Nat) (action : WarningAction) (code : PositionedToken)
    (s : PreprocessState) : Checked PreprocessState :=
  match code.token.plainNumber? with
  | some number => .ok (s.applyPolicy line (some number) action)
  | none => put s (code.report .invalidNumber)

/-- The codes from an index on. -/
def policyCodes (line : Nat) (action : WarningAction) (body : List PositionedToken) (n : Nat)
    (s : PreprocessState) : Checked PreprocessState := do
  if n < body.length then
    let code ← item body n
    let s ← policyCode line action code s
    match body[n + 1]? with
    | none => return s
    | some separator =>
      if separator.token.isOperator .comma then policyCodes line action body (n + 2) s
      else put s (separator.report .endOfLineExpectedWarning)
  else return s
termination_by body.length - n

/-- The token after `#pragma` is taken without a look at whether there is one. -/
def runPolicy : BodyHandler := fun body s => do
  let warning ← item body 1
  match body[2]? with
  | none => put s (warning.reportAfter .expectedDisableOrRestore)
  | some action =>
    let act (a : WarningAction) : Checked PreprocessState := do
      let word ← item body 0
      if body.length = 3 then return s.applyPolicy word.line none a
      else policyCodes word.line a body 3 s
    match action.token.directive? with
    | some .disable => act .disable
    | some .restore => act .restore
    | _ => put s (action.report .expectedDisableOrRestore)

def runWarning : BodyHandler := fun body s => do
  if !s.includesCode then return s
  else
    let word ← item body 0
    if word.token.directive? = some .pragma then runPolicy body s
    else put s (word.report (.userWarning (messageOf word)))

def runChecksum : BodyHandler := fun body s => do
  if s.includesCode then
    let word ← item body 0
    if word.token.directive? = some .pragma then return s
    else put s (word.report .directiveExpected)
  else return s

def runPragma : BodyHandler := fun body s => do
  if !s.includesCode then return s
  else
    match body[1]? with
    | none =>
      let word ← item body 0
      put s (word.report .unrecognizedPragma)
    | some kind =>
      match kind.token.directive? with
      | some .warning => runWarning body s
      | some .checksum => runChecksum body s
      | _ => put s (kind.report .unrecognizedPragma)

def table : Directive → Option BodyHandler
  | .ifWord => some runIf
  | .elif => some runElif
  | .elseWord => some runElse
  | .endif => some runEndif
  | .define => some runDefine
  | .undef => some runUndef
  | .region | .endregion => some runRegion
  | .line => some runLine
  | .pragma => some runPragma
  | .checksum => some runChecksum
  | .warning => some runWarning
  | .error => some runError
  | .disable | .restore | .hidden => none

def dispatch (hash : PositionedToken) : BodyHandler := fun body s => do
  match body with
  | [] => put s ⟨.directiveExpected, hash.line, hash.column, 1⟩
  | word :: _ =>
    match word.token.directive?.bind table with
    | some handler => handler body s
    | none => put s (word.report .directiveExpected)

/-! ## None of them overruns its body -/

/-- The tokens of the line fit. -/
structure Fitting (d : DirectiveLine) : Prop where
  word : d.word.Fits
  operands : ∀ t ∈ d.operands, t.Fits

variable {d : DirectiveLine} {s : PreprocessState}

theorem Fitting.operand (h : Fitting d) {n : Nat} {t : PositionedToken}
    (isOperand : d.operands[n]? = some t) : t.Fits :=
  h.operands t (List.mem_of_getElem? isOperand)

theorem Fitting.checkExcess_eq (h : Fitting d) (n : Nat) (s : PreprocessState) :
    checkExcess (d.word :: d.operands) (n + 1) s = .ok (s.checkExcess d.operands n) := by
  rw [checkExcess, List.getElem?_cons_succ]
  exact putAny_eq s _ fun t isOperand => h.operand isOperand

theorem Fitting.condition_eq (h : Fitting d) (s : PreprocessState) :
    condition (d.word :: d.operands) s = .ok (s.evaluate d.operands d.word) := by
  have fits : ∀ r ∈ (Condition.evaluate s.symbols.contains d.operands d.word).2, r.Fits := by
    intro r isReport
    refine fits_of_pointsAt ?_ (Condition.evaluate_pointsAt _ _ _ r isReport)
    intro t isToken
    rcases List.mem_cons.mp isToken with rfl | isOperand
    · exact h.word
    · exact h.operands t isOperand
  simp only [condition, itemsFrom_cons_one, item_cons_zero, ok_bind, evaluate_eq,
    putAll_eq s fits, pure_eq_ok]
  rfl

theorem Fitting.runIf_eq (h : Fitting d) (s : PreprocessState) :
    runIf (d.word :: d.operands) s = .ok (d.runIf s) := by
  simp only [runIf, h.condition_eq, ok_bind]
  rfl

theorem Fitting.runElif_eq (h : Fitting d) (s : PreprocessState) :
    runElif (d.word :: d.operands) s = .ok (d.runElif s) := by
  simp only [runElif, DirectiveLine.runElif, h.condition_eq, ok_bind, item_cons_zero,
    put_eq _ (h.word.report _)]
  split <;> rfl

theorem Fitting.runElse_eq (h : Fitting d) (s : PreprocessState) :
    runElse (d.word :: d.operands) s = .ok (d.runElse s) := by
  simp only [runElse, DirectiveLine.runElse, h.checkExcess_eq 0, ok_bind, item_cons_zero,
    put_eq _ (h.word.report _)]
  split <;> rfl

theorem Fitting.runEndif_eq (h : Fitting d) (s : PreprocessState) :
    runEndif (d.word :: d.operands) s = .ok (d.runEndif s) := by
  simp only [runEndif, DirectiveLine.runEndif, h.checkExcess_eq 0, ok_bind, item_cons_zero,
    put_eq _ (h.word.report _)]
  split <;> rfl

theorem Fitting.symbol?_eq (h : Fitting d) (s : PreprocessState) :
    symbol? (d.word :: d.operands) s = .ok (d.symbol? s) := by
  unfold symbol? DirectiveLine.symbol?
  cases operands : d.operands with
  | nil =>
    simp only [List.getElem?_cons_succ, List.getElem?_nil, item_cons_zero, ok_bind,
      put_eq _ (h.word.reportAfter _), pure_eq_ok]
  | cons operand more =>
    have fits : operand.Fits := h.operands operand (operands ▸ List.mem_cons_self)
    have excess := h.checkExcess_eq 1 s
    rw [operands] at excess
    simp only [List.getElem?_cons_succ, List.getElem?_cons_zero]
    cases operand.token.word? with
    | none => simp only [put_eq _ (fits.report _), ok_bind, pure_eq_ok]
    | some symbol => simp only [excess, ok_bind, pure_eq_ok]

theorem Fitting.runDefine_eq (h : Fitting d) (s : PreprocessState) :
    runDefine (d.word :: d.operands) s = .ok (d.runDefine s) := by
  simp only [runDefine, DirectiveLine.runDefine, h.symbol?_eq, ok_bind]
  obtain ⟨symbol | symbol, s⟩ := d.symbol? s <;> rfl

theorem Fitting.runUndef_eq (h : Fitting d) (s : PreprocessState) :
    runUndef (d.word :: d.operands) s = .ok (d.runUndef s) := by
  simp only [runUndef, DirectiveLine.runUndef, h.symbol?_eq, ok_bind]
  obtain ⟨symbol | symbol, s⟩ := d.symbol? s <;> rfl

theorem putAny_head?_eq {tokens : List PositionedToken} (fits : ∀ t ∈ tokens, t.Fits)
    (s : PreprocessState) (kind : DiagnosticKind) :
    putAny s kind tokens[0]? = .ok (s.reportAny kind tokens.head?) := by
  rw [← List.head?_eq_getElem?]
  exact putAny_eq s kind fun t isHead => fits t (List.mem_of_mem_head? isHead)

theorem lineNumber_eq {word argument : PositionedToken} {more : List PositionedToken}
    (fits : ∀ t ∈ argument :: more, t.Fits) (s : PreprocessState) :
    lineNumber word argument (word :: argument :: more) s =
      .ok (match argument.token.plainNumber? with
        | none => s.report (argument.report .invalidNumber)
        | some number =>
          DirectiveLine.lineFile more
            { s with position := s.position.setLine word.line number }) := by
  unfold lineNumber
  cases argument.token.plainNumber? with
  | none => exact put_eq s ((fits argument List.mem_cons_self).report _)
  | some number =>
    cases more with
    | nil => rfl
    | cons file more =>
      have fileFits : file.Fits := fits file (by simp)
      have moreFits : ∀ t ∈ more, t.Fits := fun t isMore => fits t (by simp [isMore])
      simp only [List.getElem?_cons_succ, List.getElem?_cons_zero, DirectiveLine.lineFile,
        putAny_head?_eq moreFits, put_eq _ (fileFits.report _)]
      cases file.token <;> rfl

theorem Fitting.runLine_eq (h : Fitting d) (s : PreprocessState) :
    runLine (d.word :: d.operands) s = .ok (d.runLine s) := by
  unfold runLine DirectiveLine.runLine
  cases s.includesCode with
  | false => rfl
  | true =>
    simp only [Bool.not_true, Bool.false_eq_true, if_false, item_cons_zero, ok_bind]
    cases operands : d.operands with
    | nil => exact put_eq s (h.word.reportAfter _)
    | cons argument more =>
      have fits : ∀ t ∈ argument :: more, t.Fits := operands ▸ h.operands
      have moreFits : ∀ t ∈ more, t.Fits := fun t isMore => fits t (List.mem_cons_of_mem _ isMore)
      have isNumber := @lineNumber_eq d.word argument more fits s
      simp only [List.getElem?_cons_succ, List.getElem?_cons_zero, putAny_head?_eq moreFits,
        ok_bind]
      generalize argument.token = token at isNumber ⊢
      by_cases isDefault : token = .keyword "default"
      · subst isDefault
        rfl
      by_cases isHidden : token = .directive .hidden
      · subst isHidden
        rfl
      -- With neither word there, both sides go on to the number.
      simp only
      exact isNumber

theorem Fitting.runError_eq (h : Fitting d) (s : PreprocessState) :
    runError (d.word :: d.operands) s = .ok (d.runError s) := by
  simp only [runError, DirectiveLine.runError, item_cons_zero, ok_bind,
    put_eq s (h.word.report _)]
  split <;> rfl

theorem policyCodes_eq (line : Nat) (action : WarningAction) :
    ∀ (codes before : List PositionedToken) (s : PreprocessState), (∀ t ∈ codes, t.Fits) →
      policyCodes line action (before ++ codes) before.length s =
        .ok (DirectiveLine.policyCodes line action codes s)
  | [], before, s, _ => by
    rw [policyCodes, if_neg (by simp)]
    rfl
  | code :: rest, before, s, fits => by
    have isCode : (before ++ code :: rest)[before.length]? = some code := by simp
    have codeFits : code.Fits := fits code List.mem_cons_self
    rw [policyCodes, if_pos (by simp), item_of_getElem? isCode, DirectiveLine.policyCodes.eq_def]
    have acted : policyCode line action code s =
        .ok (match code.token.plainNumber? with
          | some number => s.applyPolicy line (some number) action
          | none => s.report (code.report .invalidNumber)) := by
      unfold policyCode
      cases code.token.plainNumber? with
      | none => exact put_eq s (codeFits.report _)
      | some number => rfl
    simp only [ok_bind, acted]
    cases rest with
    | nil =>
      have isLast : (before ++ [code])[before.length + 1]? = none := by simp
      simp only [isLast]
      rfl
    | cons separator rest =>
      have isSeparator : (before ++ code :: separator :: rest)[before.length + 1]? =
          some separator := by simp
      have separatorFits : separator.Fits := fits separator (by simp)
      have later := fun s => policyCodes_eq line action rest (before ++ [code, separator]) s
        fun t isRest => fits t (by simp [isRest])
      simp only [List.append_assoc, List.cons_append, List.nil_append, List.length_append,
        List.length_cons, List.length_nil, Nat.zero_add] at later
      simp only [isSeparator]
      split
      · exact later _
      · exact put_eq _ (separatorFits.report _)

theorem Fitting.runPolicy_eq (h : Fitting d) (s : PreprocessState) (hasKind : d.operands ≠ []) :
    runPolicy (d.word :: d.operands) s = .ok (d.runPolicy s) := by
  obtain ⟨word, operands⟩ := d
  unfold runPolicy DirectiveLine.runPolicy
  match operands with
  | [] => exact absurd rfl hasKind
  | [warning] => exact put_eq s ((h.operands warning List.mem_cons_self).reportAfter _)
  | warning :: action :: codes =>
    have actionFits : action.Fits := h.operands action (by simp)
    have codesFit : ∀ t ∈ codes, t.Fits := fun t isCode => h.operands t (by simp [isCode])
    have read := fun a => policyCodes_eq word.line a codes [word, warning, action] s codesFit
    have act : ∀ a, (if (word :: warning :: action :: codes).length = 3 then
          .ok (s.applyPolicy word.line none a)
        else policyCodes word.line a (word :: warning :: action :: codes) 3 s) =
        .ok (if codes.isEmpty then s.applyPolicy word.line none a
          else DirectiveLine.policyCodes word.line a codes s) := by
      intro a
      cases codes with
      | nil => rfl
      | cons code codes => exact read a
    simp only [item_cons_zero, item_cons_succ, ok_bind, List.getElem?_cons_succ,
      List.getElem?_cons_zero, pure_eq_ok, act]
    cases action.token.directive? with
    | none => exact put_eq s (actionFits.report _)
    | some a => cases a <;> first | rfl | exact put_eq s (actionFits.report _)

theorem Fitting.runWarning_eq (h : Fitting d) (s : PreprocessState)
    (hasKind : d.word.token.directive? = some .pragma → d.operands ≠ []) :
    runWarning (d.word :: d.operands) s = .ok (d.runWarning s) := by
  unfold runWarning DirectiveLine.runWarning
  cases s.includesCode with
  | false => rfl
  | true =>
    simp only [Bool.not_true, Bool.false_eq_true, if_false, item_cons_zero, ok_bind]
    split
    · next isPragma => exact h.runPolicy_eq s (hasKind isPragma)
    · exact put_eq s (h.word.report _)

theorem Fitting.runChecksum_eq (h : Fitting d) (s : PreprocessState) :
    runChecksum (d.word :: d.operands) s = .ok (d.runChecksum s) := by
  unfold runChecksum DirectiveLine.runChecksum
  cases s.includesCode with
  | false => rfl
  | true =>
    by_cases isPragma : d.word.token.directive? = some .pragma
    · simp [isPragma]
    · simp [isPragma, put_eq s (h.word.report _)]

theorem Fitting.runPragma_eq (h : Fitting d) (s : PreprocessState) :
    runPragma (d.word :: d.operands) s = .ok (d.runPragma s) := by
  obtain ⟨word, operands⟩ := d
  unfold runPragma DirectiveLine.runPragma
  cases s.includesCode with
  | false => rfl
  | true =>
    simp only [Bool.not_true, Bool.false_eq_true, if_false, item_cons_zero, ok_bind]
    cases operands with
    | nil => exact put_eq s (h.word.report _)
    | cons kind more =>
      have kindFits : kind.Fits := h.operands kind List.mem_cons_self
      simp only [List.getElem?_cons_succ, List.getElem?_cons_zero]
      cases kind.token.directive? with
      | none => exact put_eq s (kindFits.report _)
      | some kindWord =>
        cases kindWord <;> first
          | exact h.runWarning_eq s fun _ => List.cons_ne_nil kind more
          | exact h.runChecksum_eq s
          | exact put_eq s (kindFits.report _)

theorem dispatch_eq {hash : PositionedToken} {body : List PositionedToken}
    (isHash : hash.Fits) (fits : ∀ t ∈ body, t.Fits) (s : PreprocessState) :
    dispatch hash body s = .ok (DirectiveTable.default.dispatch hash body s) := by
  cases body with
  | nil =>
    have column : hash.column < UInt32.size := Nat.lt_of_le_of_lt (Nat.le_add_right _ _) isHash.2
    exact put_eq s ⟨isHash.1, column, show 1 < UInt32.size by decide⟩
  | cons word operands =>
    have line : Fitting ⟨word, operands⟩ :=
      ⟨fits word List.mem_cons_self, fun t isOperand => fits t (List.mem_cons_of_mem _ isOperand)⟩
    simp only [dispatch, DirectiveTable.dispatch]
    cases isWord : word.token.directive? with
    | none => exact put_eq s (line.word.report _)
    | some d =>
      cases d with
      | ifWord => exact line.runIf_eq s
      | elif => exact line.runElif_eq s
      | elseWord => exact line.runElse_eq s
      | endif => exact line.runEndif_eq s
      | define => exact line.runDefine_eq s
      | undef => exact line.runUndef_eq s
      | region => rfl
      | endregion => rfl
      | pragma => exact line.runPragma_eq s
      | warning =>
        refine line.runWarning_eq s fun isPragma => ?_
        rw [isWord] at isPragma
        cases isPragma
      | error => exact line.runError_eq s
      | line => exact line.runLine_eq s
      | checksum => exact line.runChecksum_eq s
      | disable => exact put_eq s (line.word.report _)
      | restore => exact put_eq s (line.word.report _)
      | hidden => exact put_eq s (line.word.report _)

end SharpFront.Checked
