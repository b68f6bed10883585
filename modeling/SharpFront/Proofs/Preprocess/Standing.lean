import SharpFront.Preprocess.Run
import SharpFront.Proofs.Diagnostic.Sink

/-!
# Preprocessing without its reports

A standing is a preprocessing state less its diagnostics: the settings, the open conditions, and
what directives act on. `Standing.step` says what each item does to it in one place, with no
reference to the handlers:

* `effect`, `directive_effects`: what a directive line outside the conditional ones does in included
  code;
* `standing_dispatch`: every handler of the default table acts on the standing as `directive` says;
* `standing_steps`: a whole run does, so no report ever feeds back into what survives.
-/

namespace SharpFront

/-- What directives leave behind: symbols, apparent position and entries of the warning policy. -/
structure Effects where
  symbols : SymbolSet
  position : ApparentPosition := {}
  entries : List PolicyEntry := []

/-- A preprocessing state apart from its diagnostics, whose policy entries are kept. -/
structure Standing where
  settings : Settings
  conditions : ConditionStack
  effects : Effects

def PreprocessState.effects (s : PreprocessState) : Effects :=
  ⟨s.symbols, s.position, s.diagnostics.policy.entries⟩

def PreprocessState.standing (s : PreprocessState) : Standing :=
  ⟨s.settings, s.conditions, s.effects⟩

/-- Blanks and comments are optional, other tokens are not. -/
def Settings.keeps (s : Settings) (t : Token) : Bool :=
  if t.isWhitespace then s.keepWhitespace
  else if t.isComment then s.keepComments
  else true

namespace DirectiveLine

/-! ## What directive lines mean -/

/-- The value of the condition on the line, whatever is wrong with it. -/
def holds (d : DirectiveLine) (symbols : SymbolSet) : Bool :=
  (Condition.evaluate symbols.contains d.operands d.word).1

/-- The word that the line is about, which is its first operand. -/
def subject? (d : DirectiveLine) : Option String := d.operands.head?.bind (·.token.word?)

/-- The file that stands first among the operands after the number of a `#line`. -/
def namedFile? : List PositionedToken → Option String
  | [] => none
  | file :: _ =>
    match file.token with
    | .string name | .verbatimString name => some name
    | _ => none

/-- The position from a `#line` on. -/
def moved (d : DirectiveLine) (p : ApparentPosition) : ApparentPosition :=
  match d.operands with
  | [] => p
  | argument :: more =>
    match argument.token with
    | .keyword "default" => {}
    | .directive .hidden => { p with hidden := true }
    | token =>
      match token.plainNumber? with
      | none => p
      | some number =>
        let p := p.setLine d.word.line number
        { p with file? := (namedFile? more).or p.file? }

/-- The entries for a list of codes: one for each number at an even place, up to the first separator
that is no comma. -/
def codeEntries (line : Nat) (action : WarningAction) : List PositionedToken → List PolicyEntry
  | [] => []
  | item :: rest =>
    let entry := item.token.plainNumber?.map fun code => ⟨line, some code, action⟩
    match rest with
    | [] => entry.toList
    | separator :: rest =>
      entry.toList ++ if separator.token.isOperator .comma then codeEntries line action rest else []

/-- The action that a word names. -/
def action? (t : Token) : Option WarningAction :=
  match t.directive? with
  | some .disable => some .disable
  | some .restore => some .restore
  | _ => none

/-- The entries that a `#pragma warning` appends. -/
def newEntries (d : DirectiveLine) : List PolicyEntry :=
  match d.operands with
  | kind :: action :: codes =>
    match kind.token.directive?, action? action.token with
    | some .warning, some action =>
      if codes.isEmpty then [⟨d.word.line, none, action⟩]
      else codeEntries d.word.line action codes
    | _, _ => []
  | _ => []

/-- What a line does in included code, when it is none of the conditional ones. -/
def effect (d : DirectiveLine) (e : Effects) : Effects :=
  match d.word.token.directive? with
  | some .define => { e with symbols := (d.subject?.map e.symbols.insert).getD e.symbols }
  | some .undef => { e with symbols := (d.subject?.map e.symbols.erase).getD e.symbols }
  | some .line => { e with position := d.moved e.position }
  | some .pragma => { e with entries := e.entries ++ d.newEntries }
  | _ => e

end DirectiveLine

namespace Standing

def includesCode (s : Standing) : Bool := s.conditions.includesCode

def update (s : Standing) (f : Effects → Effects) : Standing := { s with effects := f s.effects }

/-- Changes the effects in included code. -/
def apply (s : Standing) (f : Effects → Effects) : Standing :=
  if s.includesCode then s.update f else s

theorem apply_self (s : Standing) : (s.apply fun e => e) = s := by
  unfold apply
  split <;> rfl

/-- Only the conditional directives have an effect in excluded code. -/
def directive (s : Standing) (d : DirectiveLine) : Standing :=
  match d.word.token.directive? with
  | some .ifWord =>
    { s with conditions := s.conditions.push (.opened (d.holds s.effects.symbols)) }
  | some .elif =>
    if s.conditions.top?.any (!·.isFinal) then
      { s with conditions := s.conditions.modifyTop (·.branch (d.holds s.effects.symbols)) }
    else s
  | some .elseWord => { s with conditions := s.conditions.modifyTop (·.lastBranch) }
  | some .endif => { s with conditions := s.conditions.pop.1 }
  | _ => s.apply d.effect

/-- The conditional directives are without effect on the rest. -/
theorem directive_effects (s : Standing) (d : DirectiveLine) :
    (s.directive d).effects = if s.includesCode then d.effect s.effects else s.effects := by
  have applied : (s.apply d.effect).effects =
      if s.includesCode then d.effect s.effects else s.effects := by
    unfold apply
    split <;> rfl
  cases names : d.word.token.directive? with
  | none =>
    simp only [directive, names]
    exact applied
  | some w =>
    cases w with
    | ifWord | elseWord | endif => simp only [directive, DirectiveLine.effect, names, ite_self]
    | elif =>
      simp only [directive, DirectiveLine.effect, names, ite_self]
      split <;> rfl
    | _ =>
      simp only [directive, names]
      exact applied

def step (s : Standing) : SourceItem → Standing × Option PositionedToken
  | .directive _ _ [] => (s, none)
  | .directive _ _ (word :: operands) => (s.directive ⟨word, operands⟩, none)
  | .token t =>
    (s, if s.includesCode && s.settings.keeps t.token then some (s.effects.position.place t)
      else none)

def steps (s : Standing) : List SourceItem → Standing × List PositionedToken
  | [] => (s, [])
  | item :: items =>
    let (s, kept) := s.step item
    let (s, later) := s.steps items
    (s, kept.toList ++ later)

end Standing

/-! ## Reports do not touch the standing -/

namespace PreprocessState

theorem reportAny_eq (s : PreprocessState) (kind : DiagnosticKind) (t : Option PositionedToken) :
    s.reportAny kind t = s.reportAll (t.toList.map (·.report kind)) := by
  cases t <;> rfl

theorem standing_reportAll (s : PreprocessState) (rs : List Report) :
    (s.reportAll rs).standing = s.standing := by
  simp [reportAll, standing, effects]

@[simp] theorem standing_report (s : PreprocessState) (r : Report) :
    (s.report r).standing = s.standing := standing_reportAll s [r]

@[simp] theorem standing_checkExcess (s : PreprocessState) (tokens : List PositionedToken)
    (expected : Nat) : (s.checkExcess tokens expected).standing = s.standing := by
  rw [checkExcess, reportAny_eq, standing_reportAll]

theorem includesCode_eq (s : PreprocessState) : s.includesCode = s.standing.includesCode := rfl

end PreprocessState

/-! ## Handlers act on the standing -/

namespace DirectiveLine

open PreprocessState

theorem standing_symbol? (d : DirectiveLine) (s : PreprocessState) :
    (d.symbol? s).2.standing = s.standing ∧
    (d.symbol? s).1 = if s.standing.includesCode then d.subject? else none := by
  unfold symbol? subject?
  split
  · next h => simp [h]
  · next operand more h =>
    cases hw : operand.token.word? with
    | none => simp [h, hw]
    | some symbol => simp [h, hw, includesCode_eq]

theorem standing_evaluate (s : PreprocessState) (d : DirectiveLine) :
    (s.evaluate d.operands d.word).2.standing = s.standing ∧
    (s.evaluate d.operands d.word).1 = d.holds s.standing.effects.symbols :=
  ⟨standing_reportAll s _, rfl⟩

theorem standing_runIf (d : DirectiveLine) (s : PreprocessState) :
    (d.runIf s).standing = { s.standing with
      conditions := s.standing.conditions.push (.opened (d.holds s.standing.effects.symbols)) } := by
  obtain ⟨hs, hv⟩ := standing_evaluate s d
  rw [← hv]
  exact congrArg (fun t : Standing => { t with
    conditions := t.conditions.push (.opened (s.evaluate d.operands d.word).1) }) hs

theorem standing_runElif (d : DirectiveLine) (s : PreprocessState) :
    (d.runElif s).standing =
      if s.standing.conditions.top?.any (!·.isFinal) then { s.standing with
        conditions :=
          s.standing.conditions.modifyTop (·.branch (d.holds s.standing.effects.symbols)) }
      else s.standing := by
  obtain ⟨hs, hv⟩ := standing_evaluate s d
  have hc : (s.evaluate d.operands d.word).2.conditions = s.standing.conditions :=
    congrArg Standing.conditions hs
  unfold runElif
  simp only [hc, hv]
  split
  · exact congrArg (fun t : Standing => { t with
      conditions := s.standing.conditions.modifyTop (·.branch (d.holds s.effects.symbols)) }) hs
  · rw [standing_report, hs]

theorem standing_runElse (d : DirectiveLine) (s : PreprocessState) :
    (d.runElse s).standing =
      { s.standing with conditions := s.standing.conditions.modifyTop (·.lastBranch) } := by
  have hs := standing_checkExcess s d.operands 0
  have hm := congrArg (fun t : Standing => { t with
    conditions := t.conditions.modifyTop (·.lastBranch) }) hs
  unfold runElse
  simp only
  split
  · exact hm
  · rw [standing_report]
    exact hm

theorem standing_runEndif (d : DirectiveLine) (s : PreprocessState) :
    (d.runEndif s).standing =
      { s.standing with conditions := s.standing.conditions.pop.1 } := by
  have hs := standing_checkExcess s d.operands 0
  have hc : (s.checkExcess d.operands 0).conditions = s.standing.conditions :=
    congrArg Standing.conditions hs
  unfold runEndif
  simp only [hc]
  split
  · exact congrArg (fun t : Standing => { t with conditions := s.standing.conditions.pop.1 }) hs
  · next hn =>
    -- There was no level to take away.
    have hpop : s.standing.conditions.pop.1 = s.standing.conditions := by
      rcases h : s.standing.conditions with ⟨_ | ⟨l, levels⟩⟩
      · rfl
      · rw [h] at hn
        exact absurd rfl hn
    rw [standing_report, hs, hpop]

theorem standing_ofSymbol (f : SymbolSet → String → SymbolSet) (d : DirectiveLine)
    (s : PreprocessState) :
    (match d.symbol? s with
      | (none, s) => s
      | (some symbol, s) => { s with symbols := f s.symbols symbol }).standing =
    s.standing.apply fun e => { e with symbols := (d.subject?.map (f e.symbols)).getD e.symbols } := by
  obtain ⟨hs, hw⟩ := d.standing_symbol? s
  rcases hd : d.symbol? s with ⟨symbol?, t⟩
  rw [hd] at hs hw
  simp only at hs hw
  rw [hw, ← hs, Standing.apply]
  by_cases hc : t.standing.includesCode
  · cases d.subject? with
    | none => simp [hc, Standing.update]
    | some symbol => simp [hc]; rfl
  · simp [hc]

theorem standing_lineFile (operands : List PositionedToken) (s : PreprocessState) :
    (lineFile operands s).standing = s.standing.update fun e =>
      { e with position := { e.position with
        file? := (namedFile? operands).or e.position.file? } } := by
  cases operands with
  | nil => rfl
  | cons file more =>
    simp only [lineFile, namedFile?, reportAny_eq]
    cases file.token <;> simp [standing, effects, report, reportAll, Standing.update]

theorem standing_runLine (d : DirectiveLine) (s : PreprocessState) :
    (d.runLine s).standing =
      s.standing.apply fun e => { e with position := d.moved e.position } := by
  unfold runLine Standing.apply
  rw [includesCode_eq]
  by_cases hc : s.standing.includesCode
  · simp only [hc, Bool.not_true, Bool.false_eq_true, ↓reduceIte, moved, reportAny_eq]
    cases d.operands with
    | nil => exact standing_report s _
    | cons argument more =>
      by_cases isDefault : argument.token = .keyword "default"
      · simp only [isDefault]
        simp [standing, effects, reportAll, Standing.update]
      by_cases isHidden : argument.token = .directive .hidden
      · simp only [isHidden]
        simp [standing, effects, reportAll, Standing.update]
      simp only
      cases argument.token.plainNumber? with
      | none => exact standing_report s _
      | some number => exact standing_lineFile more _
  · simp [hc]

theorem standing_policyCodes (line : Nat) (action : WarningAction) :
    ∀ (codes : List PositionedToken) (s : PreprocessState),
      (policyCodes line action codes s).standing = s.standing.update fun e =>
        { e with entries := e.entries ++ codeEntries line action codes }
  | [], s => by simp [policyCodes, codeEntries, Standing.update]
  | [item], s => by
    simp only [policyCodes, codeEntries]
    cases item.token.plainNumber? with
    | none => simp [Standing.update]
    | some code => rfl
  | item :: separator :: rest, s => by
    have ih := standing_policyCodes line action rest
    simp only [policyCodes, codeEntries]
    cases item.token.plainNumber? with
    | none =>
      split
      · rw [ih, standing_report]; rfl
      · simp [Standing.update]
    | some code =>
      split
      · rw [ih]
        simp [standing, effects, Standing.update, applyPolicy, WarningPolicy.apply]
      · simp [standing, effects, Standing.update, applyPolicy, WarningPolicy.apply, report]

/-- Appends the entries of the codes, or one entry for every warning if there are none. -/
theorem standing_runPolicy (d : DirectiveLine) (s : PreprocessState)
    (hd : ∀ kind ∈ d.operands.head?, kind.token.directive? = some .warning) :
    (d.runPolicy s).standing =
      s.standing.update fun e => { e with entries := e.entries ++ d.newEntries } := by
  unfold runPolicy newEntries action?
  rcases ho : d.operands with _ | ⟨kind, _ | ⟨action, codes⟩⟩
  · simp [Standing.update]
  · simp [Standing.update]
  · have hk : kind.token.directive? = some .warning := hd kind (by simp [ho])
    have entries (a : WarningAction) :
        (if codes.isEmpty then s.applyPolicy d.word.line none a
          else policyCodes d.word.line a codes s).standing =
        s.standing.update fun e => { e with
          entries := e.entries ++ (if codes.isEmpty then [⟨d.word.line, none, a⟩]
            else codeEntries d.word.line a codes) } := by
      split
      · rfl
      · exact standing_policyCodes d.word.line a codes s
    simp only [hk]
    by_cases disables : action.token.directive? = some .disable
    · simp only [disables]
      exact entries .disable
    by_cases restores : action.token.directive? = some .restore
    · simp only [restores]
      exact entries .restore
    simp [Standing.update]

theorem newEntries_eq_nil {d : DirectiveLine}
    (h : ∀ kind ∈ d.operands.head?, kind.token.directive? ≠ some .warning) :
    d.newEntries = [] := by
  unfold newEntries
  split
  · next ho =>
    split
    · next hk _ => exact absurd hk (h _ (by simp [ho]))
    · rfl
  · rfl

theorem standing_runPragma (d : DirectiveLine) (s : PreprocessState)
    (hd : d.word.token.directive? = some .pragma) :
    (d.runPragma s).standing =
      s.standing.apply fun e => { e with entries := e.entries ++ d.newEntries } := by
  unfold runPragma Standing.apply
  rw [includesCode_eq]
  by_cases hc : s.standing.includesCode
  · simp only [hc, Bool.not_true, Bool.false_eq_true, ↓reduceIte]
    rcases ho : d.operands with _ | ⟨kind, more⟩
    · simp [newEntries, ho, Standing.update]
    · simp only
      split
      · next hk =>
        have hp := d.standing_runPolicy s (by simp [ho, hk])
        simpa [runWarning, includesCode_eq, hc, hd] using hp
      · next hk =>
        have hn := newEntries_eq_nil (d := d) (by simp [ho, hk])
        simp [runChecksum, hd, hn, Standing.update]
      · next hk _ =>
        have hn := newEntries_eq_nil (d := d) (by simpa [ho] using hk)
        simp [hn, Standing.update]
  · simp [hc]

end DirectiveLine

open PreprocessState DirectiveLine

/-- The default handlers do to the standing what its own description says. -/
theorem standing_dispatch (hash : PositionedToken) (d : DirectiveLine) (s : PreprocessState) :
    (DirectiveTable.default.dispatch hash (d.word :: d.operands) s).standing =
      s.standing.directive d := by
  simp only [DirectiveTable.dispatch, Standing.directive]
  have acts {f : Effects → Effects} (same : ∀ e, f e = d.effect e) :
      s.standing.apply f = s.standing.apply d.effect := congrArg s.standing.apply (funext same)
  have idle (same : ∀ e, e = d.effect e) : s.standing = s.standing.apply d.effect :=
    s.standing.apply_self.symm.trans (acts same)
  cases hd : d.word.token.directive? with
  | none => exact (standing_report s _).trans (idle fun e => by simp [effect, hd])
  | some w =>
    cases w with
    | ifWord => exact standing_runIf d s
    | elif => exact standing_runElif d s
    | elseWord => exact standing_runElse d s
    | endif => exact standing_runEndif d s
    | define =>
      exact (standing_ofSymbol (fun symbols => symbols.insert) d s).trans
        (acts fun e => by simp [effect, hd])
    | undef =>
      exact (standing_ofSymbol (fun symbols => symbols.erase) d s).trans
        (acts fun e => by simp [effect, hd])
    | line => exact (standing_runLine d s).trans (acts fun e => by simp [effect, hd])
    | pragma => exact (standing_runPragma d s hd).trans (acts fun e => by simp [effect, hd])
    | region | endregion => exact idle fun e => by simp [effect, hd]
    | checksum | warning | error =>
      refine .trans ?_ (idle fun e => by simp [effect, hd])
      simp only [Option.bind_some, DirectiveTable.default, runChecksum, runWarning, runError, hd]
      split <;> simp
    | disable | restore | hidden =>
      exact (standing_report s _).trans (idle fun e => by simp [effect, hd])

theorem standing_step (s : PreprocessState) (item : SourceItem) :
    (s.step .default item).1.standing = (s.standing.step item).1 ∧
    (s.step .default item).2 = (s.standing.step item).2 := by
  cases item with
  | token t => exact ⟨rfl, rfl⟩
  | directive hash leads body =>
    have hs : (if leads then s else s.report (hash.report .notFirstCharacter)).standing =
        s.standing := by
      split
      · rfl
      · exact standing_report s _
    refine ⟨?_, by cases body <;> rfl⟩
    cases body with
    | nil => exact (standing_report _ _).trans hs
    | cons word operands =>
      rw [Standing.step, ← hs]
      exact standing_dispatch hash ⟨word, operands⟩ _

theorem standing_steps (s : PreprocessState) (items : List SourceItem) :
    (s.steps .default items).1.standing = (s.standing.steps items).1 ∧
    (s.steps .default items).2 = (s.standing.steps items).2 := by
  induction items generalizing s with
  | nil => exact ⟨rfl, rfl⟩
  | cons item items ih =>
    obtain ⟨h₁, h₂⟩ := standing_step s item
    obtain ⟨i₁, i₂⟩ := ih (s.step .default item).1
    rw [h₁] at i₁ i₂
    exact ⟨i₁, by simp only [PreprocessState.steps, Standing.steps, h₂, i₂]⟩

theorem standing_finish (s : PreprocessState) (input : List PositionedToken) :
    (s.finish input).standing = s.standing := by
  unfold finish
  split
  · rfl
  · rw [reportAny_eq, standing_reportAll]

/-- A unit leaves the standing, and gives the tokens, of the steps over its items. -/
theorem standing_runUnit (s : PreprocessState) (input : List PositionedToken) :
    (s.runUnit .default input).1.standing =
      (s.standing.steps (SourceItem.ofTokens none input)).1 ∧
    (s.runUnit .default input).2 = (s.standing.steps (SourceItem.ofTokens none input)).2 := by
  obtain ⟨h₁, h₂⟩ := standing_steps s (SourceItem.ofTokens none input)
  exact ⟨(standing_finish _ _).trans h₁, h₂⟩

end SharpFront
