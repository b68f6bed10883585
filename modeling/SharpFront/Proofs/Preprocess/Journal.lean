import SharpFront.Output
import SharpFront.Proofs.Condition.Reports
import SharpFront.Proofs.Preprocess.Item
import SharpFront.Proofs.Preprocess.Nest

/-!
# What preprocessing tells its sink

The sink of a run hears reports and entries of the warning policy. What it hears, and in which
order, depends on the tokens and the standing alone, never on the sink.

* `Event`, `Diagnostics.hear`: what a sink can hear, and what it makes of it;
* `Standing.directiveEvents`, `Standing.events`, `journal`: what a directive line, an item and a
  whole unit have to say;
* `diagnostics_runUnit`: a run leaves its sink as if it had heard the journal;
* `journal_settled`: the lines of a journal never go back, and no entry follows a warning about its
  line.
-/

namespace SharpFront

inductive Event where
  | report (r : Report)
  /-- An item of a list of codes that is no code. -/
  | badCode (item : PositionedToken)
  | entry (e : PolicyEntry)

namespace Event

def line : Event → Nat
  | report r => r.line
  | badCode item => item.line
  | entry e => e.fromLine

/-- A warning, other than one about an item of a list of codes. -/
def IsWarning : Event → Prop
  | report r => r.kind.severity = .warning
  | _ => False

def IsEntry : Event → Prop
  | entry _ => True
  | _ => False

/-- What an event has a sink resolve. -/
def report? : Event → Option Report
  | report r => some r
  | badCode item => some (item.report .invalidNumber)
  | entry _ => none

theorem report?_eq_none_iff {e : Event} : e.report? = none ↔ e.IsEntry := by
  cases e <;> simp [report?, IsEntry]

theorem report?_lines_sublist (events : List Event) :
    ((events.filterMap report?).map (·.line)).Sublist (events.map line) := by
  induction events with
  | nil => exact .slnil
  | cons event events ih =>
    cases event with
    | report _ | badCode _ => exact ih.cons_cons _
    | entry _ => exact ih.cons _

/-- Lines do not go back, and an entry after a warning is about later lines. -/
structure Settles (a b : Event) : Prop where
  line_le : a.line ≤ b.line
  line_lt : a.IsWarning → b.IsEntry → a.line < b.line

theorem settles_of_lt {a b : Event} (h : a.line < b.line) : Settles a b :=
  ⟨Nat.le_of_lt h, fun _ _ => h⟩

end Event

namespace Diagnostics

def hear (s : Diagnostics) : Event → Diagnostics
  | .report r => s.report r
  | .badCode item => s.report (item.report .invalidNumber)
  | .entry e => { s with policy := s.policy.apply e.fromLine e.code? e.action }

def hearAll (s : Diagnostics) (events : List Event) : Diagnostics := events.foldl hear s

theorem hearAll_nil (s : Diagnostics) : s.hearAll [] = s := rfl

theorem hearAll_cons (s : Diagnostics) (e : Event) (events : List Event) :
    s.hearAll (e :: events) = (s.hear e).hearAll events := rfl

theorem hearAll_append (s : Diagnostics) (a b : List Event) :
    s.hearAll (a ++ b) = (s.hearAll a).hearAll b := List.foldl_append

theorem reportAll_eq_hearAll (s : Diagnostics) (rs : List Report) :
    s.reportAll rs = s.hearAll (rs.map .report) := by
  rw [hearAll, List.foldl_map]
  rfl

/-- The errors that a sink has at the end are those it had and those it heard of. -/
theorem mem_hearAll_iff (s : Diagnostics) {events : List Event} {d : Diagnostic}
    (isError : d.kind.severity = .error) :
    d ∈ (s.hearAll events).toList ↔
      d ∈ s.toList ∨ ∃ r, .report r ∈ events ∧ d = r.asError := by
  induction events generalizing s with
  | nil => simp [hearAll_nil]
  | cons event events ih =>
    have here : d ∈ (s.hear event).toList ↔
        d ∈ s.toList ∨ ∃ r, event = .report r ∧ d = r.asError := by
      cases event with
      | report r => simp [hear, s.mem_report_iff isError]
      | badCode item =>
        have notError : d ≠ (item.report .invalidNumber).asError := by
          rintro rfl
          cases isError
        simp [hear, s.mem_report_iff isError, notError]
      | entry e => simp [hear, toList]
    simp only [hearAll_cons, ih, here, List.mem_cons, or_and_right, exists_or, or_assoc, eq_comm]

/-- A sink only adds to what it has, and what it adds is left of the reports that it heard. -/
theorem exists_kept (s : Diagnostics) (events : List Event) :
    ∃ found, (s.hearAll events).toList = s.toList ++ found ∧
      AreKept (events.filterMap Event.report?) found := by
  induction events generalizing s with
  | nil => exact ⟨[], (List.append_nil _).symm, .nil⟩
  | cons event events ih =>
    obtain ⟨later, kept, areKept⟩ := ih (s.hear event)
    have here : ∃ found, (s.hear event).toList = s.toList ++ found ∧
        AreKept event.report?.toList found := by
      cases event with
      | report _ | badCode _ => exact ⟨_, s.report_toList _, .resolve? _ _⟩
      | entry e => exact ⟨[], (List.append_nil _).symm, .nil⟩
    obtain ⟨found, keptHere, areKeptHere⟩ := here
    refine ⟨found ++ later, ?_, ?_⟩
    · rw [hearAll_cons, kept, keptHere, List.append_assoc]
    · have split : (event :: events).filterMap Event.report? =
          event.report?.toList ++ events.filterMap Event.report? := by
        cases event <;> rfl
      exact split ▸ areKeptHere.append areKept

/-- What a sink adds keeps the lines that it heard of, in their order. -/
theorem exists_hearAll_sublist (s : Diagnostics) (events : List Event) :
    ∃ found, (s.hearAll events).toList = s.toList ++ found ∧
      (found.map (·.line)).Sublist (events.map Event.line) := by
  obtain ⟨found, kept, areKept⟩ := s.exists_kept events
  exact ⟨found, kept, areKept.lines_sublist.trans (Event.report?_lines_sublist events)⟩

/-- Each report is kept or counted once. -/
theorem heard_hearAll (s : Diagnostics) (events : List Event) :
    (s.hearAll events).heard = s.heard + (events.filterMap Event.report?).length := by
  induction events generalizing s with
  | nil => rfl
  | cons event events ih =>
    rw [hearAll_cons, ih]
    cases event with
    | report _ | badCode _ =>
      simp only [hear, heard_report, Event.report?, List.filterMap_cons, List.length_cons]
      omega
    | entry e => rfl

theorem exists_hearAll_toList (s : Diagnostics) (events : List Event) :
    ∃ found, (s.hearAll events).toList = s.toList ++ found ∧
      ∀ d ∈ found, ∃ e ∈ events, d.line = e.line := by
  obtain ⟨found, kept, lines⟩ := s.exists_hearAll_sublist events
  refine ⟨found, kept, ?_⟩
  intro d isFound
  obtain ⟨e, isEvent, same⟩ := List.mem_map.mp (lines.subset (List.mem_map_of_mem isFound))
  exact ⟨e, isEvent, same.symm⟩

end Diagnostics

/-! ## What directive lines report -/

namespace DirectiveLine

/-- The first of the tokens past the expected ones is out of place. -/
def excess (tokens : List PositionedToken) (expected : Nat) : List Report :=
  tokens[expected]?.toList.map (·.report .unexpectedDirective)

def conditionReports (d : DirectiveLine) (symbols : SymbolSet) : List Report :=
  (Condition.evaluate symbols.contains d.operands d.word).2

def symbolReports (d : DirectiveLine) : List Report :=
  match d.operands with
  | [] => [d.word.reportAfter .identifierExpected]
  | operand :: _ =>
    if operand.token.word?.isSome then excess d.operands 1 else [operand.report .invalidExpression]

/-- The tokens should have ended. -/
def leftover (tokens : List PositionedToken) : List Report :=
  tokens.head?.toList.map (·.report .endOfLineExpected)

/-- About what follows the number of a `#line`. -/
def fileReports : List PositionedToken → List Report
  | [] => []
  | file :: more =>
    match file.token with
    | .string _ | .verbatimString _ => leftover more
    | _ => [file.report .endOfLineExpected]

def lineReports (d : DirectiveLine) : List Report :=
  match d.operands with
  | [] => [d.word.reportAfter .invalidNumber]
  | argument :: more =>
    match argument.token with
    | .keyword "default" => leftover more
    | .directive .hidden => leftover more
    | token =>
      if token.plainNumber?.isSome then fileReports more else [argument.report .invalidNumber]

/-- What a list of codes says: an entry for each code, up to the first separator that is no comma. -/
def codeEvents (line : Nat) (action : WarningAction) : List PositionedToken → List Event
  | [] => []
  | item :: rest =>
    let first := match item.token.plainNumber? with
      | some code => .entry ⟨line, some code, action⟩
      | none => .badCode item
    first :: match rest with
      | [] => []
      | separator :: rest =>
        if separator.token.isOperator .comma then codeEvents line action rest
        else [.report (separator.report .endOfLineExpectedWarning)]

/-- What follows the word of a `#pragma warning`. -/
def policyEvents (line : Nat) (kind : PositionedToken) : List PositionedToken → List Event
  | [] => [.report (kind.reportAfter .expectedDisableOrRestore)]
  | action :: codes =>
    match action? action.token with
    | some a => if codes.isEmpty then [.entry ⟨line, none, a⟩] else codeEvents line a codes
    | none => [.report (action.report .expectedDisableOrRestore)]

def pragmaEvents (d : DirectiveLine) : List Event :=
  match d.operands with
  | [] => [.report (d.word.report .unrecognizedPragma)]
  | kind :: rest =>
    match kind.token.directive? with
    | some .warning => policyEvents d.word.line kind rest
    | some .checksum => []
    | _ => [.report (kind.report .unrecognizedPragma)]

end DirectiveLine

namespace Standing

/-- The level is open to further branches. -/
def continues (s : Standing) : Bool := s.conditions.top?.any (!·.isFinal)

/-- What a directive line other than a `#pragma` reports. -/
def reports (s : Standing) (d : DirectiveLine) : List Report :=
  let misplaced := [d.word.report .unexpectedDirective]
  match d.word.token.directive? with
  | some .ifWord => d.conditionReports s.effects.symbols
  | some .elif => d.conditionReports s.effects.symbols ++ if s.continues then [] else misplaced
  | some .elseWord => DirectiveLine.excess d.operands 0 ++ if s.continues then [] else misplaced
  | some .endif =>
    DirectiveLine.excess d.operands 0 ++ if s.conditions.isEmpty then misplaced else []
  | some .define | some .undef => d.symbolReports
  | some .line => if s.includesCode then d.lineReports else []
  | some .checksum => if s.includesCode then [d.word.report .directiveExpected] else []
  | some .warning => if s.includesCode then [d.word.report (.userWarning d.message)] else []
  | some .error => if s.includesCode then [d.word.report (.userError d.message)] else []
  | some .region | some .endregion | some .pragma => []
  | some .disable | some .restore | some .hidden | none => [d.word.report .directiveExpected]

def directiveEvents (s : Standing) (d : DirectiveLine) : List Event :=
  if d.word.token.directive? = some .pragma then
    if s.includesCode then d.pragmaEvents else []
  else (s.reports d).map .report

def bodyEvents (s : Standing) (hash : PositionedToken) : List PositionedToken → List Event
  | [] => [.report ⟨.directiveExpected, hash.line, hash.column, 1⟩]
  | word :: operands => s.directiveEvents ⟨word, operands⟩

def events (s : Standing) : SourceItem → List Event
  | .token _ => []
  | .directive hash leads body =>
    (if leads then [] else [.report (hash.report .notFirstCharacter)]) ++ s.bodyEvents hash body

def journal (s : Standing) : List SourceItem → List Event
  | [] => []
  | item :: items => s.events item ++ (s.step item).1.journal items

/-- What the end of a unit reports, whose last token stands at the end of the input. -/
def closing (s : Standing) (input : List PositionedToken) : List Event :=
  if s.conditions.isEmpty then []
  else input.getLast?.toList.map fun t => .report (t.report .endifExpected)

/-- Everything that a unit has to say. -/
def unitJournal (s : Standing) (input : List PositionedToken) : List Event :=
  let items := SourceItem.ofTokens none input
  s.journal items ++ (s.steps items).1.closing input

end Standing

theorem Standing.journal_append (s : Standing) (a b : List SourceItem) :
    s.journal (a ++ b) = s.journal a ++ (s.steps a).1.journal b := by
  induction a generalizing s with
  | nil => rfl
  | cons item a ih => simp only [List.cons_append, journal, steps, ih, List.append_assoc]

/-- Besides what its body has to say, a directive line reports a `#` that does not lead it. -/
theorem Standing.mem_events_directive {s : Standing} {hash : PositionedToken} {leads : Bool}
    {body : List PositionedToken} {e : Event} :
    e ∈ s.events (.directive hash leads body) ↔
      leads = false ∧ e = .report (hash.report .notFirstCharacter) ∨ e ∈ s.bodyEvents hash body := by
  cases leads <;> simp [events]

/-- A journal says what the items have to say. -/
theorem Standing.exists_of_mem_journal {items : List SourceItem} {e : Event} (s : Standing)
    (h : e ∈ s.journal items) : ∃ item ∈ items, ∃ t : Standing, e ∈ t.events item := by
  induction items generalizing s with
  | nil => cases h
  | cons item items ih =>
    rcases List.mem_append.mp h with isHere | isLater
    · exact ⟨item, List.mem_cons_self, s, isHere⟩
    · obtain ⟨other, isItem, found⟩ := ih _ isLater
      exact ⟨other, List.mem_cons_of_mem _ isItem, found⟩

/-- What preprocessing tokens by the settings has to say. -/
def journal (settings : Settings) (tokens : List PositionedToken) : List Event :=
  (PreprocessState.ofSettings settings).standing.unitJournal tokens

/-! ## The sink hears the journal -/

namespace PreprocessState

theorem diagnostics_reportAll (s : PreprocessState) (rs : List Report) :
    (s.reportAll rs).diagnostics = s.diagnostics.hearAll (rs.map .report) :=
  s.diagnostics.reportAll_eq_hearAll rs

theorem diagnostics_reportAny (s : PreprocessState) (kind : DiagnosticKind)
    (t : Option PositionedToken) :
    (s.reportAny kind t).diagnostics =
      s.diagnostics.hearAll ((t.toList.map (·.report kind)).map .report) := by
  rw [reportAny_eq, diagnostics_reportAll]

theorem diagnostics_checkExcess (s : PreprocessState) (tokens : List PositionedToken)
    (expected : Nat) :
    (s.checkExcess tokens expected).diagnostics =
      s.diagnostics.hearAll ((DirectiveLine.excess tokens expected).map .report) :=
  s.diagnostics_reportAny _ _

end PreprocessState

namespace DirectiveLine

open PreprocessState

theorem diagnostics_runIf (d : DirectiveLine) (s : PreprocessState) :
    (d.runIf s).diagnostics =
      s.diagnostics.hearAll ((d.conditionReports s.standing.effects.symbols).map .report) :=
  s.diagnostics_reportAll _

theorem diagnostics_runElif (d : DirectiveLine) (s : PreprocessState) :
    (d.runElif s).diagnostics =
      s.diagnostics.hearAll ((d.conditionReports s.standing.effects.symbols ++
        if s.standing.continues then [] else [d.word.report .unexpectedDirective]).map .report) := by
  have told := s.diagnostics_reportAll (d.conditionReports s.standing.effects.symbols)
  rw [List.map_append, Diagnostics.hearAll_append, ← told]
  unfold runElif
  have same : (s.evaluate d.operands d.word).2.conditions.top?.any (!·.isFinal) =
      s.standing.continues := rfl
  simp only [same]
  split <;> rfl

theorem diagnostics_runElse (d : DirectiveLine) (s : PreprocessState) :
    (d.runElse s).diagnostics =
      s.diagnostics.hearAll ((excess d.operands 0 ++
        if s.standing.continues then [] else [d.word.report .unexpectedDirective]).map .report) := by
  have told := s.diagnostics_checkExcess d.operands 0
  have same : (s.checkExcess d.operands 0).conditions.top?.any (!·.isFinal) =
      s.standing.continues :=
    congrArg Standing.continues (standing_checkExcess s d.operands 0)
  rw [List.map_append, Diagnostics.hearAll_append, ← told]
  unfold runElse
  simp only [same]
  split <;> rfl

theorem diagnostics_runEndif (d : DirectiveLine) (s : PreprocessState) :
    (d.runEndif s).diagnostics =
      s.diagnostics.hearAll ((excess d.operands 0 ++
        if s.standing.conditions.isEmpty then [d.word.report .unexpectedDirective]
        else []).map .report) := by
  have told := s.diagnostics_checkExcess d.operands 0
  have same : (s.checkExcess d.operands 0).conditions = s.standing.conditions :=
    congrArg Standing.conditions (standing_checkExcess s d.operands 0)
  rw [List.map_append, Diagnostics.hearAll_append, ← told]
  unfold runEndif
  simp only [same]
  rcases s.standing.conditions with ⟨_ | ⟨level, outer⟩⟩ <;> rfl

theorem diagnostics_symbol? (d : DirectiveLine) (s : PreprocessState) :
    (d.symbol? s).2.diagnostics = s.diagnostics.hearAll (d.symbolReports.map .report) := by
  unfold symbol? symbolReports
  cases d.operands with
  | nil => rfl
  | cons operand more =>
    cases isWord : operand.token.word? with
    | none => simp only [isWord, Option.isSome_none]; rfl
    | some symbol =>
      simp only [isWord, Option.isSome_some, if_true]
      exact s.diagnostics_checkExcess _ 1

theorem diagnostics_ofSymbol (f : SymbolSet → String → SymbolSet) (d : DirectiveLine)
    (s : PreprocessState) :
    (match d.symbol? s with
      | (none, s) => s
      | (some symbol, s) => { s with symbols := f s.symbols symbol }).diagnostics =
    s.diagnostics.hearAll (d.symbolReports.map .report) := by
  rw [← d.diagnostics_symbol? s]
  rcases d.symbol? s with ⟨_ | symbol, t⟩ <;> rfl

theorem diagnostics_lineFile (operands : List PositionedToken) (s : PreprocessState) :
    (lineFile operands s).diagnostics =
      s.diagnostics.hearAll ((fileReports operands).map .report) := by
  cases operands with
  | nil => rfl
  | cons file more =>
    have ended : ∀ s' : PreprocessState,
        (s'.reportAny .endOfLineExpected more.head?).diagnostics =
          s'.diagnostics.hearAll ((leftover more).map .report) :=
      fun s' => s'.diagnostics_reportAny _ _
    simp only [lineFile, fileReports]
    cases file.token with
    | string name => exact ended _
    | verbatimString name => exact ended _
    | _ => rfl

theorem diagnostics_runLine (d : DirectiveLine) (s : PreprocessState) :
    (d.runLine s).diagnostics =
      s.diagnostics.hearAll ((if s.standing.includesCode then d.lineReports else []).map .report) := by
  by_cases included : s.standing.includesCode = true
  case neg =>
    rw [if_neg included, runLine, includesCode_eq, Bool.eq_false_iff.mpr included]
    rfl
  unfold runLine lineReports
  rw [includesCode_eq, if_pos included, included]
  simp only [Bool.not_true, Bool.false_eq_true, if_false]
  cases d.operands with
  | nil => rfl
  | cons argument more =>
    have ended := s.diagnostics_reportAny .endOfLineExpected more.head?
    by_cases isDefault : argument.token = .keyword "default"
    · simp only [isDefault]
      exact ended
    by_cases isHidden : argument.token = .directive .hidden
    · simp only [isHidden]
      exact ended
    simp only
    cases argument.token.plainNumber? with
    | none => rfl
    | some number => exact diagnostics_lineFile more _

theorem diagnostics_runError (d : DirectiveLine) (s : PreprocessState) :
    (d.runError s).diagnostics = s.diagnostics.hearAll
      ((if s.standing.includesCode then [d.word.report (.userError d.message)]
        else []).map .report) := by
  unfold runError
  rw [includesCode_eq]
  cases s.standing.includesCode <;> rfl

theorem diagnostics_runWarning (d : DirectiveLine) (s : PreprocessState)
    (h : d.word.token.directive? ≠ some .pragma) :
    (d.runWarning s).diagnostics = s.diagnostics.hearAll
      ((if s.standing.includesCode then [d.word.report (.userWarning d.message)]
        else []).map .report) := by
  unfold runWarning
  rw [includesCode_eq, if_neg h]
  cases s.standing.includesCode <;> rfl

theorem diagnostics_runChecksum (d : DirectiveLine) (s : PreprocessState)
    (h : d.word.token.directive? ≠ some .pragma) :
    (d.runChecksum s).diagnostics = s.diagnostics.hearAll
      ((if s.standing.includesCode then [d.word.report .directiveExpected]
        else []).map .report) := by
  unfold runChecksum
  rw [includesCode_eq, bne_iff_ne.mpr h]
  cases s.standing.includesCode <;> rfl

theorem diagnostics_policyCodes (line : Nat) (action : WarningAction) :
    ∀ (codes : List PositionedToken) (s : PreprocessState),
      (policyCodes line action codes s).diagnostics =
        s.diagnostics.hearAll (codeEvents line action codes)
  | [], s => rfl
  | [item], s => by
    simp only [policyCodes, codeEvents]
    cases item.token.plainNumber? <;> rfl
  | item :: separator :: rest, s => by
    have later := diagnostics_policyCodes line action rest
    simp only [policyCodes, codeEvents]
    cases item.token.plainNumber? with
    | none =>
      split
      · exact later _
      · rfl
    | some code =>
      split
      · exact later _
      · rfl

theorem diagnostics_runPolicy (d : DirectiveLine) (s : PreprocessState) {kind : PositionedToken}
    {rest : List PositionedToken} (h : d.operands = kind :: rest) :
    (d.runPolicy s).diagnostics =
      s.diagnostics.hearAll (policyEvents d.word.line kind rest) := by
  unfold runPolicy policyEvents action?
  rw [h]
  cases rest with
  | nil => rfl
  | cons action codes =>
    cases names : action.token.directive? with
    | none =>
      simp only [names]
      rfl
    | some w =>
      cases w with
      | disable | restore =>
        simp only [names]
        split
        · rfl
        · exact diagnostics_policyCodes _ _ codes s
      | _ =>
        simp only [names]
        rfl

theorem diagnostics_runPragma (d : DirectiveLine) (s : PreprocessState)
    (isPragma : d.word.token.directive? = some .pragma) :
    (d.runPragma s).diagnostics =
      s.diagnostics.hearAll (if s.standing.includesCode then d.pragmaEvents else []) := by
  unfold runPragma pragmaEvents
  rw [includesCode_eq]
  cases included : s.standing.includesCode with
  | false => rfl
  | true =>
    simp only [Bool.not_true, Bool.false_eq_true, if_false, if_true]
    cases operands : d.operands with
    | nil => rfl
    | cons kind rest =>
      cases names : kind.token.directive? with
      | none =>
        simp only [names]
        rfl
      | some w =>
        cases w with
        | warning =>
          have told := d.diagnostics_runPolicy s operands
          simp only [names, runWarning, includesCode_eq, included, isPragma, Bool.not_true,
            Bool.false_eq_true, if_false, if_true]
          exact told
        | checksum =>
          simp only [names, runChecksum, isPragma, bne_self_eq_false, Bool.and_false,
            Bool.false_eq_true, if_false]
          rfl
        | _ =>
          simp only [names]
          rfl

end DirectiveLine

open PreprocessState DirectiveLine

/-- The default handlers tell the sink what the standing has to say, whatever the sink. -/
theorem diagnostics_dispatch (hash : PositionedToken) (body : List PositionedToken)
    (s : PreprocessState) :
    (DirectiveTable.default.dispatch hash body s).diagnostics =
      s.diagnostics.hearAll (s.standing.bodyEvents hash body) := by
  cases body with
  | nil => rfl
  | cons word operands =>
    simp only [DirectiveTable.dispatch, Standing.bodyEvents, Standing.directiveEvents,
      Standing.reports]
    cases names : word.token.directive? with
    | none => rfl
    | some w =>
      cases w with
      | ifWord => exact diagnostics_runIf ⟨word, operands⟩ s
      | elif => exact diagnostics_runElif ⟨word, operands⟩ s
      | elseWord => exact diagnostics_runElse ⟨word, operands⟩ s
      | endif => exact diagnostics_runEndif ⟨word, operands⟩ s
      | define =>
        exact diagnostics_ofSymbol (fun symbols => symbols.insert) ⟨word, operands⟩ s
      | undef =>
        exact diagnostics_ofSymbol (fun symbols => symbols.erase) ⟨word, operands⟩ s
      | line => exact diagnostics_runLine ⟨word, operands⟩ s
      | pragma => exact diagnostics_runPragma ⟨word, operands⟩ s names
      | region | endregion => rfl
      | checksum => exact diagnostics_runChecksum ⟨word, operands⟩ s (by simp [names])
      | warning => exact diagnostics_runWarning ⟨word, operands⟩ s (by simp [names])
      | error => exact diagnostics_runError ⟨word, operands⟩ s
      | disable | restore | hidden => rfl

theorem diagnostics_step (s : PreprocessState) (item : SourceItem) :
    (s.step .default item).1.diagnostics = s.diagnostics.hearAll (s.standing.events item) := by
  cases item with
  | token t => rfl
  | directive hash leads body =>
    cases leads with
    | true => exact diagnostics_dispatch hash body s
    | false =>
      have first := standing_report s (hash.report .notFirstCharacter)
      have told := diagnostics_dispatch hash body (s.report (hash.report .notFirstCharacter))
      rw [first] at told
      exact told

theorem diagnostics_steps (s : PreprocessState) (items : List SourceItem) :
    (s.steps .default items).1.diagnostics = s.diagnostics.hearAll (s.standing.journal items) := by
  induction items generalizing s with
  | nil => rfl
  | cons item items ih =>
    have later := ih (s.step .default item).1
    rw [diagnostics_step, (standing_step s item).1] at later
    rw [Standing.journal, Diagnostics.hearAll_append]
    exact later

theorem diagnostics_finish (s : PreprocessState) (input : List PositionedToken) :
    (s.finish input).diagnostics = s.diagnostics.hearAll (s.standing.closing input) := by
  have same : s.standing.conditions = s.conditions := rfl
  unfold finish Standing.closing
  rw [same]
  split
  · rfl
  · rw [diagnostics_reportAny, List.map_map]
    rfl

/-- **A run tells its sink the journal of its tokens**, whatever the sink makes of it. -/
theorem diagnostics_runUnit (s : PreprocessState) (input : List PositionedToken) :
    (s.runUnit .default input).1.diagnostics =
      s.diagnostics.hearAll (s.standing.unitJournal input) := by
  have told := diagnostics_steps s (SourceItem.ofTokens none input)
  have ended := diagnostics_finish (s.steps .default (SourceItem.ofTokens none input)).1 input
  rw [told, (standing_steps s _).1] at ended
  rw [Standing.unitJournal, Diagnostics.hearAll_append]
  exact ended

/-- The output keeps what scanning found, and then what the sink made of the journal. -/
theorem exists_preprocess {file raw : String} {tokens : List PositionedToken}
    {scanned : Diagnostics} (settings : Settings)
    (tokenized : tokenize raw file = .ok (tokens, scanned)) :
    ∃ output, preprocess file raw settings = .ok output ∧
      output.policy =
        (({ policy := settings.policy } : Diagnostics).hearAll (journal settings tokens)).policy ∧
      output.diagnostics = (({ policy := output.policy } : Diagnostics).extend scanned).extend
        (({ policy := settings.policy } : Diagnostics).hearAll (journal settings tokens)) := by
  have told : ((PreprocessState.ofSettings settings).runUnit .default tokens).1.diagnostics =
      ({ policy := settings.policy } : Diagnostics).hearAll (journal settings tokens) :=
    diagnostics_runUnit _ tokens
  refine ⟨?output, ?run, ?policy, ?diagnostics⟩
  case run =>
    simp only [preprocess, tokenized]
    rfl
  case policy => exact congrArg Diagnostics.policy told
  case diagnostics => exact congrArg (Diagnostics.extend _) told

end SharpFront
