import SharpFront.Proofs.Preprocess.Fates
import SharpFront.Proofs.Preprocess.Levels
import SharpFront.Proofs.Scan.LongestMatch

/-!
# The balance of conditional directives

How many levels are open, and which of them are past their `#else`, can be counted off the words of
the conditional directives, whatever else stands on their lines.

* `depthAfter`, `elsesAfter`: the counts;
* `Turns.map_isFinal`, `steps_finals`: an item and a run keep the levels in step with the counts;
* `reportsWord_iff`: a conditional directive is reported at its word when it is `Misplaced`;
* `run_balance`: what a run reports about the balance of its tokens.
-/

namespace SharpFront

/-! ## Counting -/

/-- One level more for an `#if`, and one less for an `#endif` if there is one. -/
def countLevel (depth : Nat) : Option Directive → Nat
  | some .ifWord => depth + 1
  | some .endif => depth - 1
  | _ => depth

/-- How many levels are open after some items. -/
def depthAfter (items : List SourceItem) : Nat :=
  items.foldl (fun depth item => countLevel depth item.conditional?) 0

/-- An `#else` belongs to the innermost level. -/
def noteElse (levels : List Bool) : Option Directive → List Bool
  | some .ifWord => false :: levels
  | some .elseWord => levels.modifyHead fun _ => true
  | some .endif => levels.tail
  | _ => levels

/-- Whether the `#else` of each open level has come, innermost first. -/
def elsesAfter (items : List SourceItem) : List Bool :=
  items.foldl (fun levels item => noteElse levels item.conditional?) []

/-- A conditional directive is out of place where no level is open, unless it opens one, and as a
further branch after the `#else` of its level. -/
def Misplaced (before : List SourceItem) (w : Directive) : Prop :=
  (w = .endif ∨ w = .elif ∨ w = .elseWord) ∧ depthAfter before = 0 ∨
  (w = .elif ∨ w = .elseWord) ∧ (elsesAfter before).head? = some true

instance (before : List SourceItem) (w : Directive) : Decidable (Misplaced before w) :=
  inferInstanceAs (Decidable (_ ∧ _ ∨ _ ∧ _))

theorem length_noteElse (levels : List Bool) (word : Option Directive) :
    (noteElse levels word).length = countLevel levels.length word := by
  cases word with
  | none => rfl
  | some w =>
    cases w with
    | elseWord => exact List.length_modifyHead
    | endif => exact List.length_tail
    | _ => rfl

theorem length_elsesAfter (items : List SourceItem) :
    (elsesAfter items).length = depthAfter items := by
  induction items using List.reverseRecOn with
  | nil => rfl
  | append_singleton items item ih =>
    have counted := length_noteElse (elsesAfter items) item.conditional?
    rw [ih] at counted
    simp only [elsesAfter, depthAfter, List.foldl_append, List.foldl_cons, List.foldl_nil]
    exact counted

/-! ## The levels of a run -/

theorem Turns.map_isFinal {word : Option Directive} {levels next : List ConditionLevel}
    (h : Turns word levels next) :
    next.map (·.isFinal) = noteElse (levels.map (·.isFinal)) word := by
  cases h with
  | plain => rfl
  | opening value => rfl
  | branch value notFinal => rfl
  | lateBranch isFinal => rfl
  | lastBranch => rfl
  | closing => rfl
  | @stray w notOpening =>
    cases w with
    | ifWord => exact absurd rfl notOpening
    | _ => rfl

namespace Standing

/-- Whether each open level is past its `#else`, innermost first. -/
def finals (s : Standing) : List Bool := s.conditions.levels.map (·.isFinal)

theorem step_finals (s : Standing) (item : SourceItem) :
    (s.step item).1.finals = noteElse s.finals item.conditional? :=
  (s.step_turns item).map_isFinal

theorem steps_finals (s : Standing) (items : List SourceItem) :
    (s.steps items).1.finals =
      items.foldl (fun levels item => noteElse levels item.conditional?) s.finals := by
  induction items generalizing s with
  | nil => rfl
  | cons item items ih =>
    have later := ih (s.step item).1
    rw [step_finals] at later
    exact later

/-- The levels that are open after some items of a text. -/
theorem finals_eq (settings : Settings) (items : List SourceItem) :
    ((PreprocessState.ofSettings settings).standing.steps items).1.finals = elsesAfter items :=
  steps_finals _ items

theorem depth_eq (settings : Settings) (items : List SourceItem) :
    ((PreprocessState.ofSettings settings).standing.steps items).1.conditions.depth =
      depthAfter items := by
  rw [← length_elsesAfter, ← finals_eq settings, finals, List.length_map]
  rfl

end Standing

/-! ## What is reported at the word of a directive -/

namespace DirectiveLine

/-- One of the reports says that the word of the line is out of place. -/
def ReportsWord (d : DirectiveLine) (rs : List Report) : Prop :=
  ∃ r ∈ rs, r.kind = .unexpectedDirective ∧ r.column = d.word.column

theorem not_reportsWord_nil (d : DirectiveLine) : ¬d.ReportsWord [] := by
  rintro ⟨r, isReport, -⟩
  cases isReport

theorem reportsWord_append_iff (d : DirectiveLine) (a b : List Report) :
    d.ReportsWord (a ++ b) ↔ d.ReportsWord a ∨ d.ReportsWord b := by
  simp only [ReportsWord, List.mem_append, or_and_right, exists_or]

theorem reportsWord_misplaced (d : DirectiveLine) :
    d.ReportsWord [d.word.report .unexpectedDirective] :=
  ⟨_, List.mem_cons_self, rfl, rfl⟩

theorem not_reportsWord_conditionReports (d : DirectiveLine) (symbols : SymbolSet) :
    ¬d.ReportsWord (d.conditionReports symbols) := by
  rintro ⟨r, isReport, isKind, -⟩
  have := Condition.evaluate_isMalformation _ _ _ r isReport
  simp [Condition.IsMalformation, isKind] at this

/-- An operand too many is reported as unexpected too, but at its own column. -/
theorem not_reportsWord_excess {d : DirectiveLine} (n : Nat)
    (apart : ∀ t ∈ d.operands, d.word.column < t.column) :
    ¬d.ReportsWord (excess d.operands n) := by
  rintro ⟨r, isReport, -, atWord⟩
  obtain ⟨t, isThere, rfl⟩ := List.mem_map.mp isReport
  have isOperand : t ∈ d.operands := List.mem_of_getElem? (Option.mem_toList.mp isThere)
  exact absurd atWord (Nat.ne_of_gt (apart t isOperand))

end DirectiveLine

namespace Standing

variable {s : Standing} {before : List SourceItem}

theorem isEmpty_iff (counted : s.finals = elsesAfter before) :
    s.conditions.isEmpty = true ↔ depthAfter before = 0 := by
  rw [← length_elsesAfter, ← counted, finals, List.length_map, List.length_eq_zero_iff]
  exact List.isEmpty_iff

theorem continues_eq_false_iff (counted : s.finals = elsesAfter before) :
    s.continues = false ↔ depthAfter before = 0 ∨ (elsesAfter before).head? = some true := by
  rw [← isEmpty_iff counted, ← counted]
  rcases s with ⟨settings, ⟨_ | ⟨level, outer⟩⟩, effects⟩
  · simp [continues, finals, ConditionStack.top?, ConditionStack.isEmpty]
  · simp [continues, finals, ConditionStack.top?, ConditionStack.isEmpty]

/-- A conditional directive is reported at its word when it is out of place. -/
theorem reportsWord_iff {d : DirectiveLine} {w : Directive}
    (counted : s.finals = elsesAfter before) (names : d.word.token.directive? = some w)
    (conditional : w.isConditional = true) (apart : ∀ t ∈ d.operands, d.word.column < t.column) :
    d.ReportsWord (s.reports d) ↔ Misplaced before w := by
  have condition := d.not_reportsWord_conditionReports s.effects.symbols
  have excess := DirectiveLine.not_reportsWord_excess 0 apart
  have further : d.ReportsWord (if s.continues then [] else [d.word.report .unexpectedDirective]) ↔
      depthAfter before = 0 ∨ (elsesAfter before).head? = some true := by
    rw [← continues_eq_false_iff counted]
    cases s.continues with
    | false => simp [d.reportsWord_misplaced]
    | true => simp [d.not_reportsWord_nil]
  have closing : d.ReportsWord
      (if s.conditions.isEmpty then [d.word.report .unexpectedDirective] else []) ↔
        depthAfter before = 0 := by
    rw [← isEmpty_iff counted]
    cases s.conditions.isEmpty with
    | false => simp [d.not_reportsWord_nil]
    | true => simp [d.reportsWord_misplaced]
  simp only [reports, names]
  cases w with
  | ifWord => simp [condition, Misplaced]
  | elif => simp [d.reportsWord_append_iff, condition, further, Misplaced]
  | elseWord => simp [d.reportsWord_append_iff, excess, further, Misplaced]
  | endif => simp [d.reportsWord_append_iff, excess, closing, Misplaced]
  | _ => cases conditional

/-- What a conditional directive reports as unexpected is no matter of its place on the line. -/
theorem mem_events_iff_of_conditional (s : Standing) (hash : PositionedToken) (leads : Bool)
    {d : DirectiveLine} {w : Directive} (names : d.word.token.directive? = some w)
    (conditional : w.isConditional = true) {r : Report} (isKind : r.kind = .unexpectedDirective) :
    .report r ∈ s.events (.directive hash leads (d.word :: d.operands)) ↔ r ∈ s.reports d := by
  have notPragma : d.word.token.directive? ≠ some .pragma := by
    intro isPragma
    obtain rfl := Option.some.inj (isPragma.symm.trans names)
    cases conditional
  have notFirst : r ≠ hash.report .notFirstCharacter := by
    rintro rfl
    cases isKind
  have body : s.bodyEvents hash (d.word :: d.operands) = (s.reports d).map .report :=
    if_neg notPragma
  simp [mem_events_directive, body, notFirst]

/-- A journal tells of a conditional directive that is out of place, and of no other. -/
theorem exists_mem_journal_iff (settings : Settings) {tokens : List PositionedToken}
    (inLines : InLines tokens) (inColumns : InColumns tokens) {after : List SourceItem}
    {hash : PositionedToken} {leads : Bool} {d : DirectiveLine} {w : Directive}
    (isSplit : SourceItem.ofTokens none tokens =
      before ++ .directive hash leads (d.word :: d.operands) :: after)
    (names : d.word.token.directive? = some w) (conditional : w.isConditional = true) :
    (∃ r, .report r ∈ (PreprocessState.ofSettings settings).standing.journal
        (SourceItem.ofTokens none tokens) ∧
      r.kind = .unexpectedDirective ∧ r.line = d.word.line ∧ r.column = d.word.column) ↔
      Misplaced before w := by
  have isItem : .directive hash leads (d.word :: d.operands) ∈ SourceItem.ofTokens none tokens := by
    simp [isSplit]
  have whole : ∀ item ∈ SourceItem.ofTokens none tokens, item.IsWhole :=
    SourceItem.isWhole_of_mem_ofTokens
  have ordered : SourceItem.InOrder (SourceItem.ofTokens none tokens) :=
    SourceItem.ofTokens_inOrder inLines
  have wholeHere := whole _ isItem
  have wordLine : d.word.line = hash.line := wholeHere.2 d.word List.mem_cons_self
  have apart : ∀ t ∈ d.operands, d.word.column < t.column := by
    intro t isOperand
    have inBody := inColumns.sublist (SourceItem.sublist_of_mem_ofTokens isItem)
    have beyond := (List.pairwise_cons.mp (List.pairwise_cons.mp inBody).2).1 t isOperand
    apply beyond
    rw [wordLine, wholeHere.2 t (List.mem_cons_of_mem d.word isOperand)]
  rw [isSplit] at whole ordered ⊢
  rw [← reportsWord_iff (finals_eq settings before) names conditional apart]
  let s := (PreprocessState.ofSettings settings).standing
  have told {r : Report} (isKind : r.kind = .unexpectedDirective) (onLine : r.line = hash.line) :
      .report r ∈ s.journal (before ++ .directive hash leads (d.word :: d.operands) :: after) ↔
        r ∈ (s.steps before).1.reports d := by
    have here : Event.line (.report r) = hash.line := onLine
    rw [mem_journal_iff_of_line whole ordered rfl s here]
    exact mem_events_iff_of_conditional _ hash leads names conditional isKind
  constructor
  · rintro ⟨r, isEvent, isKind, onLine, atWord⟩
    exact ⟨r, (told isKind (onLine.trans wordLine)).mp isEvent, isKind, atWord⟩
  · rintro ⟨r, isReport, isKind, atWord⟩
    have onLine : r.line = hash.line := by
      apply (reports_areAbout _ d).line_eq _ r isReport
      intro t isToken
      exact wholeHere.2 t isToken
    exact ⟨r, (told isKind onLine).mpr isReport, isKind, onLine.trans wordLine.symm, atWord⟩

/-- What the items of a text report is no matter of the end of the text. -/
theorem kind_of_mem_journal {items : List SourceItem} (whole : ∀ item ∈ items, item.IsWhole)
    (s : Standing) {r : Report} (h : .report r ∈ s.journal items) : r.kind ≠ .endifExpected := by
  obtain ⟨item, isItem, t, isHere⟩ := s.exists_of_mem_journal h
  cases item with
  | token t => cases isHere
  | directive hash leads body =>
    intro isKind
    rcases mem_events_directive.mp isHere with ⟨-, isPlace⟩ | isBody
    · cases isPlace
      cases isKind
    · have ofDirective : r.kind.isOfDirective = true :=
        (t.bodyEvents_saidOn (whole _ isItem).2).ofDirective _ isBody
      rw [isKind] at ofDirective
      cases ofDirective

end Standing

/-! ## The whole text -/

/-- The errors of a kind that a sink keeps at a place are those that it heard of. -/
theorem Diagnostics.exists_mem_hearAll_iff (policy : WarningPolicy) (events : List Event)
    (kind : DiagnosticKind) (isError : kind.severity = .error) (line column : Nat) :
    (∃ d ∈ (({ policy := policy } : Diagnostics).hearAll events).toList,
      d.kind = kind ∧ d.line = line ∧ d.column = column) ↔
      ∃ r, .report r ∈ events ∧ r.kind = kind ∧ r.line = line ∧ r.column = column := by
  constructor
  · rintro ⟨d, isKept, rfl, rfl, rfl⟩
    rcases (mem_hearAll_iff _ isError).mp isKept with isEarlier | ⟨r, isHeard, rfl⟩
    · cases isEarlier
    · exact ⟨r, isHeard, rfl, rfl, rfl⟩
  · rintro ⟨r, isHeard, rfl, rfl, rfl⟩
    refine ⟨r.asError, ?_, rfl, rfl, rfl⟩
    exact (mem_hearAll_iff _ isError).mpr (.inr ⟨r, isHeard, rfl⟩)

namespace PreprocessState

variable {settings : Settings} {tokens : List PositionedToken}

theorem depth_steps (settings : Settings) (items : List SourceItem) :
    ((PreprocessState.ofSettings settings).steps .default items).1.conditions.depth =
      depthAfter items := by
  have same := congrArg Standing.conditions (standing_steps (.ofSettings settings) items).1
  exact (congrArg ConditionStack.depth same).trans (Standing.depth_eq settings items)

theorem depth_runUnit (settings : Settings) (tokens : List PositionedToken) :
    ((PreprocessState.ofSettings settings).runUnit .default tokens).1.conditions.depth =
      depthAfter (SourceItem.ofTokens none tokens) := by
  have same := congrArg Standing.conditions (standing_runUnit (.ofSettings settings) tokens).1
  exact (congrArg ConditionStack.depth same).trans (Standing.depth_eq settings _)

/-- A conditional directive that is out of place is reported at its word, and no other. -/
theorem exists_unexpected_iff (inLines : InLines tokens) (inColumns : InColumns tokens)
    {before after : List SourceItem} {hash : PositionedToken} {leads : Bool} {d : DirectiveLine}
    {w : Directive}
    (isSplit : SourceItem.ofTokens none tokens =
      before ++ .directive hash leads (d.word :: d.operands) :: after)
    (names : d.word.token.directive? = some w) (conditional : w.isConditional = true) :
    (∃ e ∈ ((PreprocessState.ofSettings settings).runUnit .default tokens).1.diagnostics.toList,
      e.kind = .unexpectedDirective ∧ e.line = d.word.line ∧ e.column = d.word.column) ↔
      Misplaced before w := by
  rw [← Standing.exists_mem_journal_iff settings inLines inColumns isSplit names conditional,
    diagnostics_runUnit]
  have kept := Diagnostics.exists_mem_hearAll_iff settings.policy (journal settings tokens)
    .unexpectedDirective rfl d.word.line d.word.column
  refine kept.trans (exists_congr ?_)
  intro r
  refine and_congr_left ?_
  rintro ⟨isKind, -⟩
  have notClosing : r.kind ≠ .endifExpected := by
    rw [isKind]
    exact DiagnosticKind.noConfusion
  exact Standing.mem_unitJournal_iff_mem_journal _ tokens notClosing

/-- What the sink has kept when all items of some tokens have had their say. -/
def heard (settings : Settings) (tokens : List PositionedToken) : Diagnostics :=
  ({ policy := settings.policy } : Diagnostics).hearAll
    ((PreprocessState.ofSettings settings).standing.journal (SourceItem.ofTokens none tokens))

theorem kind_of_mem_heard : ∀ d ∈ (heard settings tokens).toList, d.kind ≠ .endifExpected := by
  intro d isKept isKind
  have isError : d.kind.severity = .error := by
    rw [isKind]
    rfl
  rcases (Diagnostics.mem_hearAll_iff _ isError).mp isKept with isEarlier | ⟨r, isEvent, rfl⟩
  · cases isEarlier
  · exact Standing.kind_of_mem_journal SourceItem.isWhole_of_mem_ofTokens _ isEvent isKind

/-- When the items have had their say, only a level that is still open is reported. -/
theorem diagnostics_eq_heard (settings : Settings) (tokens : List PositionedToken) :
    ((PreprocessState.ofSettings settings).runUnit .default tokens).1.diagnostics =
      (heard settings tokens).hearAll
        (((PreprocessState.ofSettings settings).standing.steps
          (SourceItem.ofTokens none tokens)).1.closing tokens) := by
  rw [diagnostics_runUnit, Standing.unitJournal, Diagnostics.hearAll_append]
  rfl

theorem diagnostics_of_closed (settings : Settings)
    (closed : depthAfter (SourceItem.ofTokens none tokens) = 0) :
    ((PreprocessState.ofSettings settings).runUnit .default tokens).1.diagnostics =
      heard settings tokens := by
  have isEmpty := (Standing.isEmpty_iff (Standing.finals_eq settings _)).mpr closed
  rw [diagnostics_eq_heard, Standing.closing, if_pos isEmpty]
  rfl

theorem diagnostics_of_open {last : PositionedToken} (isLast : tokens.getLast? = some last)
    (isOpen : depthAfter (SourceItem.ofTokens none tokens) ≠ 0) :
    ((PreprocessState.ofSettings settings).runUnit .default tokens).1.diagnostics.toList =
      (heard settings tokens).toList ++ [(last.report .endifExpected).asError] := by
  have notEmpty := (Standing.isEmpty_iff (Standing.finals_eq settings _)).not.mpr isOpen
  have isError : (last.report .endifExpected).kind.severity = .error := rfl
  rw [diagnostics_eq_heard, Standing.closing, if_neg notEmpty, isLast]
  have told := (heard settings tokens).report_toList (last.report .endifExpected)
  rw [WarningPolicy.resolve?_of_isError _ isError] at told
  exact told

end PreprocessState

/-- **What a run reports about the balance of its conditional directives.** The first `#` on a line
begins a directive. The levels that are open are counted off the words of directives alone. A
conditional directive is reported at its word exactly when it is out of place; and however many
levels are open in the end, that is reported once, at the last token and after everything else, and
it is not reported when none is. -/
theorem run_balance (raw file : String) (settings : Settings) :
    ∃ tokens scanned, tokenize raw file = .ok (tokens, scanned) ∧
      let fresh := (Preprocessor.ofSettings settings).setInput tokens
      let (p, _) := fresh.run
      let items := SourceItem.ofTokens none tokens
      let diagnostics := p.state.diagnostics.toList
      (∀ before hash after, tokens = before ++ hash :: after →
        hash.token.isOperator .hash = true →
        (∀ t ∈ before, t.token.isOperator .hash = true → t.line ≠ hash.line) →
        ∃ leads, .directive hash leads
          (after.filter fun t => t.token.isSignificant && t.line == hash.line) ∈ items) ∧
      (∀ front back, items = front ++ back →
        (fresh.state.steps fresh.table front).1.conditions.depth = depthAfter front) ∧
      p.state.conditions.depth = depthAfter items ∧
      (∀ before hash leads word operands after w,
        items = before ++ .directive hash leads (word :: operands) :: after →
        word.token.directive? = some w → w.isConditional = true →
        ((∃ d ∈ diagnostics, d.kind = .unexpectedDirective ∧ d.line = word.line ∧
          d.column = word.column) ↔ Misplaced before w)) ∧
      (depthAfter items ≠ 0 → ∃ last earlier, tokens.getLast? = some last ∧
        diagnostics = earlier ++ [(last.report .endifExpected).asError] ∧
        ∀ d ∈ earlier, d.kind ≠ .endifExpected) ∧
      (depthAfter items = 0 → ∀ d ∈ diagnostics, d.kind ≠ .endifExpected) := by
  obtain ⟨scan, reached, -, tokenized⟩ := exists_scan raw file
  have inLines := reached.inLines file
  have inColumns := reached.inColumns file
  refine ⟨_, _, tokenized, ?begins, ?running, PreprocessState.depth_runUnit settings _, ?atWord,
    ?isOpen, ?isClosed⟩
  case begins =>
    intro before hash after isSplit isHash isFirst
    exact SourceItem.exists_directive_mem_ofTokens inLines isSplit isHash isFirst
  case running =>
    intro front back _
    exact PreprocessState.depth_steps settings front
  case atWord =>
    intro before hash leads word operands after w isSplit names conditional
    let d : DirectiveLine := ⟨word, operands⟩
    exact PreprocessState.exists_unexpected_iff (d := d) inLines inColumns isSplit names conditional
  case isOpen =>
    intro isOpen
    obtain ⟨last, isLast⟩ : ∃ last, (scan.tokens file).getLast? = some last := by
      cases isLast : (scan.tokens file).getLast? with
      | some last => exact ⟨last, rfl⟩
      | none =>
        rw [List.getLast?_eq_none_iff.mp isLast, SourceItem.ofTokens] at isOpen
        exact absurd rfl isOpen
    exact ⟨last, _, isLast, PreprocessState.diagnostics_of_open isLast isOpen,
      PreprocessState.kind_of_mem_heard⟩
  case isClosed =>
    intro closed
    have same := PreprocessState.diagnostics_of_closed settings closed
    exact same ▸ PreprocessState.kind_of_mem_heard

/-- A directive of a `#` that leads its line. -/
def leadingOn (line : Nat) (body : List PositionedToken) : SourceItem :=
  .directive ⟨.operator .hash, "main.cs", line, 1, 1, false⟩ true body

/-- The tokens of an `#endif` that closes nothing, and of a level with two `#else`. -/
def strayElse : List PositionedToken :=
  [⟨.operator .hash, "main.cs", 1, 1, 1, false⟩, ⟨.directive .endif, "main.cs", 1, 2, 5, false⟩,
    ⟨.whitespace, "main.cs", 1, 7, 1, false⟩, ⟨.operator .hash, "main.cs", 2, 1, 1, false⟩,
    ⟨.directive .ifWord, "main.cs", 2, 2, 2, false⟩, ⟨.whitespace, "main.cs", 2, 4, 1, false⟩,
    ⟨.identifier ⟨11, "X"⟩, "main.cs", 2, 5, 1, false⟩, ⟨.whitespace, "main.cs", 2, 6, 1, false⟩,
    ⟨.operator .hash, "main.cs", 3, 1, 1, false⟩, ⟨.directive .elseWord, "main.cs", 3, 2, 4, false⟩,
    ⟨.whitespace, "main.cs", 3, 6, 1, false⟩, ⟨.operator .hash, "main.cs", 4, 1, 1, false⟩,
    ⟨.directive .elseWord, "main.cs", 4, 2, 4, false⟩]

/-- The `#endif` and the second `#else` are reported at their words, the first `#else` is not, and
the level is still open after the last word. -/
theorem run_balance_strayElse :
    ∃ tokens scanned, tokenize "#endif\n#if X\n#else\n#else" "main.cs" = .ok (tokens, scanned) ∧
      let p := ((Preprocessor.ofSettings {}).setInput tokens).run.1
      let diagnostics := p.state.diagnostics.toList
      let unexpectedOn (line : Nat) := ∃ d ∈ diagnostics, d.kind = .unexpectedDirective ∧
        d.line = line ∧ d.column = 2
      p.state.conditions.depth = 1 ∧ unexpectedOn 1 ∧ ¬unexpectedOn 3 ∧ unexpectedOn 4 ∧
      ∃ earlier d, diagnostics = earlier ++ [d] ∧ d.kind = .endifExpected ∧ d.line = 4 ∧
        d.column = 2 := by
  have scanned := tokenize_guided "main.cs" "#endif\n#if X\n#else\n#else"
    [.operator .hash, .word, .whitespace, .operator .hash, .word, .whitespace, .word, .whitespace,
      .operator .hash, .word, .whitespace, .operator .hash, .word]
    strayElse (by decide) (by decide_cbv) (by cbv) rfl
  obtain ⟨tokens, found, tokenized, -, -, depth, atWord, isOpen, -⟩ :=
    run_balance "#endif\n#if X\n#else\n#else" "main.cs" {}
  obtain rfl : tokens = strayElse :=
    congrArg Prod.fst (Except.ok.inj (tokenized.symm.trans scanned))
  have items : SourceItem.ofTokens none strayElse =
      [leadingOn 1 [⟨.directive .endif, "main.cs", 1, 2, 5, false⟩],
        leadingOn 2 [⟨.directive .ifWord, "main.cs", 2, 2, 2, false⟩,
          ⟨.identifier ⟨11, "X"⟩, "main.cs", 2, 5, 1, false⟩],
        leadingOn 3 [⟨.directive .elseWord, "main.cs", 3, 2, 4, false⟩],
        leadingOn 4 [⟨.directive .elseWord, "main.cs", 4, 2, 4, false⟩]] := by decide +kernel
  have isOne : depthAfter (SourceItem.ofTokens none strayElse) = 1 := by decide +kernel
  obtain ⟨last, earlier, isLast, all, -⟩ := isOpen (by rw [isOne]; exact Nat.one_ne_zero)
  refine ⟨_, found, tokenized, depth.trans isOne, ?endif, ?first, ?second, earlier, _, all, rfl, ?last⟩
  case endif =>
    exact (atWord [] _ _ _ _ _ .endif items rfl rfl).mpr (by decide)
  case first =>
    exact (atWord [_, _] _ _ _ _ _ .elseWord items rfl rfl).not.mpr (by decide)
  case second =>
    exact (atWord [_, _, _] _ _ _ _ _ .elseWord items rfl rfl).mpr (by decide)
  case last =>
    cases isLast
    exact ⟨rfl, rfl⟩

end SharpFront
