import SharpFront.Proofs.Condition.Reports
import SharpFront.Proofs.Preprocess.Journal
import SharpFront.Proofs.Preprocess.Nest

/-!
# Directives in excluded code

Where an open level is disabled, a directive line can only say that it is not written as it should
be, and take its part in the branches of the open levels.

* `reports_of_excluded`, `bodyEvents_of_excluded`: what is said there;
* `directive_of_excluded`: what is left as it was;
* `dispatch_of_excluded`: both, of the default handlers.
-/

namespace SharpFront

/-- Says that a directive is not written as it should be, whatever it is to do. -/
def DiagnosticKind.isOfForm : DiagnosticKind → Bool
  | directiveExpected | endOfLineExpected | unexpectedDirective | identifierExpected
  | invalidExpression => true
  | _ => false

theorem DiagnosticKind.severity_of_isOfForm {kind : DiagnosticKind} (h : kind.isOfForm = true) :
    kind.severity = .error := by
  cases kind <;> first | rfl | cases h

theorem DiagnosticKind.ne_userError_of_isOfForm {kind : DiagnosticKind} (h : kind.isOfForm = true)
    (message : String) : kind ≠ .userError message := by
  rintro rfl
  cases h

/-! ## What excluded code reports -/

namespace DirectiveLine

theorem excess_isOfForm (tokens : List PositionedToken) (n : Nat) :
    ∀ r ∈ excess tokens n, r.kind.isOfForm = true := by
  intro r isReport
  obtain ⟨t, -, rfl⟩ := List.mem_map.mp isReport
  rfl

theorem conditionReports_isOfForm (d : DirectiveLine) (symbols : SymbolSet) :
    ∀ r ∈ d.conditionReports symbols, r.kind.isOfForm = true := by
  intro r isReport
  rcases Condition.evaluate_isMalformation _ _ _ r isReport with kind | kind
  · rw [kind]
    rfl
  · rw [kind]
    rfl

theorem symbolReports_isOfForm (d : DirectiveLine) :
    ∀ r ∈ d.symbolReports, r.kind.isOfForm = true := by
  unfold symbolReports
  split
  · exact List.forall_mem_singleton.mpr rfl
  · split
    · exact excess_isOfForm d.operands 1
    · exact List.forall_mem_singleton.mpr rfl

end DirectiveLine

namespace Standing

open DirectiveLine

variable {s : Standing}

theorem reports_of_excluded (h : s.includesCode = false) (d : DirectiveLine) :
    ∀ r ∈ s.reports d, r.kind.isOfForm = true := by
  have none : ∀ r ∈ ([] : List Report), r.kind.isOfForm = true := List.forall_mem_nil _
  have misplaced : ∀ r ∈ [d.word.report .unexpectedDirective], r.kind.isOfForm = true :=
    List.forall_mem_singleton.mpr rfl
  have unknown : ∀ r ∈ [d.word.report .directiveExpected], r.kind.isOfForm = true :=
    List.forall_mem_singleton.mpr rfl
  have condition := d.conditionReports_isOfForm s.effects.symbols
  have excess := excess_isOfForm d.operands 0
  have excluded : ¬s.includesCode = true := Bool.eq_false_iff.mp h
  unfold reports
  cases d.word.token.directive? with
  | none => exact unknown
  | some w =>
    cases w with
    | ifWord => exact condition
    | elif => exact List.forall_mem_append.mpr ⟨condition, by split <;> assumption⟩
    | elseWord => exact List.forall_mem_append.mpr ⟨excess, by split <;> assumption⟩
    | endif => exact List.forall_mem_append.mpr ⟨excess, by split <;> assumption⟩
    | define | undef => exact d.symbolReports_isOfForm
    | line | checksum | warning | error =>
      simp only [if_neg excluded]
      exact none
    | region | endregion | pragma => exact none
    | disable | restore | hidden => exact unknown

/-- Excluded code makes no entry in the policy and says nothing of what its directives are about. -/
theorem bodyEvents_of_excluded (h : s.includesCode = false) (hash : PositionedToken)
    (body : List PositionedToken) :
    ∃ rs : List Report, s.bodyEvents hash body = rs.map .report ∧
      ∀ r ∈ rs, r.kind.isOfForm = true := by
  cases body with
  | nil => exact ⟨[_], rfl, List.forall_mem_singleton.mpr rfl⟩
  | cons word operands =>
    simp only [bodyEvents, directiveEvents, h]
    split
    · exact ⟨[], rfl, List.forall_mem_nil _⟩
    · exact ⟨_, rfl, s.reports_of_excluded h ⟨word, operands⟩⟩

/-! ## What excluded code leaves as it was -/

theorem apply_of_excluded (h : s.includesCode = false) (f : Effects → Effects) : s.apply f = s :=
  if_neg (Bool.eq_false_iff.mp h)

theorem directive_of_excluded (h : s.includesCode = false) (d : DirectiveLine) :
    (s.directive d).effects = s.effects := by
  unfold directive
  split
  · rfl
  · split <;> rfl
  · rfl
  · rfl
  · rw [apply_of_excluded h]

/-- Only the conditional directives act on the open levels. -/
theorem isConditional_of_directive_ne {d : DirectiveLine}
    (h : (s.directive d).conditions ≠ s.conditions) :
    ∃ w, d.word.token.directive? = some w ∧ w.isConditional = true := by
  cases names : d.word.token.directive?.filter Directive.isConditional with
  | some w => exact ⟨w, Option.filter_eq_some_iff.mp names⟩
  | none =>
    rw [s.directive_of_unconditional names, apply] at h
    split at h
    · exact absurd rfl h
    · exact absurd rfl h

end Standing

/-! ## The default handlers -/

/-- **Excluded code has no effect.** Where some open level is disabled, a directive line, whatever
it consists of, leaves the symbols, the apparent position, the policy and the count of suppressed
warnings as they were, and all that it reports are errors, though none that the text asks for. Only
`#if`, `#elif`, `#else` and `#endif` change the open levels. -/
theorem dispatch_of_excluded (hash : PositionedToken) (body : List PositionedToken)
    (s : PreprocessState) (h : ∃ level ∈ s.conditions.levels, level.enabled = false) :
    let t := DirectiveTable.default.dispatch hash body s
    t.symbols = s.symbols ∧ t.position = s.position ∧
      t.diagnostics.policy = s.diagnostics.policy ∧
      t.diagnostics.suppressed = s.diagnostics.suppressed ∧
      (∃ found, t.diagnostics.toList = s.diagnostics.toList ++ found ∧
        ∀ d ∈ found, d.kind.severity = .error ∧ ∀ message, d.kind ≠ .userError message) ∧
      (t.conditions ≠ s.conditions →
        ∃ word operands w, body = word :: operands ∧ word.token.directive? = some w ∧
          w.isConditional = true) := by
  have excluded : s.standing.includesCode = false := by
    obtain ⟨level, isOpen, disabled⟩ := h
    exact List.all_eq_false.mpr ⟨level, isOpen, by simp [disabled]⟩
  obtain ⟨rs, told, ofForm⟩ := s.standing.bodyEvents_of_excluded excluded hash body
  have sink : (DirectiveTable.default.dispatch hash body s).diagnostics =
      { s.diagnostics with
        entries := s.diagnostics.entries ++ (rs.map Report.asError).toArray } := by
    rw [diagnostics_dispatch, told, ← Diagnostics.reportAll_eq_hearAll]
    refine s.diagnostics.reportAll_of_isError ?_
    intro r isReport
    exact DiagnosticKind.severity_of_isOfForm (ofForm r isReport)
  have effects : (DirectiveTable.default.dispatch hash body s).effects = s.effects := by
    cases body with
    | nil => exact congrArg Standing.effects (s.standing_report _)
    | cons word operands =>
      have acts := standing_dispatch hash ⟨word, operands⟩ s
      exact (congrArg Standing.effects acts).trans (Standing.directive_of_excluded excluded _)
  refine ⟨congrArg Effects.symbols effects, congrArg Effects.position effects, ?policy,
    ?suppressed, ?found, ?levels⟩
  case policy => rw [sink]
  case suppressed => rw [sink]
  case found =>
    refine ⟨rs.map Report.asError, ?_, ?_⟩
    · rw [sink]
      simp [Diagnostics.toList]
    · intro d isFound
      obtain ⟨r, isReport, rfl⟩ := List.mem_map.mp isFound
      exact ⟨DiagnosticKind.severity_of_isOfForm (ofForm r isReport),
        DiagnosticKind.ne_userError_of_isOfForm (ofForm r isReport)⟩
  case levels =>
    intro changed
    cases body with
    | nil => exact absurd rfl changed
    | cons word operands =>
      have acts := congrArg Standing.conditions (standing_dispatch hash ⟨word, operands⟩ s)
      have moved : (s.standing.directive ⟨word, operands⟩).conditions ≠ s.standing.conditions := by
        rw [← acts]
        exact changed
      obtain ⟨w, names, conditional⟩ := Standing.isConditional_of_directive_ne moved
      exact ⟨word, operands, w, rfl, names, conditional⟩

/-- The level is disabled and waits for an `#else`. -/
def skipping : PreprocessState :=
  { PreprocessState.ofSettings {} with conditions := ⟨[.opened false]⟩ }

/-- `#define A B` is reported there for the operand that is too much, and defines nothing. -/
theorem dispatch_of_excluded_define :
    (∃ level ∈ skipping.conditions.levels, level.enabled = false) ∧
      let body := (row 1 [.operator .hash, .directive .define, .identifier ⟨8, "A"⟩,
        .identifier ⟨10, "B"⟩]).tail
      let t := DirectiveTable.default.dispatch ⟨.operator .hash, "shell", 1, 1, 1, false⟩ body skipping
      t.symbols = skipping.symbols ∧
        t.diagnostics.toList = [⟨.unexpectedDirective, .error, 1, 4, 1⟩] := by
  have disabled : ∃ level ∈ skipping.conditions.levels, level.enabled = false := by decide
  exact ⟨disabled, (dispatch_of_excluded _ _ skipping disabled).1, by decide +kernel⟩

end SharpFront
