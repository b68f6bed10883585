import SharpFront.Diagnostic.Sink

/-!
# What the sink keeps

The sink resolves each report by its policy, in the order in which they are made.

* `WarningPolicy.resolve?`: what a policy makes of one report;
* `AreKept`: what any policies can leave of reports.
-/

namespace SharpFront

theorem DiagnosticKind.severity_of_ne {kind : DiagnosticKind} (h : kind.severity ≠ .error) :
    kind.severity = .warning := by
  cases kind <;> first | rfl | exact absurd rfl h

/-- What a policy makes of a report: a diagnostic, unless it suppresses it. -/
def WarningPolicy.resolve? (p : WarningPolicy) (r : Report) : Option Diagnostic :=
  (p.severity? r).map fun severity => ⟨r.kind, severity, r.line, r.column, r.length⟩

/-- The diagnostic that a report about an error leads to. -/
def Report.asError (r : Report) : Diagnostic := ⟨r.kind, .error, r.line, r.column, r.length⟩

/-- The diagnostic that a report about a warning leads to, unless a policy intervenes. -/
def Report.asWarning (r : Report) : Diagnostic := ⟨r.kind, .warning, r.line, r.column, r.length⟩

namespace WarningPolicy

theorem resolve?_kind {p : WarningPolicy} {r : Report} {d : Diagnostic}
    (h : p.resolve? r = some d) : d.kind = r.kind := by
  obtain ⟨severity, -, rfl⟩ := Option.map_eq_some_iff.mp h
  rfl

theorem resolve?_place {p : WarningPolicy} {r : Report} {d : Diagnostic}
    (h : p.resolve? r = some d) : d.line = r.line ∧ d.column = r.column := by
  obtain ⟨severity, -, rfl⟩ := Option.map_eq_some_iff.mp h
  exact ⟨rfl, rfl⟩

/-- No policy holds back an error. -/
theorem resolve?_of_isError (p : WarningPolicy) {r : Report} (h : r.kind.severity = .error) :
    p.resolve? r = some r.asError := by
  simp only [resolve?, severity?, h, Option.map_some, Report.asError]

end WarningPolicy

/-- What may be left of reports. Every error is kept as it was made; a warning is kept as a warning,
or it counts as an error, or it is suppressed. -/
inductive AreKept : List Report → List Diagnostic → Prop where
  | nil : AreKept [] []
  | error {r : Report} {rs : List Report} {ds : List Diagnostic}
    (isError : r.kind.severity = .error) (later : AreKept rs ds) :
    AreKept (r :: rs) (r.asError :: ds)
  | warning {r : Report} {rs : List Report} {ds : List Diagnostic}
    (isWarning : r.kind.severity = .warning) (later : AreKept rs ds) :
    AreKept (r :: rs) (r.asWarning :: ds)
  | escalated {r : Report} {rs : List Report} {ds : List Diagnostic}
    (isWarning : r.kind.severity = .warning) (later : AreKept rs ds) :
    AreKept (r :: rs) (r.asError :: ds)
  | suppressed {r : Report} {rs : List Report} {ds : List Diagnostic}
    (isWarning : r.kind.severity = .warning) (later : AreKept rs ds) : AreKept (r :: rs) ds

namespace AreKept

variable {rs rs' : List Report} {ds ds' : List Diagnostic}

theorem append (h : AreKept rs ds) (h' : AreKept rs' ds') : AreKept (rs ++ rs') (ds ++ ds') := by
  induction h with
  | nil => exact h'
  | error isError _ ih => exact .error isError ih
  | warning isWarning _ ih => exact .warning isWarning ih
  | escalated isWarning _ ih => exact .escalated isWarning ih
  | suppressed isWarning _ ih => exact .suppressed isWarning ih

theorem resolve? (p : WarningPolicy) (r : Report) : AreKept [r] (p.resolve? r).toList := by
  by_cases isError : r.kind.severity = .error
  · rw [p.resolve?_of_isError isError]
    exact .error isError .nil
  · have isWarning := DiagnosticKind.severity_of_ne isError
    simp only [WarningPolicy.resolve?, WarningPolicy.severity?, isWarning]
    cases p.level r.line r.kind.overrideCodes with
    | disabled => exact .suppressed isWarning .nil
    | normal => exact .warning isWarning .nil
    | error => exact .escalated isWarning .nil

/-- The errors among what is left are those that were reported. -/
theorem errors_eq (h : AreKept rs ds) :
    ds.filter (·.kind.severity = .error) =
      (rs.filter (·.kind.severity = .error)).map Report.asError := by
  induction h with
  | nil => rfl
  | error isError _ ih => simp [Report.asError, isError, ih]
  | warning isWarning _ ih => simp [Report.asWarning, isWarning, ih]
  | escalated isWarning _ ih => simp [Report.asError, isWarning, ih]
  | suppressed isWarning _ ih => simp [isWarning, ih]

/-- What is left stands where it was reported. -/
theorem exists_of_mem (h : AreKept rs ds) {d : Diagnostic} (isLeft : d ∈ ds) :
    ∃ r ∈ rs, d.line = r.line ∧ d.column = r.column := by
  induction h with
  | nil => cases isLeft
  | @error r _ _ _ _ ih | @warning r _ _ _ _ ih | @escalated r _ _ _ _ ih =>
    rcases List.mem_cons.mp isLeft with rfl | isLater
    · exact ⟨r, List.mem_cons_self, rfl, rfl⟩
    · obtain ⟨r, isReport, stands⟩ := ih isLater
      exact ⟨r, List.mem_cons_of_mem _ isReport, stands⟩
  | suppressed _ _ ih =>
    obtain ⟨r, isReport, stands⟩ := ih isLeft
    exact ⟨r, List.mem_cons_of_mem _ isReport, stands⟩

theorem lines_sublist (h : AreKept rs ds) : (ds.map (·.line)).Sublist (rs.map (·.line)) := by
  induction h with
  | nil => exact .slnil
  | error _ _ ih | warning _ _ ih | escalated _ _ ih => exact ih.cons_cons _
  | suppressed _ _ ih => exact ih.cons _

end AreKept

namespace Diagnostics

@[simp] theorem report_policy (s : Diagnostics) (r : Report) : (s.report r).policy = s.policy := by
  unfold report
  split <;> rfl

@[simp] theorem reportAll_policy (rs : List Report) (s : Diagnostics) :
    (s.reportAll rs).policy = s.policy := by
  induction rs generalizing s with
  | nil => rfl
  | cons r rs ih => exact (ih (s.report r)).trans (s.report_policy r)

theorem report_toList (s : Diagnostics) (r : Report) :
    (s.report r).toList = s.toList ++ (s.policy.resolve? r).toList := by
  simp only [report, WarningPolicy.resolve?, toList]
  split
  · next isSuppressed => simp only [isSuppressed, Option.map_none, Option.toList, List.append_nil]
  · next severity isKept =>
    simp only [isKept, Option.map_some, Option.toList, Array.toList_push]

theorem reportAll_toList (rs : List Report) (s : Diagnostics) :
    (s.reportAll rs).toList = s.toList ++ rs.filterMap s.policy.resolve? := by
  induction rs generalizing s with
  | nil => exact (List.append_nil _).symm
  | cons r rs ih =>
    have step : (s.reportAll (r :: rs)).toList = ((s.report r).reportAll rs).toList := rfl
    rw [step, ih, report_toList, report_policy, List.filterMap_cons, List.append_assoc]
    cases s.policy.resolve? r <;> rfl

/-- What a sink without entries keeps has been reported. -/
theorem exists_of_mem_reportAll {policy : WarningPolicy} {rs : List Report} {d : Diagnostic}
    (h : d ∈ (({ policy } : Diagnostics).reportAll rs).toList) :
    ∃ r ∈ rs, policy.resolve? r = some d := by
  rw [reportAll_toList] at h
  rcases List.mem_append.mp h with isEarlier | isKept
  · cases isEarlier
  · exact List.mem_filterMap.mp isKept

theorem extend_toList (s other : Diagnostics) :
    (s.extend other).toList = s.toList ++ other.toList := Array.toList_append

/-- How many reports the sink has heard. -/
def heard (s : Diagnostics) : Nat := s.size + s.suppressed

theorem heard_report (s : Diagnostics) (r : Report) : (s.report r).heard = s.heard + 1 := by
  unfold report
  split
  · exact (Nat.add_assoc _ _ _).symm
  · simp only [heard, size, Array.size_push]
    omega

theorem heard_extend (s other : Diagnostics) : (s.extend other).heard = s.heard + other.heard := by
  simp only [heard, extend, size, Array.size_append]
  omega

/-- Errors are kept as they are reported. -/
theorem mem_report_iff (s : Diagnostics) {r : Report} {d : Diagnostic}
    (isError : d.kind.severity = .error) :
    d ∈ (s.report r).toList ↔ d ∈ s.toList ∨ d = r.asError := by
  rw [report_toList, List.mem_append, Option.mem_toList]
  constructor
  · rintro (isEarlier | resolved)
    · exact .inl isEarlier
    · have isError := WarningPolicy.resolve?_kind resolved ▸ isError
      rw [s.policy.resolve?_of_isError isError] at resolved
      exact .inr (Option.some.inj resolved).symm
  · rintro (isEarlier | rfl)
    · exact .inl isEarlier
    · exact .inr (s.policy.resolve?_of_isError isError)

theorem mem_reportAll_of_isError (s : Diagnostics) {rs : List Report} {r : Report} (isReport : r ∈ rs)
    (isError : r.kind.severity = .error) : r.asError ∈ (s.reportAll rs).toList := by
  rw [reportAll_toList]
  exact List.mem_append_right _
    (List.mem_filterMap.mpr ⟨r, isReport, s.policy.resolve?_of_isError isError⟩)

/-- Errors are all kept, and none is counted as suppressed. -/
theorem reportAll_of_isError (s : Diagnostics) {rs : List Report}
    (areErrors : ∀ r ∈ rs, r.kind.severity = .error) :
    s.reportAll rs = { s with entries := s.entries ++ (rs.map Report.asError).toArray } := by
  induction rs generalizing s with
  | nil => simp [reportAll]
  | cons r rs ih =>
    obtain ⟨isError, areErrors⟩ := List.forall_mem_cons.mp areErrors
    have kept : s.report r = { s with entries := s.entries.push r.asError } := by
      simp only [report, WarningPolicy.severity?, isError, Report.asError]
    have step : s.reportAll (r :: rs) = (s.report r).reportAll rs := rfl
    rw [step, kept, ih _ areErrors]
    simp

end Diagnostics

end SharpFront
