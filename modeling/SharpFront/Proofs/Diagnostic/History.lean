import Mathlib
import SharpFront.Proofs.Diagnostic.Sink

/-!
# The accounts of a sink

A sink is created with a policy. Then reports are made, the policy gets entries, and sinks with
histories of their own are merged into it, in any order. Every report is judged by the policy of the
sink on which it is made, as it is at that moment.

* `SinkHistory`: the calls that a sink has seen; `SinkHistory.sink`: the sink they lead to;
* `Ruling.Becomes`: what is to become of a report at the level that the policy has for it;
* `exists_results`: a sink keeps what its rulings become, in their order, and counts the others;
* `sink_accounts`: the books balance, and success means that nothing failed.
-/

namespace SharpFront

/-- How a sink came about. What is merged into it is a sink with a history of its own. -/
inductive SinkHistory where
  | created (policy : WarningPolicy)
  | report (earlier : SinkHistory) (r : Report)
  | apply (earlier : SinkHistory) (fromLine : Nat) (code? : Option Nat) (action : WarningAction)
  | extend (earlier other : SinkHistory)

/-- A report and the level that the policy had for it when it was made. -/
structure Ruling where
  report : Report
  level : WarningLevel

namespace Ruling

/-- An error stays an error. A warning is dropped where it is disabled, and else it is kept, as an
error where it is escalated. -/
inductive Becomes : Ruling → Option Diagnostic → Prop where
  | error {r : Report} {level : WarningLevel} (isError : r.kind.severity = .error) :
    Becomes ⟨r, level⟩ (some ⟨r.kind, .error, r.line, r.column, r.length⟩)
  | dropped {r : Report} (isWarning : r.kind.severity = .warning) : Becomes ⟨r, .disabled⟩ none
  | kept {r : Report} (isWarning : r.kind.severity = .warning) :
    Becomes ⟨r, .normal⟩ (some ⟨r.kind, .warning, r.line, r.column, r.length⟩)
  | escalated {r : Report} (isWarning : r.kind.severity = .warning) :
    Becomes ⟨r, .error⟩ (some ⟨r.kind, .error, r.line, r.column, r.length⟩)

/-- An error, or a warning that counts as one. -/
def IsFailure (ruling : Ruling) : Prop :=
  ruling.report.kind.severity = .error ∨
    ruling.report.kind.severity = .warning ∧ ruling.level = .error

theorem Becomes.isFailure_iff {ruling : Ruling} {result : Option Diagnostic}
    (h : ruling.Becomes result) : ruling.IsFailure ↔ ∃ d ∈ result, d.severity = .error := by
  cases h with
  | error isError => simp [IsFailure, isError]
  | dropped isWarning | kept isWarning | escalated isWarning => simp [IsFailure, isWarning]

end Ruling

namespace SinkHistory

def sink : SinkHistory → Diagnostics
  | created policy => { policy }
  | report earlier r => earlier.sink.report r
  | apply earlier fromLine code? action =>
    { earlier.sink with policy := earlier.sink.policy.apply fromLine code? action }
  | extend earlier other => earlier.sink.extend other.sink

/-- The policy it was created with and the entries since then. -/
def policy : SinkHistory → WarningPolicy
  | created policy => policy
  | report earlier _ => earlier.policy
  | apply earlier fromLine code? action => earlier.policy.apply fromLine code? action
  | extend earlier _ => earlier.policy

/-- How many reports were made on the sink itself. -/
def reported : SinkHistory → Nat
  | created _ => 0
  | report earlier _ => earlier.reported + 1
  | apply earlier .. | extend earlier _ => earlier.reported

/-- The sinks that were merged into it. -/
def merged : SinkHistory → List SinkHistory
  | created _ => []
  | report earlier _ | apply earlier .. => earlier.merged
  | extend earlier other => earlier.merged ++ [other]

/-- The rulings on all reports, in order; those of a merged sink come in when it does. -/
def rulings : SinkHistory → List Ruling
  | created _ => []
  | report earlier r =>
    earlier.rulings ++ [⟨r, earlier.policy.level r.line r.kind.overrideCodes⟩]
  | apply earlier .. => earlier.rulings
  | extend earlier other => earlier.rulings ++ other.rulings

/-- Reports and merged sinks leave the policy as it is. -/
theorem sink_policy (h : SinkHistory) : h.sink.policy = h.policy := by
  induction h with
  | created policy => rfl
  | report earlier r ih => exact (earlier.sink.report_policy r).trans ih
  | apply earlier fromLine code? action ih =>
    exact congrArg (WarningPolicy.apply · fromLine code? action) ih
  | extend earlier other ih _ => exact ih

/-- Each report is kept or counted once, and so is what a merged sink brings along. -/
theorem heard_sink (h : SinkHistory) :
    h.sink.heard = h.reported + (h.merged.map (·.sink.heard)).sum := by
  induction h with
  | created policy => rfl
  | report earlier r ih =>
    rw [sink, Diagnostics.heard_report, ih, reported, merged]
    omega
  | apply earlier fromLine code? action ih => exact ih
  | extend earlier other ih _ =>
    rw [sink, Diagnostics.heard_extend, ih, reported, merged, List.map_append, List.sum_append,
      List.map_singleton, List.sum_singleton]
    omega

end SinkHistory

/-- A policy rules as `Ruling.Becomes` says. -/
theorem WarningPolicy.becomes_resolve? (p : WarningPolicy) (r : Report) :
    Ruling.Becomes ⟨r, p.level r.line r.kind.overrideCodes⟩ (p.resolve? r) := by
  by_cases isError : r.kind.severity = .error
  · rw [p.resolve?_of_isError isError]
    exact .error isError
  · have isWarning := DiagnosticKind.severity_of_ne isError
    simp only [resolve?, severity?, isWarning]
    cases p.level r.line r.kind.overrideCodes with
    | disabled => exact .dropped isWarning
    | normal => exact .kept isWarning
    | error => exact .escalated isWarning

namespace Diagnostics

theorem report_suppressed (s : Diagnostics) (r : Report) :
    (s.report r).suppressed = s.suppressed + [s.policy.resolve? r].count none := by
  simp only [report, WarningPolicy.resolve?]
  cases s.policy.severity? r <;> rfl

theorem success_iff (s : Diagnostics) :
    s.success = true ↔ ∀ d ∈ s.toList, d.severity ≠ .error := by
  simp [success, errors]

end Diagnostics

namespace SinkHistory

/-- **A sink keeps what its rulings become**, in their order, and counts those that are dropped. -/
theorem exists_results (h : SinkHistory) :
    ∃ results, List.Forall₂ Ruling.Becomes h.rulings results ∧
      h.sink.toList = results.reduceOption ∧ h.sink.suppressed = results.count none := by
  induction h with
  | created policy => exact ⟨[], .nil, rfl, rfl⟩
  | report earlier r ih =>
    obtain ⟨results, become, kept, dropped⟩ := ih
    refine ⟨results ++ [earlier.policy.resolve? r], ?_, ?_, ?_⟩
    · exact List.rel_append become (.cons (earlier.policy.becomes_resolve? r) .nil)
    · rw [sink, Diagnostics.report_toList, sink_policy, kept, List.reduceOption_append,
        List.reduceOption_singleton]
    · rw [sink, Diagnostics.report_suppressed, sink_policy, dropped, List.count_append]
  | apply earlier fromLine code? action ih => exact ih
  | extend earlier other ih ihOther =>
    obtain ⟨results, become, kept, dropped⟩ := ih
    obtain ⟨others, becomeOthers, keptOthers, droppedOthers⟩ := ihOther
    refine ⟨results ++ others, List.rel_append become becomeOthers, ?_, ?_⟩
    · rw [sink, Diagnostics.extend_toList, kept, keptOthers, List.reduceOption_append]
    · rw [List.count_append, ← dropped, ← droppedOthers]
      rfl

/-- A sink succeeds when no ruling in its history is a failure. -/
theorem success_sink_iff (h : SinkHistory) :
    h.sink.success = true ↔ ∀ ruling ∈ h.rulings, ¬ ruling.IsFailure := by
  obtain ⟨results, become, kept, -⟩ := h.exists_results
  rw [Diagnostics.success_iff, kept]
  generalize h.rulings = rulings at become
  clear kept
  induction become with
  | nil => simp
  | @cons ruling result rulings results becomes _ ih =>
    rw [List.forall_mem_cons, becomes.isFailure_iff, ← ih]
    cases result <;> simp

end SinkHistory

/-- **A sink accounts for all that was reported to it.** Whatever calls it has seen, and whatever
policies the sinks had that were merged into it:
what it keeps and what it suppressed are together the reports made on it and what the merged sinks
kept and suppressed;
every report became what its kind and the level of that moment ask for, and what is kept stands in
the order of the reports;
and it succeeds exactly when no error was reported and no warning escalated, on it or on a sink that
was merged into it. -/
theorem sink_accounts (h : SinkHistory) :
    h.sink.policy = h.policy ∧
    h.sink.size + h.sink.suppressed =
      h.reported + (h.merged.map fun other => other.sink.size + other.sink.suppressed).sum ∧
    (∃ results, List.Forall₂ Ruling.Becomes h.rulings results ∧
      h.sink.toList = results.reduceOption ∧ h.sink.suppressed = results.count none) ∧
    (h.sink.success = true ↔ ∀ ruling ∈ h.rulings, ¬ ruling.IsFailure) :=
  ⟨h.sink_policy, h.heard_sink, h.exists_results, h.success_sink_iff⟩

end SharpFront
