import SharpFront.Proofs.Preprocess.Fates
import SharpFront.Proofs.Scan.ReportOrder

/-!
# The order of diagnostics

What scanning finds comes before what preprocessing finds. Each part is in the order of the text: of
two diagnostics of scanning the later one stands further on, and the lines of preprocessing do not
go back, although excess operands and groups are reported before what precedes them on their line.
Places have no bound here; `Checked.preprocess_eq_ok` is for counters of 32 bits.

* `reportAll_ordered`, `hearAll_ordered`: a sink keeps the order of what it hears;
* `preprocess_ordered`: the diagnostics of a text.
-/

namespace SharpFront

namespace Diagnostics

/-- A sink without entries keeps reports in the order in which they are made. -/
theorem reportAll_ordered {policy : WarningPolicy} {rs : List Report}
    (h : rs.Pairwise fun a b => a.position < b.position) :
    (({ policy := policy } : Diagnostics).reportAll rs).toList.Pairwise
      fun a b => a.position < b.position := by
  have kept := ({ policy := policy } : Diagnostics).reportAll_toList rs
  rw [kept]
  refine List.Pairwise.filterMap _ ?_ h
  intro a b before d isFirst e isSecond
  obtain ⟨severity, -, rfl⟩ := Option.map_eq_some_iff.mp isFirst
  obtain ⟨severity', -, rfl⟩ := Option.map_eq_some_iff.mp isSecond
  exact before

theorem hearAll_ordered {policy : WarningPolicy} {events : List Event}
    (h : events.Pairwise fun a b => a.line ≤ b.line) :
    (({ policy := policy } : Diagnostics).hearAll events).toList.Pairwise
      fun a b => a.line ≤ b.line := by
  obtain ⟨found, kept, lines⟩ := ({ policy := policy } : Diagnostics).exists_hearAll_sublist events
  have ordered : (found.map (·.line)).Pairwise (· ≤ ·) := (List.pairwise_map.mpr h).sublist lines
  rw [kept]
  exact List.pairwise_map.mp ordered

end Diagnostics

/-- **Diagnostics come in the order of the text.** Those of scanning come first, each further on in
the text than the one before it; then come those of preprocessing, line by line. -/
theorem preprocess_ordered (file raw : String) (settings : Settings) :
    ∃ output tokens scanned, preprocess file raw settings = .ok output ∧
      tokenize raw file = .ok (tokens, scanned) ∧
      let (p, _) := ((Preprocessor.ofSettings settings).setInput tokens).run
      let found := p.state.diagnostics
      output.diagnostics.toList = scanned.toList ++ found.toList ∧
      (scanned.toList.Pairwise fun a b => a.position < b.position) ∧
      (found.toList.Pairwise fun a b => a.line ≤ b.line) := by
  obtain ⟨s, reached, -, tokenized⟩ := exists_scan raw file
  obtain ⟨output, run, -, diagnostics⟩ := exists_preprocess settings tokenized
  have settled : (journal settings (s.tokens file)).Pairwise Event.Settles :=
    Standing.unitJournal_settled (reached.inLines file) _
  have told : ((PreprocessState.ofSettings settings).runUnit .default (s.tokens file)).1.diagnostics =
      ({ policy := settings.policy } : Diagnostics).hearAll (journal settings (s.tokens file)) :=
    diagnostics_runUnit _ _
  refine ⟨output, s.tokens file, _, run, tokenized, ?parts, ?scanned, ?found⟩
  case parts =>
    rw [diagnostics, Diagnostics.extend_toList, Diagnostics.extend_toList, ← told]
    rfl
  case scanned => exact Diagnostics.reportAll_ordered reached.ordered
  case found =>
    have ordered : (({ policy := settings.policy } : Diagnostics).hearAll
        (journal settings (s.tokens file))).toList.Pairwise fun a b => a.line ≤ b.line :=
      Diagnostics.hearAll_ordered (settled.imp fun settles => settles.line_le)
    rw [← told] at ordered
    exact ordered

end SharpFront
