import SharpFront.Proofs.Preprocess.Settings
import SharpFront.Proofs.Preprocess.Survivors

/-!
# One unit after the other

What a unit leaves open ends with it, in three places: conditions and positions where the next unit
begins, the tokens when they are taken, diagnostics and the entries of the policy where they are
handed out. Only the symbols stay.

* `UnitOutcome`, `Preprocessor.takeUnit`: what shows of a unit;
* `Preprocessor.IsIdle`: what a preprocessor is between two units, whatever the units were;
* `takeUnit_eq`, `isIdle_takeUnit`: one unit depends on the symbols alone, and leaves the
  preprocessor idle;
* `takeUnits_eq_fresh`: each unit as if by a preprocessor of its own.
-/

namespace SharpFront

/-- What shows of a unit: its tokens, its diagnostics with their policy, and the symbols after it. -/
structure UnitOutcome where
  result : Except Failure (List PositionedToken)
  diagnostics : Diagnostics
  symbols : SymbolSet

/-- The settings with other symbols to start from. -/
def Settings.defining (settings : Settings) (symbols : SymbolSet) : Settings :=
  { settings with defines := symbols }

namespace Preprocessor

/-- Takes a unit and hands out its diagnostics. -/
def takeUnit (p : Preprocessor) (unit : List PositionedToken) : Preprocessor × UnitOutcome :=
  let (p, result) := (p.setInput unit).run
  let (p, diagnostics) := p.takeDiagnostics
  (p, { result, diagnostics, symbols := p.state.symbols })

def takeUnits (p : Preprocessor) : List (List PositionedToken) → Preprocessor × List UnitOutcome
  | [] => (p, [])
  | unit :: units =>
    let (p, outcome) := p.takeUnit unit
    let (p, later) := p.takeUnits units
    (p, outcome :: later)

end Preprocessor

/-- Each unit by a preprocessor of its own, which starts with the symbols that the unit before it
left. -/
def Settings.freshOutcomes (settings : Settings) : List (List PositionedToken) → List UnitOutcome
  | [] => []
  | unit :: units =>
    let outcome := ((Preprocessor.ofSettings settings).takeUnit unit).2
    outcome :: (settings.defining outcome.symbols).freshOutcomes units

/-! ## One unit -/

/-- What shows of a unit that a standing takes, where the sink has a policy and nothing else. -/
def Standing.outcome (s : Standing) (policy : WarningPolicy) (unit : List PositionedToken) :
    UnitOutcome where
  result := .ok (s.steps (SourceItem.ofTokens none unit)).2
  diagnostics := ({ policy } : Diagnostics).hearAll (s.unitJournal unit)
  symbols := (s.steps (SourceItem.ofTokens none unit)).1.effects.symbols

/-- Which symbols the settings define does not show, once a standing has symbols of its own. -/
theorem Standing.outcome_withSettings (s : Standing) {settings other : Settings}
    (same : settings.keeps = other.keeps) (policy : WarningPolicy) (unit : List PositionedToken) :
    (s.withSettings settings).outcome policy unit = (s.withSettings other).outcome policy unit := by
  simp only [outcome, unitJournal_withSettings, steps_withSettings,
    s.tokens_withSettings_of_keeps same]
  rfl

namespace Preprocessor

variable {settings : Settings} {p : Preprocessor}

/-- The default handlers are in place and no diagnostics wait to be taken. Conditions and position
may be anything, since the next unit starts without them. -/
structure IsIdle (settings : Settings) (p : Preprocessor) : Prop where
  settings_eq : p.state.settings = settings
  table_eq : p.table = .default
  diagnostics_eq : p.state.diagnostics = { policy := settings.policy }

theorem isIdle_ofSettings (settings : Settings) : (ofSettings settings).IsIdle settings :=
  ⟨rfl, rfl, rfl⟩

/-- An idle preprocessor takes a unit from the standing of its settings and symbols. -/
theorem takeUnit_eq_outcome (idle : p.IsIdle settings) (unit : List PositionedToken) :
    (p.takeUnit unit).2 =
      ((Standing.start (settings.defining p.state.symbols)).withSettings settings).outcome
        settings.policy unit := by
  have starts : (p.setInput unit).state.standing =
      (Standing.start (settings.defining p.state.symbols)).withSettings settings := by
    simp only [setInput, PreprocessState.standing, PreprocessState.effects, idle.settings_eq,
      idle.diagnostics_eq]
    rfl
  obtain ⟨standing, output⟩ := standing_runUnit (p.setInput unit).state unit
  have told := diagnostics_runUnit (p.setInput unit).state unit
  have found : (p.setInput unit).state.diagnostics = { policy := settings.policy } :=
    idle.diagnostics_eq
  have symbols := congrArg (fun s : Standing => s.effects.symbols) standing
  have shown : (p.takeUnit unit).2 =
      { result := .ok ((p.setInput unit).state.runUnit p.table unit).2
        diagnostics := ((p.setInput unit).state.runUnit p.table unit).1.diagnostics
        symbols := ((p.setInput unit).state.runUnit p.table unit).1.standing.effects.symbols } := rfl
  rw [starts] at output told symbols
  rw [shown, idle.table_eq, output, told, found, symbols]
  rfl

/-- **A unit depends on the symbols alone.** An idle preprocessor takes it as a fresh one does whose
settings define the symbols. -/
theorem takeUnit_eq (idle : p.IsIdle settings) (unit : List PositionedToken) :
    (p.takeUnit unit).2 =
      ((ofSettings (settings.defining p.state.symbols)).takeUnit unit).2 := by
  rw [takeUnit_eq_outcome idle, takeUnit_eq_outcome (isIdle_ofSettings _)]
  have keeps : settings.keeps = (settings.defining p.state.symbols).keeps := rfl
  exact Standing.outcome_withSettings (.start (settings.defining p.state.symbols)) keeps
    settings.policy unit

/-- Whatever a unit leaves open, the preprocessor is idle after it. -/
theorem isIdle_takeUnit (idle : p.IsIdle settings) (unit : List PositionedToken) :
    (p.takeUnit unit).1.IsIdle settings := by
  have kept : ((p.setInput unit).state.runUnit p.table unit).1.settings = settings := by
    have standing := congrArg Standing.settings (standing_runUnit (p.setInput unit).state unit).1
    rw [Standing.steps_settings] at standing
    rw [idle.table_eq]
    exact standing.trans idle.settings_eq
  have policy := congrArg Settings.policy kept
  exact ⟨kept, idle.table_eq, congrArg (fun policy => ({ policy } : Diagnostics)) policy⟩

/-! ## All units -/

/-- The symbols after a unit are those that show of it. -/
theorem symbols_takeUnit (p : Preprocessor) (unit : List PositionedToken) :
    (p.takeUnit unit).1.state.symbols = (p.takeUnit unit).2.symbols := rfl

theorem takeUnits_eq (idle : p.IsIdle settings) (units : List (List PositionedToken)) :
    (p.takeUnits units).2 = (settings.defining p.state.symbols).freshOutcomes units := by
  induction units generalizing p with
  | nil => rfl
  | cons unit units ih =>
    have here := takeUnit_eq idle unit
    have later := ih (isIdle_takeUnit idle unit)
    rw [symbols_takeUnit, here] at later
    simp only [takeUnits, Settings.freshOutcomes, here, later]
    rfl

end Preprocessor

/-- **Each unit as if by a preprocessor of its own.** A preprocessor that takes units one after the
other makes of each what a fresh one makes of it that has the same settings, but starts with the
symbols that the unit before it left: the same tokens, which are always there, the same diagnostics
with as many suppressed and the same policy, and the same symbols. -/
theorem takeUnits_eq_fresh (settings : Settings) (units : List (List PositionedToken)) :
    ((Preprocessor.ofSettings settings).takeUnits units).2 = settings.freshOutcomes units ∧
      ∀ outcome ∈ settings.freshOutcomes units, ∃ tokens, outcome.result = .ok tokens := by
  refine ⟨Preprocessor.takeUnits_eq (Preprocessor.isIdle_ofSettings settings) units, ?_⟩
  induction units generalizing settings with
  | nil => exact List.forall_mem_nil _
  | cons unit units ih =>
    refine List.forall_mem_cons.mpr ⟨?_, ih _⟩
    rw [Preprocessor.takeUnit_eq_outcome (Preprocessor.isIdle_ofSettings settings)]
    exact ⟨_, rfl⟩

end SharpFront
