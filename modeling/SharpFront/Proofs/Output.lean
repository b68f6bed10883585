import SharpFront.Proofs.Preprocess.Journal
import SharpFront.Proofs.Scan.LongestMatch

/-!
# The output of preprocessing

What preprocessing makes of a text, from its tokens and what scanning reports.

* `preprocess_eq`: by the state in which the run over the tokens ends;
* `preprocess_eq_told`: by the standing and the journal, with no reference to the handlers;
* `preprocess_guided`: of a text that is scanned along forms that prevail.
-/

namespace SharpFront

/-- The output where preprocessing ends in a state and leaves tokens behind. -/
def Output.ofUnit (raw : String) (scanned : Diagnostics)
    (unit : PreprocessState × List PositionedToken) : Output where
  tokens := unit.2
  diagnostics := (({ policy := unit.1.diagnostics.policy } : Diagnostics).extend scanned).extend
    unit.1.diagnostics
  symbols := unit.1.symbols
  policy := unit.1.diagnostics.policy
  source := .ofRaw raw

theorem Output.diagnostics_ofUnit (raw : String) (scanned : Diagnostics) (s : PreprocessState)
    (tokens : List PositionedToken) :
    (ofUnit raw scanned (s, tokens)).diagnostics.toList =
      scanned.toList ++ s.diagnostics.toList := by
  rw [ofUnit, Diagnostics.extend_toList, Diagnostics.extend_toList]
  rfl

theorem preprocess_eq {file raw : String} {tokens : List PositionedToken} {scanned : Diagnostics}
    (tokenized : tokenize raw file = .ok (tokens, scanned)) (settings : Settings) :
    preprocess file raw settings = .ok (.ofUnit raw scanned
      ((PreprocessState.ofSettings settings).runUnit .default tokens)) := by
  simp only [preprocess, tokenized]
  rfl

/-! ## By the standing and the journal -/

/-- The standing before the first token. -/
def Standing.start (settings : Settings) : Standing := ⟨settings, {}, ⟨settings.defines, {}, []⟩⟩

/-- What the sink has at the end, if it starts from the policy of the settings. -/
def Settings.found (settings : Settings) (tokens : List PositionedToken) : Diagnostics :=
  ({ policy := settings.policy } : Diagnostics).hearAll (journal settings tokens)

/-- The output from tokens and what scanning reports. -/
def Output.told (raw : String) (settings : Settings) (tokens : List PositionedToken)
    (scanned : Diagnostics) : Output where
  tokens := ((Standing.start settings).steps (SourceItem.ofTokens none tokens)).2
  diagnostics := (({ policy := (settings.found tokens).policy } : Diagnostics).extend
    scanned).extend (settings.found tokens)
  symbols := ((Standing.start settings).steps (SourceItem.ofTokens none tokens)).1.effects.symbols
  policy := (settings.found tokens).policy
  source := .ofRaw raw

theorem preprocess_eq_told {file raw : String} {tokens : List PositionedToken}
    {scanned : Diagnostics} (tokenized : tokenize raw file = .ok (tokens, scanned))
    (settings : Settings) :
    preprocess file raw settings = .ok (.told raw settings tokens scanned) := by
  obtain ⟨standing, output⟩ := standing_runUnit (PreprocessState.ofSettings settings) tokens
  have symbols := congrArg (fun s : Standing => s.effects.symbols) standing
  have found : ((PreprocessState.ofSettings settings).runUnit .default tokens).1.diagnostics =
      settings.found tokens := diagnostics_runUnit _ tokens
  rw [preprocess_eq tokenized, Output.ofUnit, found, output]
  exact congrArg (fun symbols => Except.ok { Output.told raw settings tokens scanned with symbols })
    symbols

/-! ## Along forms that prevail -/

/-- What preprocessing makes of a text along forms that prevail. -/
theorem preprocess_guided (file raw : String) (forms : List Form) (tokens : List PositionedToken)
    {reports : List Report} (prevail : ∀ form ∈ forms, form ∈ defaultCatalog ∧ Scan.Prevails form)
    (atEnd : (({ rest := normalize raw.toList } : Scan).guided forms).rest = [])
    (isTokens : (({ rest := normalize raw.toList } : Scan).guided forms).tokens file = tokens)
    (isReports : (({ rest := normalize raw.toList } : Scan).guided forms).reports = reports) :
    tokenize raw file = .ok (tokens, ({} : Diagnostics).reportAll reports) ∧
      ∀ settings, preprocess file raw settings =
        .ok (.ofUnit raw (({} : Diagnostics).reportAll reports)
          ((PreprocessState.ofSettings settings).runUnit .default tokens)) := by
  have tokenized := tokenize_guided file raw forms tokens prevail atEnd isTokens isReports
  exact ⟨tokenized, preprocess_eq tokenized⟩

end SharpFront
