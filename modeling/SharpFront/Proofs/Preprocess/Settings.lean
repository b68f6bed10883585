import SharpFront.Proofs.Output
import SharpFront.Proofs.Preprocess.Fates

/-!
# What the settings decide

No directive asks which tokens are kept, nor what becomes of a warning. So a run makes the same
steps whatever the settings say about these, and only its tokens and its diagnostics show them.

* `Standing.steps_withSettings`, `Standing.unitJournal_withSettings`: settings are carried along;
* `preprocess_keeping`: blanks and comments that are not kept are all that is missing;
* `preprocess_warningSettings`: the outputs under two settings about warnings are what is left of
  the same reports.
-/

namespace SharpFront

namespace Standing

/-! ## Settings are carried along -/

/-- The standing under other settings. -/
def withSettings (s : Standing) (settings : Settings) : Standing := { s with settings }

variable (s : Standing) (settings : Settings)

theorem apply_withSettings (f : Effects → Effects) :
    (s.withSettings settings).apply f = (s.apply f).withSettings settings := by
  have same : (s.withSettings settings).includesCode = s.includesCode := rfl
  simp only [apply, same]
  split <;> rfl

theorem directive_withSettings (d : DirectiveLine) :
    (s.withSettings settings).directive d = (s.directive d).withSettings settings := by
  cases names : d.word.token.directive? with
  | none =>
    simp only [directive, names]
    exact s.apply_withSettings settings d.effect
  | some w =>
    cases w with
    | ifWord | elseWord | endif =>
      simp only [directive, names]
      rfl
    | elif =>
      have same : (s.withSettings settings).conditions = s.conditions := rfl
      simp only [directive, names, same]
      split <;> rfl
    | _ =>
      simp only [directive, names]
      exact s.apply_withSettings settings d.effect

theorem step_withSettings (item : SourceItem) :
    ((s.withSettings settings).step item).1 = (s.step item).1.withSettings settings := by
  match item with
  | .token t => rfl
  | .directive hash leads [] => rfl
  | .directive hash leads (word :: operands) =>
    exact s.directive_withSettings settings ⟨word, operands⟩

theorem steps_withSettings (items : List SourceItem) :
    ((s.withSettings settings).steps items).1 = (s.steps items).1.withSettings settings := by
  induction items generalizing s with
  | nil => rfl
  | cons item items ih => simp only [steps, step_withSettings, ih]

theorem events_withSettings (item : SourceItem) :
    (s.withSettings settings).events item = s.events item := rfl

theorem journal_withSettings (items : List SourceItem) :
    (s.withSettings settings).journal items = s.journal items := by
  induction items generalizing s with
  | nil => rfl
  | cons item items ih => simp only [journal, step_withSettings, ih, events_withSettings]

theorem unitJournal_withSettings (input : List PositionedToken) :
    (s.withSettings settings).unitJournal input = s.unitJournal input := by
  simp only [unitJournal, journal_withSettings, steps_withSettings]
  rfl

variable {settings} {other : Settings}

theorem start_of_defines (same : other.defines = settings.defines) :
    start other = (start settings).withSettings other := by
  simp only [start, withSettings, same]

/-! ## Tokens that are kept -/

theorem kept_withSettings (more : ∀ t, settings.keeps t = true → other.keeps t = true)
    (item : SourceItem) :
    ((s.withSettings settings).step item).2 =
      ((s.withSettings other).step item).2.filter (settings.keeps ·.token) := by
  match item with
  | .directive hash leads [] => rfl
  | .directive hash leads (word :: operands) => rfl
  | .token t =>
    have here (settings : Settings) : ((s.withSettings settings).step (.token t)).2 =
        if s.includesCode && settings.keeps t.token then some (s.effects.position.place t)
        else none := rfl
    have placed : (s.effects.position.place t).token = t.token := rfl
    rw [here, here]
    cases s.includesCode with
    | false => rfl
    | true =>
      cases keeps : settings.keeps t.token with
      | true => simp [more _ keeps, Option.filter_some, placed, keeps]
      | false => cases other.keeps t.token <;> simp [Option.filter_some, placed, keeps]

/-- Settings that keep less leave out what they do not keep. -/
theorem tokens_withSettings (more : ∀ t, settings.keeps t = true → other.keeps t = true)
    (items : List SourceItem) :
    ((s.withSettings settings).steps items).2 =
      ((s.withSettings other).steps items).2.filter (settings.keeps ·.token) := by
  induction items generalizing s with
  | nil => rfl
  | cons item items ih =>
    simp only [steps, step_withSettings, List.filter_append, ← ih, s.kept_withSettings more,
      Option.toList_filter]

/-- Settings that keep the same leave the same. -/
theorem tokens_withSettings_of_keeps (same : settings.keeps = other.keeps)
    (items : List SourceItem) :
    ((s.withSettings settings).steps items).2 = ((s.withSettings other).steps items).2 := by
  have more : ∀ t, settings.keeps t = true → other.keeps t = true := fun t keeps => same ▸ keeps
  have kept : ((s.withSettings other).steps items).2 = _ :=
    s.tokens_withSettings (fun _ keeps => keeps) items
  rw [s.tokens_withSettings more items, same]
  exact kept.symm

end Standing

theorem journal_of_defines {settings other : Settings} (same : other.defines = settings.defines)
    (tokens : List PositionedToken) : journal other tokens = journal settings tokens := by
  have carried := (Standing.start settings).unitJournal_withSettings other tokens
  rw [← Standing.start_of_defines same] at carried
  exact carried

/-! ## Blanks and comments -/

/-- The settings with another choice of the tokens to keep. -/
def Settings.keeping (settings : Settings) (whitespace comments : Bool) : Settings :=
  { settings with keepWhitespace := whitespace, keepComments := comments }

theorem Settings.keeps_keeping (settings : Settings) (whitespace comments : Bool) (t : Token) :
    (settings.keeping whitespace comments).keeps t =
      ((whitespace || !t.isWhitespace) && (comments || !t.isComment)) := by
  unfold keeps keeping
  cases t <;> simp [Token.isWhitespace, Token.isComment]

/-- **Blanks and comments that are not kept are all that is missing.** Whether they are kept decides
about the tokens of the output alone, which are those of an output that keeps both without the
blanks and comments that are not to be kept. -/
theorem preprocess_keeping (file raw : String) (settings : Settings) (whitespace comments : Bool) :
    ∃ full, preprocess file raw (settings.keeping true true) = .ok full ∧
      preprocess file raw (settings.keeping whitespace comments) = .ok { full with
        tokens := full.tokens.filter fun t =>
          (whitespace || !t.token.isWhitespace) && (comments || !t.token.isComment) } := by
  obtain ⟨s, -, -, tokenized⟩ := exists_scan raw file
  refine ⟨_, preprocess_eq_told tokenized _, ?_⟩
  rw [preprocess_eq_told tokenized]
  have more : ∀ t, (settings.keeping whitespace comments).keeps t = true →
      (settings.keeping true true).keeps t = true := by
    intro t _
    rw [Settings.keeps_keeping]
    rfl
  have start (w c : Bool) : Standing.start (settings.keeping w c) =
      (Standing.start settings).withSettings (settings.keeping w c) := Standing.start_of_defines rfl
  have told (w c : Bool) : journal (settings.keeping w c) (s.tokens file) =
      journal settings (s.tokens file) := journal_of_defines (by rfl) _
  have found (w c : Bool) : (settings.keeping w c).found (s.tokens file) =
      settings.found (s.tokens file) := congrArg (Diagnostics.hearAll _) (told w c)
  simp only [Output.told, found, start, Standing.steps_withSettings,
    Standing.tokens_withSettings _ more, Settings.keeps_keeping]
  rfl

/-! ## Warnings -/

/-- The settings with other sets of warnings that are disabled and that count as errors. -/
def Settings.withWarningCodes (settings : Settings) (disabled asErrors : CodeSet) : Settings :=
  { settings with disabledWarnings := disabled, warningsAsErrors := asErrors }

/-- The reports that preprocessing makes of tokens, whatever becomes of them. -/
def Settings.reports (settings : Settings) (tokens : List PositionedToken) : List Report :=
  (journal settings tokens).filterMap Event.report?

namespace Settings

variable (settings : Settings) (tokens : List PositionedToken)

theorem found_areKept : AreKept (settings.reports tokens) (settings.found tokens).toList := by
  obtain ⟨found, kept, areKept⟩ :=
    ({ policy := settings.policy } : Diagnostics).exists_kept (journal settings tokens)
  have all : (settings.found tokens).toList = found := kept
  exact all ▸ areKept

theorem found_heard : (settings.found tokens).heard = (settings.reports tokens).length := by
  rw [found, Diagnostics.heard_hearAll]
  exact Nat.zero_add _

theorem found_entries :
    (settings.found tokens).policy.entries =
      (journal settings tokens).filterMap Event.entry? := by
  rw [found, Diagnostics.hearAll_policy]
  exact List.nil_append _

end Settings

theorem Output.toList_told (raw : String) (settings : Settings) (tokens : List PositionedToken)
    (scanned : Diagnostics) :
    (told raw settings tokens scanned).diagnostics.toList =
      scanned.toList ++ (settings.found tokens).toList := by
  rw [told, Diagnostics.extend_toList, Diagnostics.extend_toList]
  rfl

theorem Output.heard_told (raw : String) (settings : Settings) (tokens : List PositionedToken)
    (scanned : Diagnostics) :
    (told raw settings tokens scanned).diagnostics.heard =
      scanned.heard + (settings.reports tokens).length := by
  rw [told, Diagnostics.heard_extend, Diagnostics.heard_extend, settings.found_heard]
  exact congrArg (· + _) (Nat.zero_add _)

/-- **What becomes of warnings decides nothing else.** Under other sets of disabled warnings and of
warnings that count as errors the tokens, the symbols and the entries of the policy are the same,
and so are the errors, in their order. As many diagnostics are kept or suppressed. Preprocessing
tells every sink the same under both settings. What the outputs have beyond the diagnostics of
scanning is what sinks with the two policies make of it, so it is left of one list of reports:
warnings may be missing and may count as errors, and that is all that differs. -/
theorem preprocess_warningSettings (file raw : String) (settings : Settings)
    (disabled asErrors : CodeSet) :
    ∃ tokens scanned output other, tokenize raw file = .ok (tokens, scanned) ∧
      preprocess file raw settings = .ok output ∧
      preprocess file raw (settings.withWarningCodes disabled asErrors) = .ok other ∧
      other.tokens = output.tokens ∧ other.symbols = output.symbols ∧
      other.policy.entries = output.policy.entries ∧
      other.diagnostics.toList.filter (·.kind.severity = .error) =
        output.diagnostics.toList.filter (·.kind.severity = .error) ∧
      other.diagnostics.size + other.diagnostics.suppressed =
        output.diagnostics.size + output.diagnostics.suppressed ∧
      let events := journal settings tokens
      let reports := events.filterMap Event.report?
      let found := ({ policy := settings.policy } : Diagnostics).hearAll events
      let found' := ({ policy := (settings.withWarningCodes disabled asErrors).policy } :
        Diagnostics).hearAll events
      (∀ sink : Diagnostics, sink.policy.entries = [] →
        ({ PreprocessState.ofSettings settings with diagnostics := sink }.runUnit
          .default tokens).1.diagnostics = sink.hearAll events ∧
        ({ PreprocessState.ofSettings (settings.withWarningCodes disabled asErrors) with
          diagnostics := sink }.runUnit .default tokens).1.diagnostics = sink.hearAll events) ∧
      output.diagnostics.toList = scanned.toList ++ found.toList ∧
      other.diagnostics.toList = scanned.toList ++ found'.toList ∧
      AreKept reports found.toList ∧ AreKept reports found'.toList := by
  obtain ⟨s, -, -, tokenized⟩ := exists_scan raw file
  refine ⟨_, _, _, _, tokenized, preprocess_eq_told tokenized _, preprocess_eq_told tokenized _, ?_⟩
  have start : Standing.start (settings.withWarningCodes disabled asErrors) =
      (Standing.start settings).withSettings (settings.withWarningCodes disabled asErrors) :=
    Standing.start_of_defines rfl
  have same : journal (settings.withWarningCodes disabled asErrors) (s.tokens file) =
      journal settings (s.tokens file) := journal_of_defines (by rfl) _
  have reports : (settings.withWarningCodes disabled asErrors).reports (s.tokens file) =
      settings.reports (s.tokens file) := congrArg (List.filterMap Event.report?) same
  have kept := settings.found_areKept (s.tokens file)
  have kept' := (settings.withWarningCodes disabled asErrors).found_areKept (s.tokens file)
  rw [reports] at kept'
  have told' := Output.toList_told raw (settings.withWarningCodes disabled asErrors)
    (s.tokens file) (({} : Diagnostics).reportAll s.reports)
  have found' : (settings.withWarningCodes disabled asErrors).found (s.tokens file) =
      ({ policy := (settings.withWarningCodes disabled asErrors).policy } : Diagnostics).hearAll
        (journal settings (s.tokens file)) := congrArg (Diagnostics.hearAll _) same
  refine ⟨?tokens, ?symbols, ?entries, ?errors, ?heard, ?events, Output.toList_told _ _ _ _,
    found' ▸ told', kept, found' ▸ kept'⟩
  case tokens =>
    simp only [Output.told, start]
    exact (Standing.start settings).tokens_withSettings_of_keeps (by rfl) _
  case symbols =>
    simp only [Output.told, start, Standing.steps_withSettings]
    rfl
  case entries =>
    rw [Output.told, Output.told, Settings.found_entries, Settings.found_entries, same]
  case errors =>
    simp only [Output.toList_told, List.filter_append, kept.errors_eq, kept'.errors_eq]
  case heard =>
    have total := Output.heard_told raw settings (s.tokens file)
      (({} : Diagnostics).reportAll s.reports)
    rw [← reports] at total
    exact (Output.heard_told raw _ _ _).trans total.symm
  case events =>
    intro sink noEntries
    have told := diagnostics_of_settings (settings.withWarningCodes disabled asErrors)
      (s.tokens file) noEntries
    rw [same] at told
    exact ⟨diagnostics_of_settings settings _ noEntries, told⟩

/-- The tokens of a `#warning` and of an `#error`. -/
def warningThenError : List PositionedToken :=
  [⟨.operator .hash, "main.cs", 1, 1, 1, false⟩,
    ⟨.directiveMessage .warning ⟨9, "a"⟩, "main.cs", 1, 2, 9, false⟩,
    ⟨.whitespace, "main.cs", 1, 11, 1, false⟩, ⟨.operator .hash, "main.cs", 2, 1, 1, false⟩,
    ⟨.directiveMessage .error ⟨18, "b"⟩, "main.cs", 2, 2, 7, false⟩]

/-- A `#warning` that is disabled is suppressed, and the `#error` after it is reported as before. -/
theorem preprocess_warningSettings_disabled :
    ∃ output other, preprocess "main.cs" "#warning a\n#error b" {} = .ok output ∧
      preprocess "main.cs" "#warning a\n#error b"
        (({} : Settings).withWarningCodes (.ofList [1030]) ∅) = .ok other ∧
      output.diagnostics.toList =
        [⟨.userWarning "a", .warning, 1, 2, 9⟩, ⟨.userError "b", .error, 2, 2, 7⟩] ∧
      other.diagnostics.toList = [⟨.userError "b", .error, 2, 2, 7⟩] ∧
      other.diagnostics.suppressed = 1 + output.diagnostics.suppressed := by
  obtain ⟨tokenized, -⟩ := preprocess_guided "main.cs" "#warning a\n#error b"
    [.operator .hash, .word, .whitespace, .operator .hash, .word] warningThenError (by decide)
    (by decide_cbv) (by cbv) rfl
  obtain ⟨tokens, scanned, output, other, isTokens, run, run', -, -, -, -, total, -, told, told',
    -⟩ := preprocess_warningSettings "main.cs" "#warning a\n#error b" {} (.ofList [1030]) ∅
  obtain ⟨rfl, rfl⟩ := Prod.mk.inj (Except.ok.inj (isTokens.symm.trans tokenized))
  have kept : output.diagnostics.toList =
      [⟨.userWarning "a", .warning, 1, 2, 9⟩, ⟨.userError "b", .error, 2, 2, 7⟩] :=
    told.trans (by decide +kernel)
  have kept' : other.diagnostics.toList = [⟨.userError "b", .error, 2, 2, 7⟩] :=
    told'.trans (by decide +kernel)
  refine ⟨output, other, run, run', kept, kept', ?_⟩
  have size : output.diagnostics.size = 2 := congrArg List.length kept
  have size' : other.diagnostics.size = 1 := congrArg List.length kept'
  omega

end SharpFront
