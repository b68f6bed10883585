import SharpFront.Proofs.Output

/-!
# What the defined symbols decide

Nothing but the condition of an `#if` or `#elif` asks for a symbol. So two sets of symbols that
agree on the words of the conditions lead to the same output, but for the symbols themselves, and
these still differ only where the sets did.

* `Condition.evaluate_congr`: a condition depends on the symbols among its words;
* `conditionWords`: the words of all conditions of a text;
* `Standing.AgreesOn`: two standings that agree on some words, kept by every item;
* `preprocess_defines`: the output under two sets of symbols.
-/

namespace SharpFront

/-! ## Conditions -/

namespace Condition

variable {defined defined' : String → Bool}

theorem term?_congr {t : Token} (agree : ∀ w ∈ t.word?, defined w = defined' w) :
    term? defined t = term? defined' t := by
  unfold term?
  split
  · rfl
  · rfl
  · rfl
  · rfl
  · exact Option.map_congr fun w isWord => congrArg Term.value (agree w isWord)

theorem step_congr {entry : PositionedToken × Nat}
    (agree : ∀ w ∈ entry.1.token.word?, defined w = defined' w) (r : Reading) :
    r.step defined entry = r.step defined' entry := by
  simp only [Reading.step, term?_congr agree]

theorem read_congr {tokens : List PositionedToken}
    (agree : ∀ t ∈ tokens, ∀ w ∈ t.token.word?, defined w = defined' w) :
    Reading.read defined tokens = Reading.read defined' tokens := by
  refine List.foldl_ext _ _ _ ?_
  intro r entry isEntry
  exact step_congr (agree _ (List.fst_mem_of_mem_zipIdx isEntry)) r

/-- A condition asks for no other symbols than its words. -/
theorem evaluate_congr {tokens : List PositionedToken} (anchor : PositionedToken)
    (agree : ∀ t ∈ tokens, ∀ w ∈ t.token.word?, defined w = defined' w) :
    evaluate defined tokens anchor = evaluate defined' tokens anchor := by
  have front (n : Nat) : ∀ t ∈ tokens.take n, ∀ w ∈ t.token.word?, defined w = defined' w :=
    fun t isToken => agree t (List.mem_of_mem_take isToken)
  simp only [evaluate, read_congr agree, read_congr (front _)]

end Condition

/-- The words of the condition of an `#if` or `#elif`. -/
def DirectiveLine.conditionWords (d : DirectiveLine) : List String :=
  match d.word.token.directive? with
  | some .ifWord | some .elif => d.operands.filterMap (·.token.word?)
  | _ => []

def SourceItem.conditionWords : SourceItem → List String
  | .directive _ _ (word :: operands) => DirectiveLine.conditionWords ⟨word, operands⟩
  | _ => []

/-- The words of all the conditions among tokens. -/
def conditionWords (tokens : List PositionedToken) : List String :=
  (SourceItem.ofTokens none tokens).flatMap SourceItem.conditionWords

namespace DirectiveLine

variable {d : DirectiveLine} {symbols symbols' : SymbolSet}

theorem condition_congr (isCondition : d.word.token.directive? = some .ifWord ∨
      d.word.token.directive? = some .elif)
    (agree : ∀ w ∈ d.conditionWords, symbols'.contains w = symbols.contains w) :
    d.holds symbols' = d.holds symbols ∧
      d.conditionReports symbols' = d.conditionReports symbols := by
  have words : d.conditionWords = d.operands.filterMap (·.token.word?) := by
    unfold conditionWords
    rcases isCondition with names | names <;> rw [names]
  have same : Condition.evaluate symbols'.contains d.operands d.word =
      Condition.evaluate symbols.contains d.operands d.word := by
    apply Condition.evaluate_congr
    intro t isToken w isWord
    apply agree
    rw [words]
    exact List.mem_filterMap.mpr ⟨t, isToken, isWord⟩
  exact ⟨congrArg Prod.fst same, congrArg Prod.snd same⟩

end DirectiveLine

/-! ## Agreement -/

/-- The same but for the symbols, which are the same among some words. -/
structure Effects.AgreesOn (words : Set String) (e f : Effects) : Prop where
  symbols : ∀ w ∈ words, f.symbols.contains w = e.symbols.contains w
  position : f.position = e.position
  entries : f.entries = e.entries

namespace Standing

/-- Two standings keep the same tokens and are the same but for symbols that are not among some
words. -/
structure AgreesOn (words : Set String) (s t : Standing) : Prop where
  keeps : t.settings.keeps = s.settings.keeps
  conditions : t.conditions = s.conditions
  effects : s.effects.AgreesOn words t.effects

end Standing

variable {words : Set String}

theorem Effects.AgreesOn.effect {e f : Effects} (h : e.AgreesOn words f) (d : DirectiveLine) :
    (d.effect e).AgreesOn words (d.effect f) := by
  cases names : d.word.token.directive? with
  | none =>
    simp only [DirectiveLine.effect, names]
    exact h
  | some word =>
    cases word with
    | define | undef =>
      simp only [DirectiveLine.effect, names]
      refine ⟨?_, h.position, h.entries⟩
      intro w isWord
      cases d.subject? with
      | none => exact h.symbols w isWord
      | some symbol =>
        simp only [Option.map_some, Option.getD_some, Std.TreeSet.contains_insert,
          Std.TreeSet.contains_erase, h.symbols w isWord]
    | line =>
      simp only [DirectiveLine.effect, names]
      exact ⟨h.symbols, congrArg d.moved h.position, h.entries⟩
    | pragma =>
      simp only [DirectiveLine.effect, names]
      exact ⟨h.symbols, h.position, congrArg (· ++ d.newEntries) h.entries⟩
    | _ =>
      simp only [DirectiveLine.effect, names]
      exact h

namespace Standing.AgreesOn

variable {s t : Standing}

theorem includesCode_eq (h : s.AgreesOn words t) : t.includesCode = s.includesCode :=
  congrArg ConditionStack.includesCode h.conditions

theorem apply (h : s.AgreesOn words t) (d : DirectiveLine) :
    (s.apply d.effect).AgreesOn words (t.apply d.effect) := by
  unfold Standing.apply
  rw [h.includesCode_eq]
  split
  · exact ⟨h.keeps, h.conditions, h.effects.effect d⟩
  · exact h

/-- The condition of a directive is read in the same way. -/
theorem condition_eq (h : s.AgreesOn words t) {d : DirectiveLine}
    (covered : ∀ w ∈ d.conditionWords, w ∈ words)
    (isCondition : d.word.token.directive? = some .ifWord ∨
      d.word.token.directive? = some .elif) :
    d.holds t.effects.symbols = d.holds s.effects.symbols ∧
      d.conditionReports t.effects.symbols = d.conditionReports s.effects.symbols := by
  apply DirectiveLine.condition_congr isCondition
  intro w isWord
  exact h.effects.symbols w (covered w isWord)

/-- The open conditions change in the same way. -/
theorem within (h : s.AgreesOn words t) {conditions conditions' : ConditionStack}
    (same : conditions' = conditions) :
    { s with conditions }.AgreesOn words { t with conditions := conditions' } :=
  ⟨h.keeps, same, h.effects⟩

theorem directive (h : s.AgreesOn words t) {d : DirectiveLine}
    (covered : ∀ w ∈ d.conditionWords, w ∈ words) :
    (s.directive d).AgreesOn words (t.directive d) := by
  cases names : d.word.token.directive? with
  | none =>
    simp only [Standing.directive, names]
    exact h.apply d
  | some word =>
    cases word with
    | ifWord =>
      have holds := (h.condition_eq covered (.inl names)).1
      simp only [Standing.directive, names, holds, h.conditions]
      exact h.within rfl
    | elif =>
      have holds := (h.condition_eq covered (.inr names)).1
      simp only [Standing.directive, names, holds, h.conditions]
      split
      · exact h.within rfl
      · exact h
    | elseWord | endif =>
      simp only [Standing.directive, names, h.conditions]
      exact h.within rfl
    | _ =>
      simp only [Standing.directive, names]
      exact h.apply d

theorem reports_eq (h : s.AgreesOn words t) {d : DirectiveLine}
    (covered : ∀ w ∈ d.conditionWords, w ∈ words) : t.reports d = s.reports d := by
  have continues : t.continues = s.continues :=
    congrArg (fun conditions => conditions.top?.any (!·.isFinal)) h.conditions
  unfold Standing.reports
  simp only [h.includesCode_eq, h.conditions, continues]
  split
  · next names => rw [(h.condition_eq covered (.inl names)).2]
  · next names => rw [(h.condition_eq covered (.inr names)).2]
  all_goals rfl

theorem step (h : s.AgreesOn words t) {item : SourceItem}
    (covered : ∀ w ∈ item.conditionWords, w ∈ words) :
    (s.step item).1.AgreesOn words (t.step item).1 ∧ (t.step item).2 = (s.step item).2 := by
  match item with
  | .directive hash leads [] => exact ⟨h, rfl⟩
  | .directive hash leads (word :: operands) => exact ⟨h.directive covered, rfl⟩
  | .token u =>
    refine ⟨h, ?_⟩
    simp only [Standing.step, h.includesCode_eq, h.keeps, h.effects.position]

theorem events_eq (h : s.AgreesOn words t) {item : SourceItem}
    (covered : ∀ w ∈ item.conditionWords, w ∈ words) : t.events item = s.events item := by
  match item with
  | .token u => rfl
  | .directive hash leads [] => rfl
  | .directive hash leads (word :: operands) =>
    simp only [Standing.events, Standing.bodyEvents, Standing.directiveEvents,
      h.includesCode_eq, h.reports_eq covered]

/-- Standings that agree on the words of the conditions go on in agreement, leave the same tokens
and have the same to say. -/
theorem steps (h : s.AgreesOn words t) {items : List SourceItem}
    (covered : ∀ item ∈ items, ∀ w ∈ item.conditionWords, w ∈ words) :
    (s.steps items).1.AgreesOn words (t.steps items).1 ∧
      (t.steps items).2 = (s.steps items).2 ∧ t.journal items = s.journal items := by
  induction items generalizing s t with
  | nil => exact ⟨h, rfl, rfl⟩
  | cons item items ih =>
    obtain ⟨here, later⟩ := List.forall_mem_cons.mp covered
    obtain ⟨agree, kept⟩ := h.step here
    obtain ⟨agree, tokens, journal⟩ := ih agree later
    refine ⟨agree, ?_, ?_⟩
    · simp only [Standing.steps, kept, tokens]
    · rw [Standing.journal, Standing.journal, h.events_eq here, journal]

theorem closing_eq (h : s.AgreesOn words t) (input : List PositionedToken) :
    t.closing input = s.closing input := by
  simp only [Standing.closing, h.conditions]

end Standing.AgreesOn

/-- **Only conditions ask for symbols.** Two sets of symbols that agree on every word in the
condition of an `#if` or `#elif` lead to the same tokens, diagnostics and policy, and the symbols at
the end differ at most where the two sets do. -/
theorem preprocess_defines (file raw : String) (settings : Settings) (defines : SymbolSet)
    {tokens : List PositionedToken} {scanned : Diagnostics}
    (tokenized : tokenize raw file = .ok (tokens, scanned))
    (agree : ∀ w ∈ conditionWords tokens, defines.contains w = settings.defines.contains w) :
    ∃ output other, preprocess file raw settings = .ok output ∧
      preprocess file raw { settings with defines } = .ok other ∧
      other.tokens = output.tokens ∧ other.diagnostics = output.diagnostics ∧
      other.policy = output.policy ∧
      ∀ w, other.symbols.contains w ≠ output.symbols.contains w →
        defines.contains w ≠ settings.defines.contains w := by
  refine ⟨_, _, preprocess_eq_told tokenized _, preprocess_eq_told tokenized _, ?_⟩
  have start : (Standing.start settings).AgreesOn
      { w | defines.contains w = settings.defines.contains w }
      (Standing.start { settings with defines }) :=
    ⟨rfl, rfl, fun w same => same, rfl, rfl⟩
  have covered : ∀ item ∈ SourceItem.ofTokens none tokens, ∀ w ∈ item.conditionWords,
      w ∈ { w | defines.contains w = settings.defines.contains w } := by
    intro item isItem w isWord
    exact agree w (List.mem_flatMap.mpr ⟨item, isItem, isWord⟩)
  obtain ⟨agrees, kept, told⟩ := start.steps covered
  have found : ({ settings with defines } : Settings).found tokens = settings.found tokens := by
    have journals : journal { settings with defines } tokens = journal settings tokens :=
      congrArg₂ (· ++ ·) told (agrees.closing_eq tokens)
    exact congrArg (Diagnostics.hearAll _) journals
  refine ⟨kept, ?_, ?_, ?_⟩
  · simp only [Output.told, found]
  · simp only [Output.told, found]
  · intro w differ same
    exact differ (agrees.effects.symbols w same)

/-- The tokens of the lines `#if A`, `#undef B` and `#endif`. -/
def withdrawal : List PositionedToken :=
  [⟨.operator .hash, "main.cs", 1, 1, 1, false⟩, ⟨.directive .ifWord, "main.cs", 1, 2, 2, false⟩,
    ⟨.whitespace, "main.cs", 1, 4, 1, false⟩, ⟨.identifier ⟨4, "A"⟩, "main.cs", 1, 5, 1, false⟩,
    ⟨.whitespace, "main.cs", 1, 6, 1, false⟩, ⟨.operator .hash, "main.cs", 2, 1, 1, false⟩,
    ⟨.directive .undef, "main.cs", 2, 2, 5, false⟩, ⟨.whitespace, "main.cs", 2, 7, 1, false⟩,
    ⟨.identifier ⟨13, "B"⟩, "main.cs", 2, 8, 1, false⟩, ⟨.whitespace, "main.cs", 2, 9, 1, false⟩,
    ⟨.operator .hash, "main.cs", 3, 1, 1, false⟩, ⟨.directive .endif, "main.cs", 3, 2, 5, false⟩]

/-- One set has `B`, which is withdrawn, and `C`; the other has neither, and no condition asks. -/
theorem preprocess_defines_undef :
    tokenize "#if A\n#undef B\n#endif" "main.cs" = .ok (withdrawal, {}) ∧
      conditionWords withdrawal = ["A"] ∧
      ∃ output other,
        preprocess "main.cs" "#if A\n#undef B\n#endif" (.withDefines ["A", "B", "C"]) = .ok output ∧
        preprocess "main.cs" "#if A\n#undef B\n#endif" (.withDefines ["A"]) = .ok other ∧
        other.tokens = output.tokens ∧ other.diagnostics = output.diagnostics ∧
        other.policy = output.policy := by
  obtain ⟨tokenized, -⟩ := preprocess_guided "main.cs" "#if A\n#undef B\n#endif"
    [.operator .hash, .word, .whitespace, .word, .whitespace, .operator .hash, .word, .whitespace,
      .word, .whitespace, .operator .hash, .word] withdrawal
    (by decide) (by decide_cbv) (by cbv) rfl
  have words : conditionWords withdrawal = ["A"] := by cbv
  obtain ⟨output, other, run, run', kept, told, policy, -⟩ := preprocess_defines "main.cs"
    "#if A\n#undef B\n#endif" (.withDefines ["A", "B", "C"]) (.ofList ["A"]) tokenized
    (by rw [words]; decide)
  exact ⟨tokenized, words, output, other, run, run', kept, told, policy⟩

end SharpFront
