import SharpFront.Output
import SharpFront.Proofs.Preprocess.Item
import SharpFront.Proofs.Preprocess.Nest

/-!
# The tokens that survive preprocessing

Whether a token survives depends on the tokens before it alone.

* `Drops`: why a token does not survive;
* `survivors`: those of some tokens, each judged by what stands before it;
* `steps_eq_survivors`: a run over the items gives them, each at its apparent place;
* `run_eq_survivors`: so does preprocessing a text.
-/

namespace SharpFront

/-- The conditions that are open after some tokens. -/
def openConditions (settings : Settings) (before : List PositionedToken) : ConditionStack :=
  ((Preprocessor.ofSettings settings).setInput before).run.1.state.conditions

/-- A token does not survive when it is a `#` or starts on the line of one before it, when some open
condition excludes it, or when it is a blank or a comment that the settings do not keep. -/
def Drops (settings : Settings) (before : List PositionedToken) (t : PositionedToken) : Prop :=
  (t.token.isOperator .hash = true ∨ hashOn before t.line = true) ∨
  (∃ level ∈ (openConditions settings before).levels, level.enabled = false) ∨
  settings.keeps t.token = false

instance (settings : Settings) (before : List PositionedToken) (t : PositionedToken) :
    Decidable (Drops settings before t) :=
  inferInstanceAs (Decidable ((_ ∨ _) ∨ _ ∨ _))

/-- The tokens that survive, each judged by the tokens before it. -/
def survivors (settings : Settings) (before : List PositionedToken) :
    List PositionedToken → List PositionedToken
  | [] => []
  | t :: rest =>
    let later := survivors settings (before ++ [t]) rest
    if Drops settings before t then later else t :: later

/-- What preprocessing leaves as it was: the token, its column and its length. -/
structure Keeps (t u : PositionedToken) : Prop where
  token_eq : u.token = t.token
  column_eq : u.column = t.column
  length_eq : u.length = t.length

theorem keeps_place (p : ApparentPosition) (t : PositionedToken) : Keeps t (p.place t) :=
  ⟨rfl, rfl, rfl⟩

/-! ## What survives -/

variable {settings : Settings}

theorem survivors_sublist (before tokens : List PositionedToken) :
    (survivors settings before tokens).Sublist tokens := by
  induction tokens generalizing before with
  | nil => exact .slnil
  | cons t tokens ih =>
    simp only [survivors]
    split
    · exact (ih _).cons t
    · exact (ih _).cons_cons t

theorem survivors_append (settings : Settings) (before xs ys : List PositionedToken) :
    survivors settings before (xs ++ ys) =
      survivors settings before xs ++ survivors settings (before ++ xs) ys := by
  induction xs generalizing before with
  | nil => simp only [survivors, List.nil_append, List.append_nil]
  | cons x xs ih =>
    simp only [List.cons_append, survivors, ih, List.append_assoc, List.nil_append]
    split <;> rfl

theorem not_hash_of_mem_survivors {before tokens : List PositionedToken} {t : PositionedToken}
    (h : t ∈ survivors settings before tokens) : t.token.isOperator .hash = false := by
  induction tokens generalizing before with
  | nil => cases h
  | cons u tokens ih =>
    simp only [survivors] at h
    split at h
    · exact ih h
    · next stays =>
      rcases List.mem_cons.mp h with rfl | isLater
      · exact Bool.eq_false_iff.mpr fun isHash => stays (.inl (.inl isHash))
      · exact ih isLater

theorem survivors_eq_nil {before tokens : List PositionedToken} {line : Nat}
    (onLine : hashOn before line = true) (h : ∀ t ∈ tokens, t.line = line) :
    survivors settings before tokens = [] := by
  induction tokens generalizing before with
  | nil => rfl
  | cons t tokens ih =>
    have here : t.line = line := h t List.mem_cons_self
    have drops : Drops settings before t := .inl (.inr (by rw [here]; exact onLine))
    have still : hashOn (before ++ [t]) line = true := by
      rw [hashOn_append, onLine, Bool.true_or]
    simp only [survivors, if_pos drops]
    exact ih still fun u isLater => h u (List.mem_cons_of_mem t isLater)

/-- Nothing of a directive line survives. -/
theorem survivors_directive {before taken : List PositionedToken} {t : PositionedToken}
    (isHash : t.token.isOperator .hash = true) (h : ∀ u ∈ taken, u.line = t.line) :
    survivors settings before (t :: taken) = [] := by
  have drops : Drops settings before t := .inl (.inl isHash)
  have onLine : hashOn (before ++ [t]) t.line = true :=
    hashOn_eq_true_iff.mpr ⟨t, List.mem_append_right _ List.mem_cons_self, isHash, rfl⟩
  simp only [survivors, if_pos drops]
  exact survivors_eq_nil onLine h

/-! ## The run -/

namespace Standing

/-- The standing after the items of some tokens. -/
def after (settings : Settings) (tokens : List PositionedToken) : Standing :=
  ((PreprocessState.ofSettings settings).standing.steps (SourceItem.ofTokens none tokens)).1

theorem directive_settings (s : Standing) (d : DirectiveLine) :
    (s.directive d).settings = s.settings := by
  unfold directive apply
  split
  · rfl
  · split <;> rfl
  · rfl
  · rfl
  · split <;> rfl

theorem step_settings (s : Standing) (item : SourceItem) :
    (s.step item).1.settings = s.settings := by
  match item with
  | .token t => rfl
  | .directive _ _ [] => rfl
  | .directive _ _ (word :: operands) => exact s.directive_settings ⟨word, operands⟩

theorem steps_settings (s : Standing) (items : List SourceItem) :
    (s.steps items).1.settings = s.settings := by
  induction items generalizing s with
  | nil => rfl
  | cons item items ih => exact (ih _).trans (s.step_settings item)

theorem after_settings (tokens : List PositionedToken) :
    (after settings tokens).settings = settings := steps_settings _ _

theorem after_conditions (tokens : List PositionedToken) :
    (after settings tokens).conditions = openConditions settings tokens :=
  (congrArg Standing.conditions
    (standing_runUnit (PreprocessState.ofSettings settings) tokens).1).symm

theorem after_nil : after settings [] = (PreprocessState.ofSettings settings).standing := by
  rw [after, SourceItem.ofTokens, steps]

theorem after_append {xs ys : List PositionedToken}
    (h : ∀ y ∈ ys.head?, hashOn xs y.line = false) :
    after settings (xs ++ ys) =
      ((after settings xs).steps (SourceItem.ofTokens (SourceItem.lastLine none xs) ys)).1 := by
  simp only [after, SourceItem.ofTokens_append none xs h, steps_append]

/-- A directive line gives no token. -/
theorem steps_directive (s : Standing) (hash : PositionedToken) (leads : Bool)
    (body : List PositionedToken) (items : List SourceItem) :
    (s.steps (.directive hash leads body :: items)).2 =
      ((s.step (.directive hash leads body)).1.steps items).2 := by
  cases body <;> rfl

theorem includesCode_eq_false_iff (s : Standing) :
    s.includesCode = false ↔ ∃ level ∈ s.conditions.levels, level.enabled = false := by
  simp only [includesCode, ConditionStack.includesCode, List.all_eq_false, Bool.not_eq_true]

end Standing

/-- A token on no directive line survives exactly when the run keeps it. -/
theorem drops_iff {before : List PositionedToken} {t : PositionedToken}
    (notHash : t.token.isOperator .hash = false) (apart : hashOn before t.line = false) :
    Drops settings before t ↔
      ((Standing.after settings before).includesCode && settings.keeps t.token) = false := by
  rw [Bool.and_eq_false_iff, Standing.includesCode_eq_false_iff, Standing.after_conditions]
  simp only [Drops, notHash, apart, Bool.false_eq_true, or_self, false_or]

/-- What stands past a directive line stands on none. -/
theorem hashOn_past_directive {before rest : List PositionedToken} {t : PositionedToken}
    (inLines : InLines (before ++ t :: rest)) :
    ∀ u ∈ rest.dropWhile (·.line == t.line),
      hashOn (before ++ t :: rest.takeWhile (·.line == t.line)) u.line = false := by
  obtain ⟨-, ordered, upTo⟩ := List.pairwise_append.mp inLines
  intro u isLater
  have beyond := SourceItem.lt_of_mem_dropWhile ordered u isLater
  refine hashOn_eq_false_of_lt ?_
  intro v isBefore
  rcases List.mem_append.mp isBefore with isEarlier | isHere
  · have := upTo v isEarlier t List.mem_cons_self
    omega
  · rcases List.mem_cons.mp isHere with rfl | isTaken
    · exact beyond
    · rw [SourceItem.sameLine_of_mem_takeWhile v isTaken]
      exact beyond

/-- What stands past a token that is on no directive line is on no earlier one. -/
theorem hashOn_past_token {before rest : List PositionedToken} {t : PositionedToken}
    (inLines : InLines (before ++ t :: rest)) (notHash : t.token.isOperator .hash = false)
    (apart : hashOn before t.line = false) :
    ∀ u ∈ rest, hashOn (before ++ [t]) u.line = false := by
  obtain ⟨-, ordered, upTo⟩ := List.pairwise_append.mp inLines
  intro u isLater
  have := (List.pairwise_cons.mp ordered).1 u isLater
  refine hashOn_eq_false_iff.mpr ?_
  intro v isBefore isHash
  rcases List.mem_append.mp isBefore with isEarlier | isHere
  · have := upTo v isEarlier t List.mem_cons_self
    have := hashOn_eq_false_iff.mp apart v isEarlier isHash
    omega
  · rw [List.mem_singleton.mp isHere, notHash] at isHash
    cases isHash

/-! ## One item -/

section

variable {before rest : List PositionedToken} {t : PositionedToken}

theorem survivors_past_directive (isHash : t.token.isOperator .hash = true) :
    survivors settings before (t :: rest) =
      survivors settings (before ++ t :: rest.takeWhile (·.line == t.line))
        (rest.dropWhile (·.line == t.line)) := by
  have split := survivors_append settings before (t :: rest.takeWhile (·.line == t.line))
    (rest.dropWhile (·.line == t.line))
  rwa [survivors_directive isHash SourceItem.sameLine_of_mem_takeWhile, List.nil_append,
    List.cons_append, List.takeWhile_append_dropWhile] at split

theorem Standing.after_directive (isHash : t.token.isOperator .hash = true)
    (apart : hashOn before t.line = false) :
    after settings (before ++ t :: rest.takeWhile (·.line == t.line)) =
      ((after settings before).step (.directive t (SourceItem.lastLine none before != some t.line)
        ((rest.takeWhile (·.line == t.line)).filter (·.token.isSignificant)))).1 := by
  have first : ∀ y ∈ (t :: rest.takeWhile (·.line == t.line)).head?,
      hashOn before y.line = false := by
    rintro _ ⟨⟩
    exact apart
  rw [after_append first,
    SourceItem.ofTokens_directive isHash _ SourceItem.sameLine_of_mem_takeWhile]
  rfl

theorem Standing.after_token (notHash : t.token.isOperator .hash = false)
    (apart : hashOn before t.line = false) :
    after settings (before ++ [t]) = after settings before := by
  rw [after_append (by simpa using apart), SourceItem.ofTokens_token notHash]
  rfl

/-- Whether a token on no directive line survives is what the step decides. -/
theorem keeps_token {kept : List PositionedToken} (notHash : t.token.isOperator .hash = false)
    (apart : hashOn before t.line = false)
    (later : List.Forall₂ Keeps (survivors settings (before ++ [t]) rest) kept) :
    List.Forall₂ Keeps (survivors settings before (t :: rest))
      (((Standing.after settings before).step (.token t)).2.toList ++ kept) := by
  simp only [survivors, Standing.step, Standing.after_settings]
  cases isKept : (Standing.after settings before).includesCode && settings.keeps t.token with
  | false =>
    rw [if_pos ((drops_iff notHash apart).mpr isKept)]
    exact later
  | true =>
    have stays : ¬Drops settings before t := by
      rw [drops_iff notHash apart, isKept]
      exact Bool.noConfusion
    rw [if_neg stays]
    exact .cons (keeps_place _ t) later

end

/-- The induction is on the items; what stands before them is no part of a directive line that is
still going on. -/
theorem steps_eq_survivors {last : Option Nat} {rest : List PositionedToken} :
    ∀ before, InLines (before ++ rest) → (∀ y ∈ rest.head?, hashOn before y.line = false) →
      SourceItem.lastLine none before = last →
      List.Forall₂ Keeps (survivors settings before rest)
        ((Standing.after settings before).steps (SourceItem.ofTokens last rest)).2 := by
  fun_induction SourceItem.ofTokens last rest with
  | case1 last =>
    intro before _ _ _
    exact .nil
  | case2 last t rest isHash body ih =>
    intro before inLines apart isLast
    have lastLine : SourceItem.lastLine none (before ++ t :: rest.takeWhile (·.line == t.line)) =
        some t.line := by
      rw [SourceItem.lastLine_append,
        SourceItem.lastLine_directive isHash _ SourceItem.sameLine_of_mem_takeWhile]
    have inLinesLater : InLines (before ++ t :: rest.takeWhile (·.line == t.line) ++
        rest.dropWhile (·.line == t.line)) := by
      rw [List.append_assoc, List.cons_append, List.takeWhile_append_dropWhile]
      exact inLines
    have later := ih _ inLinesLater
      (fun y isFirst => hashOn_past_directive inLines y (List.mem_of_mem_head? isFirst)) lastLine
    rw [Standing.after_directive isHash (apart t rfl), isLast] at later
    rw [survivors_past_directive isHash, Standing.steps_directive]
    exact later
  | case3 last t rest notHash ih =>
    intro before inLines apart isLast
    have notHash := Bool.eq_false_iff.mpr notHash
    have here := apart t rfl
    have lastLine : SourceItem.lastLine none (before ++ [t]) =
        if t.token.isSignificant then some t.line else last := by
      rw [SourceItem.lastLine_append, isLast]
      rfl
    have later := ih (before ++ [t]) (by rw [List.append_assoc]; exact inLines)
      (fun y isFirst =>
        hashOn_past_token inLines notHash here y (List.mem_of_mem_head? isFirst)) lastLine
    rw [Standing.after_token notHash here] at later
    exact keeps_token notHash here later

theorem exists_of_mem_forall₂ {ts us : List PositionedToken} (h : List.Forall₂ Keeps ts us) :
    ∀ u ∈ us, ∃ t ∈ ts, Keeps t u := by
  induction h with
  | nil =>
    intro u isKept
    cases isKept
  | @cons t u ts us keeps _ ih =>
    intro v isKept
    rcases List.mem_cons.mp isKept with rfl | isLater
    · exact ⟨t, List.mem_cons_self, keeps⟩
    · obtain ⟨w, survives, keeps⟩ := ih v isLater
      exact ⟨w, List.mem_cons_of_mem t survives, keeps⟩

/-! ## Texts without directives -/

theorem ofTokens_of_no_hash {tokens : List PositionedToken} {last : Option Nat}
    (h : ∀ t ∈ tokens, t.token.isOperator .hash = false) :
    SourceItem.ofTokens last tokens = tokens.map .token := by
  fun_induction SourceItem.ofTokens last tokens with
  | case1 last => rfl
  | case2 last t rest isHash body ih =>
    rw [h t List.mem_cons_self] at isHash
    cases isHash
  | case3 last t rest notHash ih =>
    have later := ih fun u isLater => h u (List.mem_cons_of_mem t isLater)
    simp only [dite_eq_ite] at later
    rw [later, List.map_cons]

/-- Tokens of included code change nothing and survive as the settings say. -/
theorem steps_map_token {s : PreprocessState} (table : DirectiveTable) (h : s.includesCode = true)
    (tokens : List PositionedToken) :
    s.steps table (tokens.map .token) =
      (s, (tokens.filter fun t => s.keeps t.token).map s.position.place) := by
  induction tokens with
  | nil => rfl
  | cons t tokens ih =>
    simp only [List.map_cons, PreprocessState.steps, PreprocessState.step, ih, h, Bool.true_and]
    rw [List.filter_cons]
    cases s.keeps t.token <;> rfl

/-- Before any `#line` tokens appear where they stand. -/
theorem place_eq_self {t : PositionedToken} (fits : t.line < UInt32.size)
    (visible : t.hidden = false) : ({} : ApparentPosition).place t = t := by
  have line : ({} : ApparentPosition).apparentLine t.line = t.line := by
    simp only [ApparentPosition.apparentLine]
    omega
  simp only [ApparentPosition.place, line, Option.getD_none]
  rw [← visible]

theorem run_of_no_hash {tokens : List PositionedToken}
    (h : ∀ t ∈ tokens, t.token.isOperator .hash = false) :
    (PreprocessState.ofSettings settings).runUnit .default tokens =
      (.ofSettings settings,
        (tokens.filter (settings.keeps ·.token)).map ({} : ApparentPosition).place) := by
  simp only [PreprocessState.runUnit, ofTokens_of_no_hash h]
  rw [steps_map_token .default rfl]
  rfl

/-! ## The whole text -/

/-- **Preprocessing only leaves tokens out.** What comes out are the survivors, in order, each with
its token, column and length; no `#` is among them. A text without `#`, whose lines are numbers of
32 bits, comes out as it is but for the blanks and comments that the settings do not keep, with
nothing reported and the symbols of the settings. -/
theorem run_eq_survivors (raw file : String) (settings : Settings) :
    ∃ tokens scanned, tokenize raw file = .ok (tokens, scanned) ∧
      let (p, result) := ((Preprocessor.ofSettings settings).setInput tokens).run
      ∃ output, result = .ok output ∧
        (survivors settings [] tokens).Sublist tokens ∧
        List.Forall₂ Keeps (survivors settings [] tokens) output ∧
        (∀ u ∈ output, u.token.isOperator .hash = false) ∧
        ((∀ t ∈ tokens, t.token.isOperator .hash = false) →
          ((∀ t ∈ tokens, t.line < UInt32.size) →
            output = tokens.filter (settings.keeps ·.token)) ∧
          p.state.diagnostics = { policy := settings.policy } ∧
          p.state.symbols = settings.defines) := by
  obtain ⟨tokens, scanned, tokenized, inLines, visible⟩ := exists_tokenize raw file
  have kept : List.Forall₂ Keeps (survivors settings [] tokens)
      ((PreprocessState.ofSettings settings).runUnit .default tokens).2 := by
    rw [(standing_runUnit _ tokens).2, ← Standing.after_nil]
    exact steps_eq_survivors [] inLines (fun _ _ => rfl) rfl
  refine ⟨tokens, scanned, tokenized, _, rfl, survivors_sublist [] tokens, kept, ?noHash, ?plain⟩
  case noHash =>
    intro u isKept
    obtain ⟨t, survives, keeps⟩ := exists_of_mem_forall₂ kept u isKept
    rw [keeps.token_eq]
    exact not_hash_of_mem_survivors survives
  case plain =>
    intro noHash
    have run : (PreprocessState.ofSettings settings).runUnit .default tokens = _ :=
      run_of_no_hash noHash
    have out := congrArg Prod.snd run
    have state := congrArg Prod.fst run
    refine ⟨?_, congrArg PreprocessState.diagnostics state,
      congrArg PreprocessState.symbols state⟩
    intro fits
    refine out.trans ?_
    have same : ∀ t ∈ tokens.filter (settings.keeps ·.token),
        ({} : ApparentPosition).place t = t := by
      intro t isKept
      have isToken := (List.mem_filter.mp isKept).1
      exact place_eq_self (fits t isToken) (visible t isToken)
    rw [List.map_congr_left same, List.map_id']

end SharpFront
