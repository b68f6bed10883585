import SharpFront.Proofs.Preprocess.Nest

/-!
# The life of a level

An `#if` opens a level, and the directives on it go through its branches until its `#endif`, in
whatever order they come.

* `Turns`, `step_turns`: what an item does to the open levels;
* `PreprocessState.moments`: what becomes of one level, item by item, while it is open;
* `Lives`, `moments_lives`: what can become of it;
* `selected_once`: its branches are selected at most one at a time, and only one of them.
-/

namespace SharpFront

/-! ## What an item does to the open levels -/

/-- From the open levels before an item to those after it, innermost first, by the word of the item
if it is a conditional directive. -/
inductive Turns : Option Directive → List ConditionLevel → List ConditionLevel → Prop where
  | plain {levels : List ConditionLevel} : Turns none levels levels
  | opening (value : Bool) {levels : List ConditionLevel} :
    Turns (some .ifWord) levels (.opened value :: levels)
  | branch (value : Bool) {level : ConditionLevel} {outer : List ConditionLevel}
    (notFinal : level.isFinal = false) :
    Turns (some .elif) (level :: outer) (level.branch value :: outer)
  | lateBranch {level : ConditionLevel} {outer : List ConditionLevel}
    (isFinal : level.isFinal = true) : Turns (some .elif) (level :: outer) (level :: outer)
  | lastBranch {level : ConditionLevel} {outer : List ConditionLevel} :
    Turns (some .elseWord) (level :: outer) (level.lastBranch :: outer)
  | closing {level : ConditionLevel} {outer : List ConditionLevel} :
    Turns (some .endif) (level :: outer) outer
  | stray {w : Directive} (notOpening : w ≠ .ifWord) : Turns (some w) [] []

/-- Levels around the innermost one stay as they are. -/
theorem Turns.exists_inner {word : Option Directive} {l level : ConditionLevel}
    {inner outer next : List ConditionLevel} (h : Turns word (l :: inner ++ level :: outer) next) :
    ∃ inner', next = inner' ++ level :: outer ∧ (inner' = [] → word = some .endif) := by
  cases h with
  | plain => exact ⟨l :: inner, rfl, by simp⟩
  | opening value => exact ⟨.opened value :: l :: inner, rfl, by simp⟩
  | branch value notFinal => exact ⟨l.branch value :: inner, rfl, by simp⟩
  | lateBranch isFinal => exact ⟨l :: inner, rfl, by simp⟩
  | lastBranch => exact ⟨l.lastBranch :: inner, rfl, by simp⟩
  | closing => exact ⟨inner, rfl, fun _ => rfl⟩

theorem Turns.of_opening {levels next : List ConditionLevel}
    (h : Turns (some .ifWord) levels next) : ∃ value, next = .opened value :: levels := by
  cases h with
  | opening value => exact ⟨value, rfl⟩
  | stray notOpening => exact absurd rfl notOpening

theorem Standing.directive_turns (s : Standing) {d : DirectiveLine} {w : Directive}
    (names : d.word.token.directive? = some w) (conditional : w.isConditional = true) :
    Turns (some w) s.conditions.levels (s.directive d).conditions.levels := by
  rcases s with ⟨settings, ⟨levels⟩, effects⟩
  cases w with
  | ifWord =>
    simp only [directive, names]
    exact .opening _
  | elif =>
    cases levels with
    | nil =>
      simp only [directive, names]
      exact .stray Directive.noConfusion
    | cons level outer =>
      cases isFinal : level.isFinal with
      | false =>
        simp only [directive, names, ConditionStack.top?, List.head?_cons, Option.any_some,
          isFinal, Bool.not_false, if_true]
        exact .branch _ isFinal
      | true =>
        simp only [directive, names, ConditionStack.top?, List.head?_cons, Option.any_some,
          isFinal, Bool.not_true, Bool.false_eq_true, if_false]
        exact .lateBranch isFinal
  | elseWord =>
    simp only [directive, names]
    cases levels with
    | nil => exact .stray Directive.noConfusion
    | cons level outer => exact .lastBranch
  | endif =>
    simp only [directive, names]
    cases levels with
    | nil => exact .stray Directive.noConfusion
    | cons level outer => exact .closing
  | _ => cases conditional

theorem Standing.step_turns (s : Standing) (item : SourceItem) :
    Turns item.conditional? s.conditions.levels (s.step item).1.conditions.levels := by
  match item with
  | .token t => exact .plain
  | .directive _ _ [] => exact .plain
  | .directive hash leads (word :: operands) =>
    have after : (s.step (.directive hash leads (word :: operands))).1 =
      s.directive ⟨word, operands⟩ := rfl
    rw [after, SourceItem.conditional?]
    cases names : word.token.directive?.filter Directive.isConditional with
    | none =>
      have same : (s.directive ⟨word, operands⟩).conditions = s.conditions := by
        rw [s.directive_of_unconditional names, apply]
        split <;> rfl
      rw [same]
      exact .plain
    | some w =>
      obtain ⟨isWord, conditional⟩ := Option.filter_eq_some_iff.mp names
      exact s.directive_turns isWord conditional

theorem PreprocessState.step_turns (s : PreprocessState) (item : SourceItem) :
    Turns item.conditional? s.conditions.levels (s.step .default item).1.conditions.levels := by
  have same := congrArg (fun s : Standing => s.conditions.levels) (standing_step s item).1
  have turns := s.standing.step_turns item
  rw [← same] at turns
  exact turns

/-! ## The moments of a level -/

/-- An item and the level after it. -/
structure Moment where
  item : SourceItem
  level : ConditionLevel
  /-- No other level is open inside the level after the item. -/
  innermost : Bool

/-- The conditional directive that the item is, if it can be about the level. -/
def Moment.word? (m : Moment) : Option Directive :=
  if m.innermost then m.item.conditional? else none

/-- What becomes of the level that has `depth` levels around it: its moments, up to the item that
closes it. -/
def PreprocessState.moments (depth : Nat) (s : PreprocessState) : List SourceItem → List Moment
  | [] => []
  | item :: items =>
    let s := (s.step .default item).1
    match s.conditions.levels.reverse[depth]? with
    | none => []
    | some level => ⟨item, level, s.conditions.depth == depth + 1⟩ :: s.moments depth items

/-- Whether each branch of a level is selected as it begins. After an `#else`, no `#elif` begins
one. -/
def selections (isFinal : Bool) : List Moment → List Bool
  | [] => []
  | m :: later =>
    match m.word? with
    | some .ifWord => m.level.enabled :: selections isFinal later
    | some .elif =>
      if isFinal then selections isFinal later
      else m.level.enabled :: selections isFinal later
    | some .elseWord => m.level.enabled :: selections true later
    | _ => selections isFinal later

namespace PreprocessState

variable {s : PreprocessState} {item : SourceItem} {level : ConditionLevel}
  {outer : List ConditionLevel}

theorem moments_cons (inner : List ConditionLevel)
    (h : (s.step .default item).1.conditions.levels = inner ++ level :: outer)
    (items : List SourceItem) :
    s.moments outer.length (item :: items) =
      ⟨item, level, inner.isEmpty⟩ :: (s.step .default item).1.moments outer.length items := by
  have found : (inner ++ level :: outer).reverse[outer.length]? = some level := by simp
  have innermost : ((inner ++ level :: outer).length == outer.length + 1) = inner.isEmpty := by
    cases inner with
    | nil => simp
    | cons l inner => simp; omega
  simp only [moments, ConditionStack.depth, h, found, innermost]

theorem moments_of_closed (h : (s.step .default item).1.conditions.levels = outer)
    (items : List SourceItem) : s.moments outer.length (item :: items) = [] := by
  have gone : outer.reverse[outer.length]? = none := by simp
  simp only [moments, h, gone]

end PreprocessState

/-- From a level to what it is at its next branch, or at its last one. -/
inductive GoesOn : Directive → ConditionLevel → ConditionLevel → Prop where
  | branch {level : ConditionLevel} (value : Bool) (notFinal : level.isFinal = false) :
    GoesOn .elif level (level.branch value)
  | lastBranch {level : ConditionLevel} : GoesOn .elseWord level level.lastBranch

/-- What can become of a level: at each moment it is as it was, or goes on. After its `#else` an
`#elif` leaves it as it was. -/
inductive Lives : ConditionLevel → List Moment → Prop where
  | nil {level : ConditionLevel} : Lives level []
  | same {level : ConditionLevel} {m : Moment} {later : List Moment} (same : m.level = level)
    (word : m.word? = none ∨ m.word? = some .endif ∨
      m.word? = some .elif ∧ level.isFinal = true)
    (h : Lives level later) : Lives level (m :: later)
  | goesOn {level : ConditionLevel} {m : Moment} {later : List Moment} {w : Directive}
    (next : GoesOn w level m.level) (word : m.word? = some w) (h : Lives m.level later) :
    Lives level (m :: later)

/-- The induction is on the items. Only the innermost level can change. -/
theorem PreprocessState.moments_lives {level : ConditionLevel} {outer : List ConditionLevel}
    {s : PreprocessState} (inner : List ConditionLevel)
    (h : s.conditions.levels = inner ++ level :: outer) (items : List SourceItem) :
    Lives level (s.moments outer.length items) := by
  induction items generalizing s inner level with
  | nil => exact .nil
  | cons item items ih =>
    have turns := s.step_turns item
    rw [h] at turns
    generalize isNext : (s.step .default item).1.conditions.levels = next at turns
    cases inner with
    | cons l inner =>
      obtain ⟨inner', rfl, closes⟩ := turns.exists_inner
      rw [moments_cons inner' isNext]
      refine .same rfl ?_ (ih inner' isNext)
      cases inner' with
      | nil => exact .inr (.inl (closes rfl))
      | cons l inner' => exact .inl rfl
    | nil =>
      generalize isWord : item.conditional? = word at turns
      cases turns with
      | plain =>
        rw [moments_cons [] isNext]
        exact .same rfl (.inl isWord) (ih [] isNext)
      | opening value =>
        rw [moments_cons [.opened value] isNext]
        exact .same rfl (.inl rfl) (ih [.opened value] isNext)
      | branch value notFinal =>
        rw [moments_cons [] isNext]
        exact .goesOn (.branch value notFinal) isWord (ih [] isNext)
      | lateBranch isFinal =>
        rw [moments_cons [] isNext]
        exact .same rfl (.inr (.inr ⟨isWord, isFinal⟩)) (ih [] isNext)
      | lastBranch =>
        rw [moments_cons [] isNext]
        exact .goesOn .lastBranch isWord (ih [] isNext)
      | closing =>
        rw [moments_of_closed isNext]
        exact .nil

/-! ## The branches of a level -/

/-- A level with its branch selected knows of it, and so does a level past its `#else`. -/
structure ConditionLevel.Sound (l : ConditionLevel) : Prop where
  enabled : l.enabled = true → l.hasEnabled = true
  isFinal : l.isFinal = true → l.hasEnabled = true

theorem ConditionLevel.sound_opened (value : Bool) : (opened value).Sound where
  enabled := id
  isFinal := Bool.noConfusion

namespace GoesOn

variable {w : Directive} {level next : ConditionLevel}

theorem sound (h : GoesOn w level next) (isSound : level.Sound) : next.Sound := by
  cases h with
  | branch value notFinal =>
    constructor
    · intro enabled
      have holds : value = true := (Bool.and_eq_true_iff.mp enabled).1
      simp [ConditionLevel.branch, holds]
    · intro isFinal
      simp [ConditionLevel.branch, isSound.isFinal isFinal]
  | lastBranch => exact ⟨fun _ => rfl, fun _ => rfl⟩

theorem of_selected (h : GoesOn w level next) (hasEnabled : level.hasEnabled = true) :
    next.hasEnabled = true ∧ next.enabled = false := by
  cases h with
  | branch value notFinal => simp [ConditionLevel.branch, hasEnabled]
  | lastBranch => simp [ConditionLevel.lastBranch, hasEnabled]

theorem of_unselected (h : GoesOn w level next) (notYet : level.hasEnabled = false) :
    next.hasEnabled = next.enabled := by
  cases h with
  | branch value notFinal => simp [ConditionLevel.branch, notYet]
  | lastBranch => simp [ConditionLevel.lastBranch, notYet]

/-- A branch is selected when the level has had none and then has one. -/
theorem toNat_hasEnabled (h : GoesOn w level next) :
    next.enabled.toNat + level.hasEnabled.toNat = next.hasEnabled.toNat := by
  cases hasEnabled : level.hasEnabled with
  | false => simp [h.of_unselected hasEnabled]
  | true => simp [h.of_selected hasEnabled]

/-- Only the last branch is final. -/
theorem isFinal_cases (h : GoesOn w level next) :
    w = .elif ∧ level.isFinal = false ∧ next.isFinal = false ∨
      w = .elseWord ∧ next.isFinal = true := by
  cases h with
  | branch value notFinal => exact .inl ⟨rfl, notFinal, notFinal⟩
  | lastBranch => exact .inr ⟨rfl, rfl⟩

theorem hasEnabled_of_last (h : GoesOn .elseWord level next) : next.hasEnabled = true := by
  cases h with
  | lastBranch => rfl

theorem selections_cons {m : Moment} (h : GoesOn w level m.level) (word : m.word? = some w)
    (later : List Moment) :
    selections level.isFinal (m :: later) =
      m.level.enabled :: selections m.level.isFinal later := by
  rcases h.isFinal_cases with ⟨rfl, notFinal, notFinal'⟩ | ⟨rfl, isFinal⟩
  · simp only [selections, word, notFinal, notFinal', Bool.false_eq_true, if_false]
  · simp only [selections, word, isFinal]

end GoesOn

namespace Lives

variable {level : ConditionLevel} {moments : List Moment}

theorem sound (h : Lives level moments) (isSound : level.Sound) :
    ∀ m ∈ moments, m.level.Sound := by
  induction h with
  | nil => exact List.forall_mem_nil _
  | same same word h ih => exact List.forall_mem_cons.mpr ⟨same ▸ isSound, ih isSound⟩
  | goesOn next word h ih =>
    have here := next.sound isSound
    exact List.forall_mem_cons.mpr ⟨here, ih here⟩

/-- Once its selected branch is left, a level stays disabled. -/
theorem enabled_of_left (h : Lives level moments) (hasEnabled : level.hasEnabled = true)
    (disabled : level.enabled = false) :
    moments.map (·.level.enabled) = List.replicate moments.length false := by
  induction h with
  | nil => rfl
  | same same word h ih =>
    rw [List.map_cons, ih hasEnabled disabled, same, disabled]
    rfl
  | goesOn next word h ih =>
    obtain ⟨hasEnabled', disabled'⟩ := next.of_selected hasEnabled
    rw [List.map_cons, ih hasEnabled' disabled', disabled']
    rfl

/-- A level stays enabled up to the end of its selected branch. -/
theorem enabled_of_selected (h : Lives level moments) (hasEnabled : level.hasEnabled = true)
    (enabled : level.enabled = true) :
    ∃ b c, moments.map (·.level.enabled) = List.replicate b true ++ List.replicate c false := by
  induction h with
  | nil => exact ⟨0, 0, rfl⟩
  | same same word h ih =>
    obtain ⟨b, c, flags⟩ := ih hasEnabled enabled
    refine ⟨b + 1, c, ?_⟩
    rw [List.map_cons, flags, same, enabled]
    rfl
  | @goesOn level m later w next word h ih =>
    obtain ⟨hasEnabled', disabled'⟩ := next.of_selected hasEnabled
    refine ⟨0, later.length + 1, ?_⟩
    rw [List.map_cons, h.enabled_of_left hasEnabled' disabled', disabled']
    rfl

/-- Before any branch is selected a level is disabled, and then it is enabled for one branch. -/
theorem enabled_of_unselected (h : Lives level moments) (notYet : level.hasEnabled = false)
    (disabled : level.enabled = false) :
    ∃ a b c, moments.map (·.level.enabled) =
      List.replicate a false ++ List.replicate b true ++ List.replicate c false := by
  induction h with
  | nil => exact ⟨0, 0, 0, rfl⟩
  | same same word h ih =>
    obtain ⟨a, b, c, flags⟩ := ih notYet disabled
    refine ⟨a + 1, b, c, ?_⟩
    rw [List.map_cons, flags, same, disabled]
    rfl
  | @goesOn level m later w next word h ih =>
    have agree := next.of_unselected notYet
    cases enabled : m.level.enabled with
    | false =>
      obtain ⟨a, b, c, flags⟩ := ih (agree.trans enabled) enabled
      refine ⟨a + 1, b, c, ?_⟩
      rw [List.map_cons, flags, enabled]
      rfl
    | true =>
      obtain ⟨b, c, flags⟩ := h.enabled_of_selected (agree.trans enabled) enabled
      refine ⟨0, b + 1, c, ?_⟩
      rw [List.map_cons, flags, enabled]
      rfl

/-- The level after the last of the moments. -/
def final (level : ConditionLevel) (moments : List Moment) : ConditionLevel :=
  moments.foldl (fun _ m => m.level) level

/-- A level knows whether one of its branches has been selected, and there is no second one. -/
theorem count_selections (h : Lives level moments) :
    (selections level.isFinal moments).count true + level.hasEnabled.toNat =
      (final level moments).hasEnabled.toNat := by
  induction h with
  | nil => simp [selections, final]
  | @same level m later same word h ih =>
    have skipped : selections level.isFinal (m :: later) = selections level.isFinal later := by
      rcases word with word | word | ⟨word, isFinal⟩
      · simp only [selections, word]
      · simp only [selections, word]
      · simp only [selections, word, isFinal, if_true]
    rw [skipped, ih]
    simp [final, same]
  | @goesOn level m later w next word h ih =>
    have counted : (m.level.enabled :: selections m.level.isFinal later).count true =
        (selections m.level.isFinal later).count true + m.level.enabled.toNat := by
      cases m.level.enabled <;> simp
    have last : final level (m :: later) = final m.level later := rfl
    have here := next.toNat_hasEnabled
    rw [next.selections_cons word, counted, last]
    omega

theorem hasEnabled_of_last (h : Lives level moments) :
    ∀ m ∈ moments, m.word? = some .elseWord → m.level.hasEnabled = true := by
  induction h with
  | nil => exact List.forall_mem_nil _
  | same same word h ih =>
    refine List.forall_mem_cons.mpr ⟨?_, ih⟩
    intro isLast
    simp [isLast] at word
  | goesOn next word h ih =>
    refine List.forall_mem_cons.mpr ⟨?_, ih⟩
    intro isLast
    obtain rfl := Option.some.inj (word.symm.trans isLast)
    exact next.hasEnabled_of_last

theorem of_append {earlier later : List Moment} (h : Lives level (earlier ++ later)) :
    Lives level earlier := by
  induction earlier generalizing level with
  | nil => exact .nil
  | cons m earlier ih =>
    cases h with
    | same same word h => exact .same same word (ih h)
    | goesOn next word h => exact .goesOn next word (ih h)

end Lives

/-- The moments of a level from its `#if` on. -/
theorem exists_moments {s : PreprocessState} {opening : SourceItem}
    (isOpening : opening.conditional? = some .ifWord) (later : List SourceItem) :
    ∃ value rest, s.moments s.conditions.depth (opening :: later) =
        ⟨opening, .opened value, true⟩ :: rest ∧ Lives (.opened value) rest := by
  have turns := s.step_turns opening
  rw [isOpening] at turns
  obtain ⟨value, isNext⟩ := turns.of_opening
  refine ⟨value, _, PreprocessState.moments_cons [] isNext later, ?_⟩
  exact PreprocessState.moments_lives [] isNext later

theorem enabled_of_opened {value : Bool} {moments : List Moment}
    (h : Lives (.opened value) moments) :
    ∃ a b c, value :: moments.map (·.level.enabled) =
      List.replicate a false ++ List.replicate b true ++ List.replicate c false := by
  cases value with
  | false =>
    obtain ⟨a, b, c, flags⟩ := h.enabled_of_unselected rfl rfl
    exact ⟨a + 1, b, c, congrArg (false :: ·) flags⟩
  | true =>
    obtain ⟨b, c, flags⟩ := h.enabled_of_selected rfl rfl
    exact ⟨0, b + 1, c, congrArg (true :: ·) flags⟩

/-- From its `#if` on, a level knows whether a branch has been selected. -/
theorem count_selections_of_opened {opening : SourceItem} {value : Bool} {moments : List Moment}
    (isOpening : opening.conditional? = some .ifWord) (h : Lives (.opened value) moments) :
    (selections false (⟨opening, .opened value, true⟩ :: moments)).count true =
      (Lives.final (.opened value) moments).hasEnabled.toNat := by
  have isFirst : (⟨opening, .opened value, true⟩ : Moment).word? = some .ifWord := isOpening
  have begins : selections false (⟨opening, .opened value, true⟩ :: moments) =
      value :: selections false moments := by
    simp only [selections, isFirst]
    rfl
  have counted : (selections false moments).count true + value.toNat =
      (Lives.final (.opened value) moments).hasEnabled.toNat := h.count_selections
  rw [begins, ← counted]
  cases value <;> simp

/-! ## The whole run -/

/-- **Of the branches of a level at most one is selected.** From the `#if` that opens a level, in
whatever order its directives come, a level that has its branch selected or is past its `#else`
knows that one has been; it is enabled for one stretch at most; and no second branch is selected,
while up to any `#else` one has been. -/
theorem selected_once (settings : Settings) (tokens : List PositionedToken) :
    ∀ before opening later, SourceItem.ofTokens none tokens = before ++ opening :: later →
      opening.conditional? = some .ifWord →
      let s := ((PreprocessState.ofSettings settings).steps .default before).1
      let moments := s.moments s.conditions.depth (opening :: later)
      moments.head?.map Moment.item = some opening ∧
      (∀ m ∈ moments, (m.level.enabled = true → m.level.hasEnabled = true) ∧
        (m.level.isFinal = true → m.level.hasEnabled = true)) ∧
      (∃ a b c, moments.map (·.level.enabled) =
        List.replicate a false ++ List.replicate b true ++ List.replicate c false) ∧
      (∀ upTo, upTo <+: moments → (selections false upTo).count true ≤ 1) ∧
      ∀ upTo m, upTo ++ [m] <+: moments → m.word? = some .elseWord →
        (selections false (upTo ++ [m])).count true = 1 := by
  intro before opening later _ isOpening s moments
  obtain ⟨value, rest, isMoments, lives⟩ := exists_moments (s := s) isOpening later
  have isMoments : moments = ⟨opening, .opened value, true⟩ :: rest := isMoments
  rw [isMoments]
  refine ⟨rfl, ?sound, enabled_of_opened lives, ?notTwice, ?once⟩
  case sound =>
    intro m isMoment
    have isSound : m.level.Sound := by
      rcases List.mem_cons.mp isMoment with rfl | isLater
      · exact ConditionLevel.sound_opened value
      · exact lives.sound (ConditionLevel.sound_opened value) m isLater
    exact ⟨isSound.enabled, isSound.isFinal⟩
  case notTwice =>
    intro upTo isPrefix
    rcases List.prefix_cons_iff.mp isPrefix with rfl | ⟨upTo, rfl, later, rfl⟩
    · exact Nat.zero_le 1
    · rw [count_selections_of_opened isOpening lives.of_append]
      exact Bool.toNat_le _
  case once =>
    intro upTo m isPrefix isLast
    cases upTo with
    | nil =>
      obtain ⟨rfl, -⟩ := List.cons_prefix_cons.mp isPrefix
      cases isOpening.symm.trans isLast
    | cons first upTo =>
      obtain ⟨rfl, later, rfl⟩ := List.cons_prefix_cons.mp isPrefix
      have lives : Lives (.opened value) (upTo ++ [m]) := lives.of_append
      have hasEnabled : m.level.hasEnabled = true := lives.hasEnabled_of_last m (by simp) isLast
      have last : Lives.final (.opened value) (upTo ++ [m]) = m.level := by simp [Lives.final]
      rw [List.cons_append, count_selections_of_opened isOpening lives, last, hasEnabled]
      rfl

/-- A level that goes on after its `#else`, with an `#elif` and a second `#else`. -/
def overlong : List PositionedToken :=
  row 1 [.operator .hash, .directive .ifWord, .identifier ⟨0, "A"⟩] ++
  row 2 [.operator .hash, .directive .elif, .identifier ⟨0, "B"⟩] ++
  row 3 [.operator .hash, .directive .elseWord] ++
  row 4 [.operator .hash, .directive .elif, .keyword "true"] ++
  row 5 [.operator .hash, .directive .elseWord] ++
  row 6 [.operator .hash, .directive .endif]

theorem selected_once_overlong :
    ∃ opening later, SourceItem.ofTokens none overlong = [] ++ opening :: later ∧
      opening.conditional? = some .ifWord ∧
      let moments := (PreprocessState.ofSettings {}).moments 0 (opening :: later)
      moments.map (·.level.enabled) = [false, false, true, true, false] ∧
      ∀ upTo m, upTo ++ [m] <+: moments → m.word? = some .elseWord →
        (selections false (upTo ++ [m])).count true = 1 := by
  let opening : SourceItem := .directive ⟨.operator .hash, "shell", 1, 1, 1, false⟩ true
    [⟨.directive .ifWord, "shell", 1, 2, 1, false⟩, ⟨.identifier ⟨0, "A"⟩, "shell", 1, 3, 1, false⟩]
  have isSplit : SourceItem.ofTokens none overlong =
      [] ++ opening :: (SourceItem.ofTokens none overlong).tail := by decide +kernel
  have isOpening : opening.conditional? = some .ifWord := rfl
  obtain ⟨-, -, -, -, once⟩ := selected_once {} overlong [] opening _ isSplit isOpening
  exact ⟨opening, _, isSplit, isOpening, by decide +kernel, once⟩

end SharpFront
