import SharpFront.Proofs.Preprocess.Standing

/-!
# Conditional code as a tree

Items whose conditional directives nest properly read as a tree of groups and branches:

* `Nest` and `Branches`: the trees; `items` writes a tree out;
* `exists_nest`: properly nested items are a tree written out;
* `Nest.interpret`: of each group only the first branch that holds is looked into;
* `steps_of_excluded`, `steps_of_included`: where code is excluded a tree changes nothing; where it
  is included the flat run with its stack of levels does what the interpretation says.
-/

namespace SharpFront

def Directive.isConditional (d : Directive) : Bool :=
  d == .ifWord || d == .elif || d == .elseWord || d == .endif

/-- The word of a conditional directive. -/
def SourceItem.conditional? : SourceItem → Option Directive
  | .directive _ _ (word :: _) => word.token.directive?.filter Directive.isConditional
  | _ => none

/-- Every `#elif`, `#else` and `#endif` has an open `#if`, no `#elif` or `#else` comes after the
`#else` of its level, and every `#if` is closed. The list says of each open level, innermost first,
whether its `#else` has come. -/
def nests : List Bool → List SourceItem → Bool
  | levels, [] => levels.isEmpty
  | levels, item :: items =>
    match item.conditional?, levels with
    | none, levels => nests levels items
    | some .ifWord, levels => nests (false :: levels) items
    | some .elif, false :: outer => nests (false :: outer) items
    | some .elseWord, false :: outer => nests (true :: outer) items
    | some .endif, _ :: outer => nests outer items
    | some _, _ => false

def NestsProperly (items : List SourceItem) : Prop := nests [] items = true

instance : DecidablePred NestsProperly :=
  fun items => inferInstanceAs (Decidable (nests [] items = true))

/-! ## Trees -/

/-- A directive line with the given word. -/
structure WordLine (w : Directive) where
  hash : PositionedToken
  leads : Bool
  line : DirectiveLine
  word_eq : line.word.token.directive? = some w

def WordLine.item {w : Directive} (l : WordLine w) : SourceItem :=
  .directive l.hash l.leads (l.line.word :: l.line.operands)

mutual

inductive Nest where
  | done
  | plain (item : SourceItem) (unconditional : item.conditional? = none) (rest : Nest)
  | group (opening : WordLine .ifWord) (body : Nest) (more : Branches) (rest : Nest)

/-- What follows the first branch of a group. -/
inductive Branches where
  | close (closing : WordLine .endif)
  | branch (opening : WordLine .elif) (body : Nest) (more : Branches)
  | fallback (opening : WordLine .elseWord) (body : Nest) (closing : WordLine .endif)

end

mutual

def Nest.items : Nest → List SourceItem
  | .done => []
  | .plain item _ rest => item :: rest.items
  | .group opening body more rest => opening.item :: (body.items ++ (more.items ++ rest.items))

def Branches.items : Branches → List SourceItem
  | .close closing => [closing.item]
  | .branch opening body more => opening.item :: (body.items ++ more.items)
  | .fallback opening body closing => opening.item :: (body.items ++ [closing.item])

end

theorem exists_wordLine {item : SourceItem} {w : Directive} (h : item.conditional? = some w) :
    ∃ l : WordLine w, l.item = item := by
  match item, h with
  | .directive hash leads (word :: operands), h =>
    exact ⟨⟨hash, leads, ⟨word, operands⟩, (Option.filter_eq_some_iff.1 h).1⟩, rfl⟩

/-- What a properly nested list can begin with. -/
theorem nests_cons {levels : List Bool} {item : SourceItem} {items : List SourceItem}
    (h : nests levels (item :: items) = true) :
    (item.conditional? = none ∧ nests levels items = true) ∨
    (∃ l : WordLine .ifWord, l.item = item ∧ nests (false :: levels) items = true) ∨
    (∃ l : WordLine .elif, l.item = item ∧
      ∃ outer, levels = false :: outer ∧ nests (false :: outer) items = true) ∨
    (∃ l : WordLine .elseWord, l.item = item ∧
      ∃ outer, levels = false :: outer ∧ nests (true :: outer) items = true) ∨
    (∃ l : WordLine .endif, l.item = item ∧
      ∃ level outer, levels = level :: outer ∧ nests outer items = true) := by
  unfold nests at h
  split at h
  · next hc => exact .inl ⟨hc, h⟩
  · next hc =>
    obtain ⟨l, hl⟩ := exists_wordLine hc
    exact .inr (.inl ⟨l, hl, h⟩)
  · next hc =>
    obtain ⟨l, hl⟩ := exists_wordLine hc
    exact .inr (.inr (.inl ⟨l, hl, _, rfl, h⟩))
  · next hc =>
    obtain ⟨l, hl⟩ := exists_wordLine hc
    exact .inr (.inr (.inr (.inl ⟨l, hl, _, rfl, h⟩)))
  · next hc =>
    obtain ⟨l, hl⟩ := exists_wordLine hc
    exact .inr (.inr (.inr (.inr ⟨l, hl, _, _, rfl, h⟩)))
  · cases h

/-- What is left of properly nested items after the tree they begin with: nothing, or the rest of
the innermost open group and what follows it. -/
def Follows : List Bool → List SourceItem → Prop
  | [], items => items = []
  | false :: outer, items =>
    ∃ (more : Branches) (rest : List SourceItem),
      more.items ++ rest = items ∧ nests outer rest = true
  | true :: outer, items =>
    ∃ (closing : WordLine .endif) (rest : List SourceItem),
      closing.item :: rest = items ∧ nests outer rest = true

/-- The induction is on the length, since a group is followed by a rest that is no part of it. -/
theorem exists_nest_append (n : Nat) :
    ∀ (items : List SourceItem) (levels : List Bool), items.length ≤ n →
      nests levels items = true →
      ∃ (nest : Nest) (tail : List SourceItem), nest.items ++ tail = items ∧
        Follows levels tail := by
  induction n with
  | zero =>
    intro items levels hn h
    obtain rfl : items = [] := List.length_eq_zero_iff.1 (by omega)
    obtain rfl : levels = [] := by simpa [nests] using h
    exact ⟨.done, [], rfl, rfl⟩
  | succ n ih =>
    intro items levels hn h
    cases items with
    | nil =>
      obtain rfl : levels = [] := by simpa [nests] using h
      exact ⟨.done, [], rfl, rfl⟩
    | cons item items =>
      have hn' : items.length ≤ n := by simpa using hn
      rcases nests_cons h with ⟨hc, hi⟩ | ⟨l, rfl, hi⟩ | ⟨l, rfl, outer, rfl, hi⟩ |
        ⟨l, rfl, outer, rfl, hi⟩ | ⟨l, rfl, level, outer, rfl, hi⟩
      · obtain ⟨nest, tail, rfl, ht⟩ := ih items levels hn' hi
        exact ⟨.plain item hc nest, tail, rfl, ht⟩
      · obtain ⟨body, tail, rfl, more, rest, rfl, hr⟩ := ih items _ hn' hi
        obtain ⟨nest, tail, rfl, ht⟩ := ih rest levels
          (by simp only [List.length_append] at hn'; omega) hr
        exact ⟨.group l body more nest, tail, by simp [Nest.items], ht⟩
      · obtain ⟨body, tail, rfl, more, rest, rfl, hr⟩ := ih items _ hn' hi
        exact ⟨.done, _, rfl, .branch l body more, rest, by simp [Branches.items], hr⟩
      · obtain ⟨body, tail, rfl, closing, rest, rfl, hr⟩ := ih items _ hn' hi
        exact ⟨.done, _, rfl, .fallback l body closing, rest, by simp [Branches.items], hr⟩
      · refine ⟨.done, _, rfl, ?_⟩
        cases level with
        | false => exact ⟨.close l, items, by simp [Branches.items], hi⟩
        | true => exact ⟨l, items, rfl, hi⟩

theorem exists_nest {items : List SourceItem} (h : NestsProperly items) :
    ∃ nest : Nest, nest.items = items := by
  obtain ⟨nest, tail, rfl, rfl⟩ := exists_nest_append items.length items [] (Nat.le_refl _) h
  exact ⟨nest, (List.append_nil _).symm⟩

/-! ## Reading a tree -/

/-- A token is kept as it appears to stand, a directive has its effect. -/
def SourceItem.interpret (settings : Settings) (item : SourceItem) (e : Effects) :
    Effects × Option PositionedToken :=
  match item with
  | .token t => (e, if settings.keeps t.token then some (e.position.place t) else none)
  | .directive _ _ [] => (e, none)
  | .directive _ _ (word :: operands) => (DirectiveLine.effect ⟨word, operands⟩ e, none)

mutual

/-- What a tree of included code does, and which tokens survive. -/
def Nest.interpret (settings : Settings) : Nest → Effects → Effects × List PositionedToken
  | .done, e => (e, [])
  | .plain item _ rest, e =>
    let (e, kept) := item.interpret settings e
    let (e, later) := rest.interpret settings e
    (e, kept.toList ++ later)
  | .group opening body more rest, e =>
    let (e, kept) :=
      if opening.line.holds e.symbols then body.interpret settings e
      else more.interpret settings e
    let (e, later) := rest.interpret settings e
    (e, kept ++ later)

/-- Of the branches after those that did not hold, the first that holds is taken, the last one if it
has no condition. -/
def Branches.interpret (settings : Settings) : Branches → Effects → Effects × List PositionedToken
  | .close _, e => (e, [])
  | .branch opening body more, e =>
    if opening.line.holds e.symbols then body.interpret settings e
    else more.interpret settings e
  | .fallback _ body _, e => body.interpret settings e

end

/-! ## Steps over the lines of a group -/

namespace Standing

theorem steps_append (s : Standing) (a b : List SourceItem) :
    s.steps (a ++ b) =
      (((s.steps a).1.steps b).1, (s.steps a).2 ++ ((s.steps a).1.steps b).2) := by
  induction a generalizing s with
  | nil => rfl
  | cons item a ih => simp only [List.cons_append, steps, ih, List.append_assoc]

/-- The standing with these levels open instead. -/
def within (s : Standing) (levels : List ConditionLevel) : Standing :=
  { s with conditions := ⟨levels⟩ }

/-- The standing with these effects instead. -/
def withEffects (s : Standing) (e : Effects) : Standing := { s with effects := e }

@[simp] theorem within_levels (s : Standing) : s.within s.conditions.levels = s := rfl

@[simp] theorem within_settings (s : Standing) (levels : List ConditionLevel) :
    (s.within levels).settings = s.settings := rfl

@[simp] theorem within_effects (s : Standing) (levels : List ConditionLevel) :
    (s.within levels).effects = s.effects := rfl

@[simp] theorem withEffects_settings (s : Standing) (e : Effects) :
    (s.withEffects e).settings = s.settings := rfl

@[simp] theorem withEffects_conditions (s : Standing) (e : Effects) :
    (s.withEffects e).conditions = s.conditions := rfl

@[simp] theorem withEffects_effects (s : Standing) (e : Effects) :
    (s.withEffects e).effects = e := rfl

@[simp] theorem withEffects_self (s : Standing) : s.withEffects s.effects = s := rfl

@[simp] theorem withEffects_withEffects (s : Standing) (d e : Effects) :
    (s.withEffects d).withEffects e = s.withEffects e := rfl

@[simp] theorem withEffects_within_levels (s : Standing) (e : Effects) :
    (s.withEffects e).within s.conditions.levels = s.withEffects e := rfl

@[simp] theorem withEffects_within (s : Standing) (levels : List ConditionLevel) (e : Effects) :
    (s.within levels).withEffects e = (s.withEffects e).within levels := rfl

theorem step_if (s : Standing) (l : WordLine .ifWord) :
    s.step l.item =
      (s.within (.opened (l.line.holds s.effects.symbols) :: s.conditions.levels), none) := by
  simp only [WordLine.item, step, directive, l.word_eq, within, ConditionStack.push]

theorem step_elif (s : Standing) {level : ConditionLevel} (hf : level.isFinal = false)
    (outer : List ConditionLevel) (l : WordLine .elif) :
    (s.within (level :: outer)).step l.item =
      (s.within (level.branch (l.line.holds s.effects.symbols) :: outer), none) := by
  simp [WordLine.item, step, directive, l.word_eq, within, hf, ConditionStack.top?,
    ConditionStack.modifyTop]

theorem step_else (s : Standing) (level : ConditionLevel) (outer : List ConditionLevel)
    (l : WordLine .elseWord) :
    (s.within (level :: outer)).step l.item = (s.within (level.lastBranch :: outer), none) := by
  simp [WordLine.item, step, directive, l.word_eq, within, ConditionStack.modifyTop]

theorem step_endif (s : Standing) (level : ConditionLevel) (outer : List ConditionLevel)
    (l : WordLine .endif) :
    (s.within (level :: outer)).step l.item = (s.within outer, none) := by
  simp [WordLine.item, step, directive, l.word_eq, within, ConditionStack.pop]

theorem directive_of_unconditional (s : Standing) {d : DirectiveLine}
    (h : d.word.token.directive?.filter Directive.isConditional = none) :
    s.directive d = s.apply d.effect := by
  unfold directive
  cases hd : d.word.token.directive? with
  | none => rfl
  | some w => cases w <;> first | rfl | simp [hd, Directive.isConditional] at h

/-- Other items leave the conditions alone, and excluded code has no effect. -/
theorem step_plain (s : Standing) {item : SourceItem} (h : item.conditional? = none) :
    s.step item =
      if s.includesCode then
        (s.withEffects (item.interpret s.settings s.effects).1,
          (item.interpret s.settings s.effects).2)
      else (s, none) := by
  match item, h with
  | .token t, _ => cases hc : s.includesCode <;> simp [step, SourceItem.interpret, hc]
  | .directive _ _ [], _ => simp [step, SourceItem.interpret]
  | .directive _ _ (word :: operands), h =>
    simp only [step, s.directive_of_unconditional (d := ⟨word, operands⟩) h, apply, update]
    split <;> rfl

end Standing

/-! ## The flat run and the tree -/

mutual

/-- A tree in excluded code changes nothing. -/
theorem Nest.steps_of_excluded (n : Nest) (s : Standing) (h : s.includesCode = false) :
    s.steps n.items = (s, []) := by
  match n with
  | .done => rfl
  | .plain item hp rest =>
    have hr := rest.steps_of_excluded s h
    simp [Nest.items, Standing.steps, s.step_plain hp, h, hr]
  | .group opening body more rest =>
    let level := ConditionLevel.opened (opening.line.holds s.effects.symbols)
    have hx : (s.within (level :: s.conditions.levels)).includesCode = false :=
      Bool.and_eq_false_iff.mpr (Or.inr h)
    have hb := body.steps_of_excluded _ hx
    have hm := more.steps_of_skipped s level rfl (Or.inr h)
    have hr := rest.steps_of_excluded s h
    simp only [level] at hb hm
    simp [Nest.items, Standing.steps, s.step_if, Standing.steps_append, hb, hm, hr]

/-- The branches that follow a selected one, or that stand in excluded code, change nothing and
close their level. -/
theorem Branches.steps_of_skipped (b : Branches) (s : Standing) (level : ConditionLevel)
    {outer : List ConditionLevel} (hf : level.isFinal = false)
    (hs : level.hasEnabled = true ∨ outer.all (·.enabled) = false) :
    (s.within (level :: outer)).steps b.items = (s.within outer, []) := by
  match b with
  | .close closing => simp [Branches.items, Standing.steps, Standing.step_endif]
  | .branch opening body more =>
    let next := level.branch (opening.line.holds s.effects.symbols)
    have hn : next.hasEnabled = true ∨ outer.all (·.enabled) = false :=
      hs.imp_left fun h => by simp [next, ConditionLevel.branch, h]
    have hx : (s.within (next :: outer)).includesCode = false :=
      Bool.and_eq_false_iff.mpr (hs.imp_left fun h => by simp [next, ConditionLevel.branch, h])
    have hb := body.steps_of_excluded _ hx
    have hm := more.steps_of_skipped s next hf hn
    simp only [next] at hb hm
    simp [Branches.items, Standing.steps, s.step_elif hf, Standing.steps_append, hb, hm]
  | .fallback opening body closing =>
    have hx : (s.within (level.lastBranch :: outer)).includesCode = false :=
      Bool.and_eq_false_iff.mpr (hs.imp_left fun h => by simp [ConditionLevel.lastBranch, h])
    have hb := body.steps_of_excluded _ hx
    simp [Branches.items, Standing.steps, s.step_else, s.step_endif, Standing.steps_append, hb]

end

/-- A branch that is not selected is passed over. -/
theorem Nest.steps_append_of_excluded (body : Nest) (items : List SourceItem) {s : Standing}
    (h : s.includesCode = false) : s.steps (body.items ++ items) = s.steps items := by
  simp [Standing.steps_append, body.steps_of_excluded s h]

/-- After a branch that was selected the level has nothing more to give. -/
theorem Branches.steps_of_selected (more : Branches) {items : List SourceItem} (s : Standing)
    (level : ConditionLevel) {outer : List ConditionLevel} {e : Effects}
    {kept : List PositionedToken} (hf : level.isFinal = false) (hs : level.hasEnabled = true)
    (hb : (s.within (level :: outer)).steps items =
      ((s.withEffects e).within (level :: outer), kept)) :
    (s.within (level :: outer)).steps (items ++ more.items) =
      ((s.withEffects e).within outer, kept) := by
  have hm : ((s.withEffects e).within (level :: outer)).steps more.items =
      ((s.withEffects e).within outer, []) :=
    more.steps_of_skipped (s.withEffects e) level hf (Or.inl hs)
  simp [Standing.steps_append, hb, hm]

mutual

/-- A tree in included code does what its interpretation says. -/
theorem Nest.steps_of_included (n : Nest) (s : Standing) (h : s.includesCode = true) :
    s.steps n.items =
      (s.withEffects (n.interpret s.settings s.effects).1,
        (n.interpret s.settings s.effects).2) := by
  match n with
  | .done => rfl
  | .plain item hp rest =>
    have hr := rest.steps_of_included (s.withEffects (item.interpret s.settings s.effects).1) h
    simp [Nest.items, Nest.interpret, Standing.steps, s.step_plain hp, h, hr]
  | .group opening body more rest =>
    simp only [Nest.items, Nest.interpret, Standing.steps, s.step_if]
    rw [← List.append_assoc, Standing.steps_append]
    cases hv : opening.line.holds s.effects.symbols with
    | true =>
      have hx : (s.within (.opened true :: s.conditions.levels)).includesCode = true := h
      have hb := body.steps_of_included _ hx
      simp only [Standing.within_settings, Standing.within_effects,
        Standing.withEffects_within] at hb
      have hm := more.steps_of_selected s (.opened true) rfl rfl hb
      have hr := rest.steps_of_included (s.withEffects (body.interpret s.settings s.effects).1) h
      simp [hm, hr]
    | false =>
      have hx : (s.within (.opened false :: s.conditions.levels)).includesCode = false := rfl
      have hm := more.steps_of_open s (.opened false) rfl rfl h
      have hr := rest.steps_of_included (s.withEffects (more.interpret s.settings s.effects).1) h
      rw [body.steps_append_of_excluded _ hx, hm]
      simp [hr]

/-- Where no branch has been selected yet, the branches that follow do what their interpretation
says and close their level. -/
theorem Branches.steps_of_open (b : Branches) (s : Standing) (level : ConditionLevel)
    {outer : List ConditionLevel} (hf : level.isFinal = false) (hn : level.hasEnabled = false)
    (h : outer.all (·.enabled) = true) :
    (s.within (level :: outer)).steps b.items =
      ((s.withEffects (b.interpret s.settings s.effects).1).within outer,
        (b.interpret s.settings s.effects).2) := by
  match b with
  | .close closing => simp [Branches.items, Branches.interpret, Standing.steps, s.step_endif]
  | .branch opening body more =>
    simp only [Branches.items, Branches.interpret, Standing.steps, s.step_elif hf]
    cases hv : opening.line.holds s.effects.symbols with
    | true =>
      have hx : (s.within (level.branch true :: outer)).includesCode = true := by
        simpa [Standing.within, Standing.includesCode, ConditionStack.includesCode,
          ConditionLevel.branch, hn] using h
      have hb := body.steps_of_included _ hx
      simp only [Standing.within_settings, Standing.within_effects,
        Standing.withEffects_within] at hb
      have hm := more.steps_of_selected s (level.branch true) hf rfl hb
      simp [hm]
    | false =>
      have hx : (s.within (level.branch false :: outer)).includesCode = false := rfl
      have hm := more.steps_of_open s (level.branch false) hf hn h
      simp [body.steps_append_of_excluded _ hx, hm]
  | .fallback opening body closing =>
    have hx : (s.within (level.lastBranch :: outer)).includesCode = true := by
      simpa [Standing.within, Standing.includesCode, ConditionStack.includesCode,
        ConditionLevel.lastBranch, hn] using h
    have hb := body.steps_of_included _ hx
    simp [Branches.items, Branches.interpret, Standing.steps, s.step_else, Standing.steps_append,
      hb, Standing.step_endif]

end

theorem Nest.runUnit_eq {nest : Nest} {tokens : List PositionedToken} (s : PreprocessState)
    (hs : s.includesCode = true) (h : nest.items = SourceItem.ofTokens none tokens) :
    (s.runUnit .default tokens).1.effects = (nest.interpret s.settings s.effects).1 ∧
    (s.runUnit .default tokens).2 = (nest.interpret s.settings s.effects).2 := by
  obtain ⟨h₁, h₂⟩ := standing_runUnit s tokens
  rw [← h, nest.steps_of_included s.standing hs] at h₁ h₂
  exact ⟨congrArg Standing.effects h₁, h₂⟩

/-- **Conditional code is read as a tree.** Items that nest properly are a tree written out, and
running them leaves the tokens, symbols, apparent position and policy entries of the tree's
interpretation, which never looks into a branch that is not taken. -/
theorem run_eq_interpret (settings : Settings) (tokens : List PositionedToken)
    (h : NestsProperly (SourceItem.ofTokens none tokens)) :
    (∃ nest : Nest, nest.items = SourceItem.ofTokens none tokens) ∧
    ∀ nest : Nest, nest.items = SourceItem.ofTokens none tokens →
      let (p, result) := ((Preprocessor.ofSettings settings).setInput tokens).run
      let (e, kept) := nest.interpret settings { symbols := settings.defines }
      result = .ok kept ∧ p.state.symbols = e.symbols ∧ p.state.position = e.position ∧
        p.state.diagnostics.policy.entries = e.entries := by
  refine ⟨exists_nest h, fun nest hn => ?_⟩
  obtain ⟨he, hk⟩ := nest.runUnit_eq (.ofSettings settings) rfl hn
  exact ⟨congrArg Except.ok hk, congrArg Effects.symbols he, congrArg Effects.position he,
    congrArg Effects.entries he⟩

/-- Tokens side by side on a line, each one character wide. -/
def row (line : Nat) (tokens : List Token) : List PositionedToken :=
  tokens.zipIdx.map fun (token, i) => { token, file := "shell", line, column := i + 1, length := 1 }

/-- The branch that is taken defines `B`: too late for the `#elif` that asks for it, in time for the
last `#if`. -/
def lateDefine : List PositionedToken :=
  row 1 [.operator .hash, .directive .ifWord, .identifier ⟨0, "A"⟩] ++
  row 2 [.operator .hash, .directive .define, .identifier ⟨0, "B"⟩] ++
  row 3 [.operator .hash, .directive .elif, .identifier ⟨0, "B"⟩] ++
  row 4 [.identifier ⟨0, "x"⟩] ++
  row 5 [.operator .hash, .directive .elseWord] ++
  row 6 [.operator .hash, .directive .ifWord, .identifier ⟨0, "B"⟩] ++
  row 7 [.operator .hash, .directive .endif] ++
  row 8 [.operator .hash, .directive .endif] ++
  row 9 [.operator .hash, .directive .ifWord, .identifier ⟨0, "B"⟩] ++
  row 10 [.identifier ⟨0, "y"⟩] ++
  row 11 [.operator .hash, .directive .endif]

theorem run_eq_interpret_lateDefine :
    NestsProperly (SourceItem.ofTokens none lateDefine) ∧
    ∃ nest : Nest, nest.items = SourceItem.ofTokens none lateDefine ∧
      (nest.interpret (.withDefines ["A"]) { symbols := .ofList ["A"] }).2 =
        row 10 [.identifier ⟨0, "y"⟩] := by
  have h : NestsProperly (SourceItem.ofTokens none lateDefine) := by decide +kernel
  obtain ⟨⟨nest, hn⟩, hall⟩ := run_eq_interpret (.withDefines ["A"]) lateDefine h
  have hrun : ((Preprocessor.ofSettings (.withDefines ["A"])).setInput lateDefine).run.2.toOption =
      some (row 10 [.identifier ⟨0, "y"⟩]) := by decide +kernel
  exact ⟨h, nest, hn, Option.some.inj ((congrArg Except.toOption (hall nest hn).1).symm.trans hrun)⟩

end SharpFront
