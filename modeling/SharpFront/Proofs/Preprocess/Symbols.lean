import Mathlib.Data.List.Induction
import SharpFront.Proofs.Condition.Grammar
import SharpFront.Proofs.Preprocess.Defines

/-!
# Which symbols are defined

The directives `#define` and `#undef` of included code put symbols in and take them out again, so
the last one about a symbol counts, over all the units that a preprocessor has taken.

* `SymbolOrder`, `PreprocessState.symbolOrders`, `Preprocessor.symbolOrders`: what they order, in the
  order in which it is carried out;
* `lastOrder?`, `IsDefined`: the order about a symbol that still counts, and what comes of it;
* `contains_obeyAll_iff`: the symbols after orders that are carried out one after the other;
* `steps_symbols`, `symbols_runAll`: runs obey their orders;
* `run_symbols`: what is defined at every point of a run, and what conditions and operands make of
  it.
-/

namespace SharpFront

/-! ## Orders -/

/-- What a `#define` or `#undef` orders. -/
inductive SymbolOrder where
  | define (symbol : String)
  | undef (symbol : String)
  deriving DecidableEq, Repr

def SymbolOrder.symbol : SymbolOrder → String
  | define symbol | undef symbol => symbol

/-- The order of a `#define` or `#undef` by its first operand, if that is a word. What follows the
operand is of no account. -/
def DirectiveLine.symbolOrder? (d : DirectiveLine) : Option SymbolOrder :=
  match d.word.token.directive? with
  | some .define => d.subject?.map .define
  | some .undef => d.subject?.map .undef
  | _ => none

def SourceItem.symbolOrder? : SourceItem → Option SymbolOrder
  | directive _ _ (word :: operands) => DirectiveLine.symbolOrder? ⟨word, operands⟩
  | _ => none

/-- The orders that a run over the items carries out: those in included code. -/
def PreprocessState.symbolOrders (s : PreprocessState) : List SourceItem → List SymbolOrder
  | [] => []
  | item :: items =>
    (if s.includesCode then item.symbolOrder?.toList else []) ++
      (s.step .default item).1.symbolOrders items

namespace Preprocessor

/-- The preprocessor after it has run through some units. -/
def runAll (p : Preprocessor) (units : List (List PositionedToken)) : Preprocessor :=
  units.foldl (fun p unit => (p.setInput unit).run.1) p

/-- The orders that it carries out on the way. -/
def symbolOrders (p : Preprocessor) : List (List PositionedToken) → List SymbolOrder
  | [] => []
  | unit :: units =>
    (p.setInput unit).state.symbolOrders (SourceItem.ofTokens none unit) ++
      (p.setInput unit).run.1.symbolOrders units

end Preprocessor

/-- The last of the orders that is about a symbol. -/
def lastOrder? (orders : List SymbolOrder) (symbol : String) : Option SymbolOrder :=
  orders.reverse.find? (·.symbol = symbol)

theorem lastOrder?_concat (orders : List SymbolOrder) (order : SymbolOrder) (symbol : String) :
    lastOrder? (orders ++ [order]) symbol =
      if order.symbol = symbol then some order else lastOrder? orders symbol := by
  rw [lastOrder?, List.reverse_append, List.reverse_singleton, List.singleton_append,
    List.find?_cons]
  by_cases about : order.symbol = symbol <;> simp [about, lastOrder?]

/-- The symbol is defined where some were to begin with and orders were carried out since. -/
def IsDefined (start : SymbolSet) (orders : List SymbolOrder) (symbol : String) : Prop :=
  lastOrder? orders symbol = some (.define symbol) ∨
    lastOrder? orders symbol = none ∧ start.contains symbol = true

instance (start : SymbolSet) (orders : List SymbolOrder) (symbol : String) :
    Decidable (IsDefined start orders symbol) := inferInstanceAs (Decidable (_ ∨ _))

/-! ## Obeying them -/

namespace SymbolSet

def obey (symbols : SymbolSet) : SymbolOrder → SymbolSet
  | .define symbol => symbols.insert symbol
  | .undef symbol => symbols.erase symbol

def obeyAll (symbols : SymbolSet) (orders : List SymbolOrder) : SymbolSet :=
  orders.foldl obey symbols

theorem obeyAll_append (symbols : SymbolSet) (a b : List SymbolOrder) :
    obeyAll symbols (a ++ b) = obeyAll (obeyAll symbols a) b := List.foldl_append

/-- **The last order about a symbol counts.** The induction is on the orders from the last one
back. -/
theorem contains_obeyAll_iff (start : SymbolSet) (orders : List SymbolOrder) (symbol : String) :
    (obeyAll start orders).contains symbol = true ↔ IsDefined start orders symbol := by
  induction orders using List.reverseRecOn with
  | nil => simp [obeyAll, IsDefined, lastOrder?]
  | append_singleton orders order ih =>
    have last : obeyAll start (orders ++ [order]) = obey (obeyAll start orders) order :=
      obeyAll_append start orders [order]
    rw [last, IsDefined, lastOrder?_concat]
    by_cases about : order.symbol = symbol
    · rw [if_pos about]
      cases order with
      | define named =>
        obtain rfl : named = symbol := about
        simp [obey]
      | undef named =>
        obtain rfl : named = symbol := about
        simp [obey]
    · rw [if_neg about]
      have untouched : (obey (obeyAll start orders) order).contains symbol =
          (obeyAll start orders).contains symbol := by
        cases order with
        | define named =>
          have other : named ≠ symbol := about
          simp [obey, Std.TreeSet.contains_insert, other]
        | undef named =>
          have other : named ≠ symbol := about
          simp [obey, Std.TreeSet.contains_erase, other]
      rw [untouched]
      exact ih

end SymbolSet

/-! ## The symbols of a run -/

namespace DirectiveLine

/-- In included code a line does to the symbols what it orders. -/
theorem symbols_effect (d : DirectiveLine) (e : Effects) :
    (d.effect e).symbols = SymbolSet.obeyAll e.symbols d.symbolOrder?.toList := by
  cases names : d.word.token.directive? with
  | none => simp only [effect, symbolOrder?, names]; rfl
  | some w =>
    cases w with
    | define | undef =>
      simp only [effect, symbolOrder?, names]
      cases d.subject? <;> rfl
    | _ => simp only [effect, symbolOrder?, names]; rfl

end DirectiveLine

namespace Standing

theorem directive_symbols (s : Standing) (d : DirectiveLine) :
    (s.directive d).effects.symbols =
      SymbolSet.obeyAll s.effects.symbols
        (if s.includesCode then d.symbolOrder?.toList else []) := by
  rw [directive_effects]
  split
  · exact d.symbols_effect s.effects
  · rfl

theorem step_symbols (s : Standing) (item : SourceItem) :
    (s.step item).1.effects.symbols =
      SymbolSet.obeyAll s.effects.symbols
        (if s.includesCode then item.symbolOrder?.toList else []) := by
  match item with
  | .token t => cases h : s.includesCode <;> rfl
  | .directive _ _ [] => cases h : s.includesCode <;> rfl
  | .directive hash leads (word :: operands) => exact s.directive_symbols ⟨word, operands⟩

end Standing

namespace PreprocessState

theorem step_symbols (s : PreprocessState) (item : SourceItem) :
    (s.step .default item).1.symbols =
      SymbolSet.obeyAll s.symbols (if s.includesCode then item.symbolOrder?.toList else []) := by
  have same := congrArg (fun s : Standing => s.effects.symbols) (standing_step s item).1
  exact same.trans (s.standing.step_symbols item)

/-- **A run obeys its orders one after the other.** -/
theorem steps_symbols (s : PreprocessState) (items : List SourceItem) :
    (s.steps .default items).1.symbols = SymbolSet.obeyAll s.symbols (s.symbolOrders items) := by
  induction items generalizing s with
  | nil => rfl
  | cons item items ih =>
    rw [symbolOrders, SymbolSet.obeyAll_append, ← step_symbols, ← ih]
    rfl

end PreprocessState

namespace Preprocessor

variable {p : Preprocessor}

/-- A unit leaves the symbols that its orders make of those before it. -/
theorem symbols_run (isDefault : p.table = .default) (unit : List PositionedToken) :
    (p.setInput unit).run.1.state.symbols =
      SymbolSet.obeyAll p.state.symbols
        ((p.setInput unit).state.symbolOrders (SourceItem.ofTokens none unit)) := by
  have finished := congrArg (fun s : Standing => s.effects.symbols)
    (standing_finish
      ((p.setInput unit).state.steps p.table (SourceItem.ofTokens none unit)).1 unit)
  rw [isDefault] at finished
  have ran : (p.setInput unit).run.1.state.symbols =
      (((p.setInput unit).state.steps p.table (SourceItem.ofTokens none unit)).1.finish
        unit).symbols := rfl
  rw [ran, isDefault]
  exact finished.trans ((p.setInput unit).state.steps_symbols (SourceItem.ofTokens none unit))

/-- The induction is on the units, as each starts with the symbols that the one before it left. -/
theorem symbols_runAll (isDefault : p.table = .default) (units : List (List PositionedToken)) :
    (p.runAll units).state.symbols = SymbolSet.obeyAll p.state.symbols (p.symbolOrders units) ∧
      (p.runAll units).table = .default := by
  induction units generalizing p with
  | nil => exact ⟨rfl, isDefault⟩
  | cons unit units ih =>
    obtain ⟨symbols, table⟩ := ih (p := (p.setInput unit).run.1) isDefault
    refine ⟨?_, table⟩
    rw [symbolOrders, SymbolSet.obeyAll_append, ← symbols_run isDefault]
    exact symbols

end Preprocessor

/-! ## Every point of a run -/

namespace PreprocessState

variable (s : PreprocessState) (hash word : PositionedToken) (leads : Bool)

/-- What a directive line does to the open conditions. -/
theorem step_conditions (operands : List PositionedToken) :
    (s.step .default (.directive hash leads (word :: operands))).1.conditions =
      (s.standing.directive ⟨word, operands⟩).conditions :=
  congrArg Standing.conditions (standing_step s (.directive hash leads (word :: operands))).1

/-- Without a word to be about, a directive line leaves the symbols alone. -/
theorem step_symbols_of_subject_none {operands : List PositionedToken}
    (noWord : operands.head?.bind (·.token.word?) = none) :
    (s.step .default (.directive hash leads (word :: operands))).1.symbols = s.symbols := by
  have noOrder : DirectiveLine.symbolOrder? ⟨word, operands⟩ = none := by
    unfold DirectiveLine.symbolOrder? DirectiveLine.subject?
    simp only [noWord]
    split <;> rfl
  rw [step_symbols, SourceItem.symbolOrder?, noOrder, Option.toList_none, ite_self]
  rfl

/-- A `#define` or `#undef` is about its first operand, whatever comes after it. -/
theorem step_symbols_of_order {operands : List PositionedToken} {order : SymbolOrder}
    (isOrder : DirectiveLine.symbolOrder? ⟨word, operands⟩ = some order) :
    (s.step .default (.directive hash leads (word :: operands))).1.symbols =
      if s.includesCode then s.symbols.obey order else s.symbols := by
  rw [step_symbols, SourceItem.symbolOrder?, isOrder]
  split <;> rfl

end PreprocessState

/-- **The last order about a symbol counts, at every point.** A preprocessor may have taken any units
before, and is at any point of a run over any tokens, those of a text among them. A symbol is
defined there when the last `#define` or `#undef` of it that was carried out is a `#define`, or when
there is none and the settings define it. That is the value of a condition that is one word, but for
the constants, and what an `#if` or `#elif` goes by. A `#define` or `#undef` without a word as its
first operand never changes the symbols; with one, it changes them in included code, whatever the
operands after it. -/
theorem run_symbols (settings : Settings) (earlier : List (List PositionedToken))
    (tokens : List PositionedToken) :
    let p := ((Preprocessor.ofSettings settings).runAll earlier).setInput tokens
    let past := (Preprocessor.ofSettings settings).symbolOrders earlier
    (∃ output, p.run.2 = .ok output ∧ ∀ w, p.run.1.state.symbols.contains w = true ↔
      IsDefined settings.defines
        (past ++ p.state.symbolOrders (SourceItem.ofTokens none tokens)) w) ∧
    ∀ front back, SourceItem.ofTokens none tokens = front ++ back →
      let s := (p.state.steps .default front).1
      let orders := past ++ p.state.symbolOrders front
      (∀ w, s.symbols.contains w = true ↔ IsDefined settings.defines orders w) ∧
      ∀ hash leads word operands rest, back = .directive hash leads (word :: operands) :: rest →
        let next := (s.step .default (.directive hash leads (word :: operands))).1
        (∀ operand w, operands = [operand] → operand.token.word? = some w →
          w ≠ "true" → w ≠ "false" →
          let holds := decide (IsDefined settings.defines orders w)
          Condition.evaluate s.symbols.contains operands word = (holds, []) ∧
          (word.token.directive? = some .ifWord →
            next.conditions = s.conditions.push (.opened holds)) ∧
          (word.token.directive? = some .elif → s.conditions.top?.any (!·.isFinal) = true →
            next.conditions = s.conditions.modifyTop (·.branch holds))) ∧
        (operands.head?.bind (·.token.word?) = none → next.symbols = s.symbols) ∧
        ∀ operand excess w, operands = operand :: excess → operand.token.word? = some w →
          (word.token.directive? = some .define →
            next.symbols = if s.includesCode then s.symbols.insert w else s.symbols) ∧
          (word.token.directive? = some .undef →
            next.symbols = if s.includesCode then s.symbols.erase w else s.symbols) := by
  intro p past
  obtain ⟨symbols, isDefault⟩ :=
    Preprocessor.symbols_runAll (p := .ofSettings settings) rfl earlier
  have before : p.state.symbols = SymbolSet.obeyAll settings.defines past := symbols
  refine ⟨⟨_, rfl, ?atEnd⟩, ?_⟩
  case atEnd =>
    intro w
    have left : p.run.1.state.symbols = _ := Preprocessor.symbols_run isDefault tokens
    rw [left, symbols, ← SymbolSet.obeyAll_append]
    exact SymbolSet.contains_obeyAll_iff _ _ w
  intro front back isSplit s orders
  have obeyed : s.symbols = SymbolSet.obeyAll settings.defines orders := by
    rw [SymbolSet.obeyAll_append, ← before]
    exact p.state.steps_symbols front
  have defined (w : String) : s.symbols.contains w = true ↔ IsDefined settings.defines orders w := by
    rw [obeyed]
    exact SymbolSet.contains_obeyAll_iff _ _ w
  refine ⟨defined, ?_⟩
  intro hash leads word operands rest isNext next
  refine ⟨?condition, s.step_symbols_of_subject_none hash word leads, ?word⟩
  case condition =>
    rintro operand w rfl isWord notTrue notFalse holds
    have value : s.symbols.contains w = holds := by
      rw [Bool.eq_iff_iff, defined, decide_eq_true_iff]
    have evaluated : Condition.evaluate s.symbols.contains [operand] word = (holds, []) := by
      rw [← value]
      exact Condition.evaluate_word isWord notTrue notFalse word
    have condition : DirectiveLine.holds ⟨word, [operand]⟩ s.symbols = holds :=
      congrArg Prod.fst evaluated
    refine ⟨evaluated, ?_, ?_⟩
    · intro names
      rw [s.step_conditions, Standing.directive, names, ← condition]
      rfl
    · intro names mayBranch
      have within : s.standing.conditions.top?.any (!·.isFinal) = true := mayBranch
      rw [s.step_conditions, Standing.directive, names]
      simp only [within, if_true]
      rw [← condition]
      rfl
  case word =>
    rintro operand excess w rfl isWord
    have subject : DirectiveLine.subject? ⟨word, operand :: excess⟩ = some w := isWord
    constructor
    · intro names
      have isOrder : DirectiveLine.symbolOrder? ⟨word, operand :: excess⟩ = some (.define w) := by
        simp only [DirectiveLine.symbolOrder?, names, subject, Option.map_some]
      exact s.step_symbols_of_order hash word leads isOrder
    · intro names
      have isOrder : DirectiveLine.symbolOrder? ⟨word, operand :: excess⟩ = some (.undef w) := by
        simp only [DirectiveLine.symbolOrder?, names, subject, Option.map_some]
      exact s.step_symbols_of_order hash word leads isOrder

/-- The tokens of the lines `#define A B` and `#if A`. -/
def lateCondition : List PositionedToken :=
  [⟨.operator .hash, "main.cs", 1, 1, 1, false⟩, ⟨.directive .define, "main.cs", 1, 2, 6, false⟩,
    ⟨.whitespace, "main.cs", 1, 8, 1, false⟩, ⟨.identifier ⟨8, "A"⟩, "main.cs", 1, 9, 1, false⟩,
    ⟨.whitespace, "main.cs", 1, 10, 1, false⟩, ⟨.identifier ⟨10, "B"⟩, "main.cs", 1, 11, 1, false⟩,
    ⟨.whitespace, "main.cs", 1, 12, 1, false⟩, ⟨.operator .hash, "main.cs", 2, 1, 1, false⟩,
    ⟨.directive .ifWord, "main.cs", 2, 2, 2, false⟩, ⟨.whitespace, "main.cs", 2, 4, 1, false⟩,
    ⟨.identifier ⟨16, "A"⟩, "main.cs", 2, 5, 1, false⟩]

/-- The line `#define A B`. -/
def defineLine : SourceItem :=
  .directive ⟨.operator .hash, "main.cs", 1, 1, 1, false⟩ true
    [⟨.directive .define, "main.cs", 1, 2, 6, false⟩,
      ⟨.identifier ⟨8, "A"⟩, "main.cs", 1, 9, 1, false⟩,
      ⟨.identifier ⟨10, "B"⟩, "main.cs", 1, 11, 1, false⟩]

/-- The line `#if A` after it. -/
def conditionLine : SourceItem :=
  .directive ⟨.operator .hash, "main.cs", 2, 1, 1, false⟩ true
    [⟨.directive .ifWord, "main.cs", 2, 2, 2, false⟩,
      ⟨.identifier ⟨16, "A"⟩, "main.cs", 2, 5, 1, false⟩]

/-- An earlier unit withdraws `B` in excluded code, so that it stays; then `A` is defined, and the
`B` after it is of no account. -/
theorem run_symbols_excluded :
    tokenize "#define A B\n#if A" "main.cs" = .ok (lateCondition, {}) ∧
      SourceItem.ofTokens none lateCondition = [defineLine, conditionLine] ∧
      let p := ((Preprocessor.ofSettings (.withDefines ["B"])).runAll [withdrawal]).setInput
        lateCondition
      let s := (p.state.steps .default [defineLine]).1
      s.symbols.contains "A" = true ∧ s.symbols.contains "B" = true ∧
        (s.step .default conditionLine).1.conditions = s.conditions.push (.opened true) := by
  obtain ⟨tokenized, -⟩ := preprocess_guided "main.cs" "#define A B\n#if A"
    [.operator .hash, .word, .whitespace, .word, .whitespace, .word, .whitespace,
      .operator .hash, .word, .whitespace, .word] lateCondition
    (by decide) (by decide_cbv) (by cbv) rfl
  have items : SourceItem.ofTokens none lateCondition = [defineLine, conditionLine] := by cbv
  refine ⟨tokenized, items, ?_⟩
  obtain ⟨-, points⟩ := run_symbols (.withDefines ["B"]) [withdrawal] lateCondition
  obtain ⟨defined, lines⟩ := points [defineLine] [conditionLine] items
  obtain ⟨condition, -⟩ := lines _ true _ _ [] rfl
  obtain ⟨-, opens, -⟩ := condition _ "A" rfl rfl (by decide) (by decide)
  have past : (Preprocessor.ofSettings (.withDefines ["B"])).symbolOrders [withdrawal] = [] := by
    cbv
  have here : (((Preprocessor.ofSettings (.withDefines ["B"])).runAll [withdrawal]).setInput
      lateCondition).state.symbolOrders [defineLine] = [.define "A"] := by
    cbv
  have isDefined : ∀ w ∈ ["A", "B"],
      IsDefined (Settings.withDefines ["B"]).defines ([] ++ [.define "A"]) w := by
    decide
  rw [past, here] at defined
  refine ⟨(defined "A").mpr (isDefined "A" (by simp)), (defined "B").mpr (isDefined "B" (by simp)), ?_⟩
  refine (opens rfl).trans ?_
  rw [past, here, decide_eq_true (isDefined "A" (by simp))]

end SharpFront
