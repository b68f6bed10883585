import SharpFront.Proofs.Output
import SharpFront.Proofs.Preprocess.Fates

/-!
# Lists of codes

A `#pragma warning` names an action and, with commas between them, the codes that it is about.

* `PolicyOperands`: what is to follow the word `warning`, and the codes that it stands for;
* `Diagnostics.silent_hearAll_iff`: a sink keeps silent about entries and nothing else;
* `policy_silent_iff`: which lines report nothing, and the entries that they make;
* `AsksForProperLists`: that only proper lists are among them, which fails after a last comma.
-/

namespace SharpFront

variable {action : WarningAction} {tokens : List PositionedToken} {codes : List Nat} {line : Nat}

/-! ## The operands -/

/-- Codes with commas between them. -/
inductive CodeList : List Nat → List PositionedToken → Prop where
  | single {code : Nat} {t : PositionedToken} (isCode : t.token.plainNumber? = some code) :
    CodeList [code] [t]
  | cons {code : Nat} {t comma : PositionedToken} {codes : List Nat}
    {tokens : List PositionedToken} (isCode : t.token.plainNumber? = some code)
    (isComma : comma.token = .operator .comma) (more : CodeList codes tokens) :
    CodeList (code :: codes) (t :: comma :: tokens)

/-- `disable` or `restore`, alone for every warning or with the codes it is about. -/
inductive PolicyOperands (action : WarningAction) : List (Option Nat) → List PositionedToken → Prop
  where
  | all {t : PositionedToken} (isAction : DirectiveLine.action? t.token = some action) :
    PolicyOperands action [none] [t]
  | codes {t : PositionedToken} {codes : List Nat} {tokens : List PositionedToken}
    (isAction : DirectiveLine.action? t.token = some action) (list : CodeList codes tokens) :
    PolicyOperands action (codes.map some) (t :: tokens)

/-- The operands are proper ones, or there is one more comma after the last code. -/
inductive TakenAs (action : WarningAction) (codes? : List (Option Nat)) :
    List PositionedToken → Prop where
  | proper {operands : List PositionedToken} (proper : PolicyOperands action codes? operands) :
    TakenAs action codes? operands
  | comma {operands : List PositionedToken} {comma : PositionedToken}
    (proper : PolicyOperands action codes? operands) (hasCodes : codes? ≠ [none])
    (isComma : comma.token = .operator .comma) : TakenAs action codes? (operands ++ [comma])

theorem CodeList.tokens_ne_nil (h : CodeList codes tokens) : tokens ≠ [] := by
  cases h <;> exact List.cons_ne_nil _ _

open DirectiveLine

/-- A list of codes makes an entry for each, whether or not a comma ends it. -/
theorem codeEvents_append (h : CodeList codes tokens) {rest : List PositionedToken}
    (ends : rest = [] ∨ ∃ comma, comma.token = .operator .comma ∧ rest = [comma]) :
    codeEvents line action (tokens ++ rest) =
      codes.map fun code => .entry ⟨line, some code, action⟩ := by
  induction h with
  | single isCode =>
    rcases ends with rfl | ⟨comma, isComma, rfl⟩
    · simp [codeEvents, isCode]
    · simp [codeEvents, isCode, isComma, Token.isOperator]
  | cons isCode isComma more ih =>
    rw [List.cons_append, List.cons_append, List.map_cons, ← ih]
    simp [codeEvents, isCode, isComma, Token.isOperator]

theorem exists_codeList (line : Nat) (action : WarningAction) :
    ∀ tokens : List PositionedToken, tokens ≠ [] →
      (∀ e ∈ codeEvents line action tokens, e.IsEntry) →
      ∃ codes listed rest, tokens = listed ++ rest ∧ CodeList codes listed ∧
        (rest = [] ∨ ∃ comma, comma.token = .operator .comma ∧ rest = [comma])
  | [], notEmpty, _ => absurd rfl notEmpty
  | [t], _, areEntries => by
    simp only [codeEvents] at areEntries
    cases isCode : t.token.plainNumber? with
    | none => simp [isCode, Event.IsEntry] at areEntries
    | some code => exact ⟨[code], [t], [], rfl, .single isCode, .inl rfl⟩
  | t :: separator :: more, _, areEntries => by
    simp only [codeEvents] at areEntries
    obtain ⟨first, later⟩ := List.forall_mem_cons.mp areEntries
    cases isCode : t.token.plainNumber? with
    | none => simp [isCode, Event.IsEntry] at first
    | some code =>
      by_cases isComma : separator.token.isOperator .comma = true
      case neg => simp [isComma, Event.IsEntry] at later
      rw [if_pos isComma] at later
      have isComma := eq_of_beq isComma
      by_cases isEmpty : more = []
      · subst isEmpty
        exact ⟨[code], [t], [separator], rfl, .single isCode, .inr ⟨separator, isComma, rfl⟩⟩
      · obtain ⟨codes, listed, rest, rfl, list, ends⟩ :=
          exists_codeList line action more isEmpty later
        exact ⟨code :: codes, t :: separator :: listed, rest, rfl, .cons isCode isComma list, ends⟩

/-- Operands that are taken for some codes make an entry for each. -/
theorem policyEvents_eq {codes? : List (Option Nat)} {operands : List PositionedToken}
    (h : TakenAs action codes? operands) (line : Nat) (kind : PositionedToken) :
    policyEvents line kind operands =
      codes?.map fun code? => .entry ⟨line, code?, action⟩ := by
  have listed {t : PositionedToken} {codes : List Nat} {tokens rest : List PositionedToken}
      (isAction : action? t.token = some action) (list : CodeList codes tokens)
      (ends : rest = [] ∨ ∃ comma, comma.token = .operator .comma ∧ rest = [comma]) :
      policyEvents line kind (t :: (tokens ++ rest)) =
        (codes.map some).map fun code? => .entry ⟨line, code?, action⟩ := by
    have notEmpty : (tokens ++ rest).isEmpty = false := by simp [list.tokens_ne_nil]
    simp only [policyEvents, isAction, notEmpty, Bool.false_eq_true, if_false,
      codeEvents_append list ends, List.map_map]
    rfl
  cases h with
  | proper proper =>
    cases proper with
    | all isAction => simp [policyEvents, isAction]
    | @codes t codes tokens isAction list =>
      have whole := listed isAction list (.inl rfl)
      rwa [List.append_nil] at whole
  | comma proper hasCodes isComma =>
    cases proper with
    | all isAction => exact absurd rfl hasCodes
    | codes isAction list => exact listed isAction list (.inr ⟨_, isComma, rfl⟩)

theorem exists_takenAs {kind : PositionedToken} {operands : List PositionedToken}
    (areEntries : ∀ e ∈ policyEvents line kind operands, e.IsEntry) :
    ∃ action codes?, TakenAs action codes? operands := by
  match operands with
  | [] => simp [policyEvents, Event.IsEntry] at areEntries
  | t :: tokens =>
    simp only [policyEvents] at areEntries
    cases isAction : action? t.token with
    | none => simp [isAction, Event.IsEntry] at areEntries
    | some action =>
      by_cases isEmpty : tokens = []
      · subst isEmpty
        exact ⟨action, [none], .proper (.all isAction)⟩
      · simp only [isAction, List.isEmpty_iff, isEmpty, if_false] at areEntries
        obtain ⟨codes, listed, rest, rfl, list, rfl | ⟨comma, isComma, rfl⟩⟩ :=
          exists_codeList line action tokens isEmpty areEntries
        · rw [List.append_nil]
          exact ⟨action, codes.map some, .proper (.codes isAction list)⟩
        · refine ⟨action, codes.map some, .comma (.codes isAction list) ?_ isComma⟩
          intro isNone
          have isCode : none ∈ codes.map some := by simp [isNone]
          simp at isCode

/-! ## Silent sinks -/

namespace Diagnostics

/-- Nothing that was reported was kept or suppressed. -/
def Silent (s t : Diagnostics) : Prop := t.entries = s.entries ∧ t.suppressed = s.suppressed

theorem Silent.heard_eq {s t : Diagnostics} (h : s.Silent t) : t.heard = s.heard := by
  simp only [heard, size, h.1, h.2]

/-- A sink keeps silent about entries, and about nothing else. -/
theorem silent_hearAll_iff (s : Diagnostics) (events : List Event) :
    s.Silent (s.hearAll events) ↔ ∀ e ∈ events, e.IsEntry := by
  constructor
  · intro silent
    have told := s.heard_hearAll events
    rw [silent.heard_eq] at told
    have noReports : events.filterMap Event.report? = [] :=
      List.eq_nil_of_length_eq_zero (by omega)
    intro e isEvent
    exact Event.report?_eq_none_iff.mp (List.filterMap_eq_nil_iff.mp noReports e isEvent)
  · intro areEntries
    induction events generalizing s with
    | nil => exact ⟨rfl, rfl⟩
    | cons e events ih =>
      obtain ⟨isEntry, later⟩ := List.forall_mem_cons.mp areEntries
      cases e with
      | entry e => exact ih (s.hear (.entry e)) later
      | _ => exact isEntry.elim

end Diagnostics

/-! ## The lines -/

theorem bodyEvents_policy {s : Standing} (included : s.includesCode = true) (hash : PositionedToken)
    {word kind : PositionedToken} (isPragma : word.token.directive? = some .pragma)
    (isWarning : kind.token.directive? = some .warning) (operands : List PositionedToken) :
    s.bodyEvents hash (word :: kind :: operands) = policyEvents word.line kind operands := by
  simp only [Standing.bodyEvents, Standing.directiveEvents, pragmaEvents, isPragma, isWarning,
    included, if_true]

/-- **Which `#pragma warning` reports nothing.** In included code it is one with an action alone, or
with a list of codes, and then it makes an entry for each code, in their order, or the one entry for
every warning. A comma after the last code is passed over. -/
theorem policy_silent_iff (s : PreprocessState) (hash : PositionedToken)
    {word kind : PositionedToken} (operands : List PositionedToken)
    (included : s.includesCode = true) (isPragma : word.token.directive? = some .pragma)
    (isWarning : kind.token.directive? = some .warning) :
    let t := DirectiveTable.default.dispatch hash (word :: kind :: operands) s
    (s.diagnostics.Silent t.diagnostics ↔ ∃ action codes?, TakenAs action codes? operands) ∧
      ∀ action codes?, TakenAs action codes? operands →
        t.diagnostics.policy.entries = s.diagnostics.policy.entries ++
          codes?.map fun code? => ⟨word.line, code?, action⟩ := by
  intro t
  have told : t.diagnostics = s.diagnostics.hearAll (policyEvents word.line kind operands) := by
    rw [PreprocessState.includesCode_eq] at included
    rw [diagnostics_dispatch, bodyEvents_policy included hash isPragma isWarning]
  rw [told, Diagnostics.silent_hearAll_iff]
  refine ⟨⟨exists_takenAs, ?entries⟩, ?made⟩
  case entries =>
    rintro ⟨action, codes?, taken⟩
    rw [policyEvents_eq taken]
    exact List.forall_mem_map.mpr fun _ _ => trivial
  case made =>
    intro action codes? taken
    rw [policyEvents_eq taken, Diagnostics.hearAll_policy, List.filterMap_map]
    exact congrArg (s.diagnostics.policy.entries ++ ·) (congrFun List.filterMap_eq_map _)

/-- `#pragma warning disable 1692, 1696,` makes two entries. -/
theorem policy_silent_iff_comma :
    let at_ (token : Token) (column length : Nat) : PositionedToken :=
      ⟨token, "main.cs", 1, column, length, false⟩
    let hash := at_ (.operator .hash) 1 1
    let word := at_ (.directive .pragma) 2 6
    let kind := at_ (.directive .warning) 9 7
    let listed := [at_ (.directive .disable) 17 7,
      at_ (.number ⟨.ofNat 1692, 10, false, ⟨24, "1692"⟩⟩) 25 4, at_ (.operator .comma) 29 1,
      at_ (.number ⟨.ofNat 1696, 10, false, ⟨30, "1696"⟩⟩) 31 4]
    let s := PreprocessState.ofSettings {}
    let t := DirectiveTable.default.dispatch hash
      (word :: kind :: (listed ++ [at_ (.operator .comma) 35 1])) s
    s.includesCode = true ∧ word.token.directive? = some .pragma ∧
      kind.token.directive? = some .warning ∧ s.diagnostics.Silent t.diagnostics ∧
      t.diagnostics.policy.entries = [⟨1, some 1692, .disable⟩, ⟨1, some 1696, .disable⟩] := by
  intro at_ hash word kind listed s t
  have proper : PolicyOperands .disable [some 1692, some 1696] listed :=
    .codes rfl (.cons (by decide) rfl (.single (by decide)))
  have taken : TakenAs .disable [some 1692, some 1696] (listed ++ [at_ (.operator .comma) 35 1]) :=
    .comma proper (by decide) rfl
  have isPragma : word.token.directive? = some .pragma := rfl
  have isWarning : kind.token.directive? = some .warning := rfl
  obtain ⟨silent, made⟩ :=
    policy_silent_iff s hash (listed ++ [at_ (.operator .comma) 35 1]) rfl isPragma isWarning
  exact ⟨rfl, isPragma, isWarning, silent.mpr ⟨_, _, taken⟩, made _ _ taken⟩

/-- What should hold of the text: a line of it is silent just when its list is a proper one. -/
def AsksForProperLists (file raw : String) (settings : Settings) : Prop :=
  ∀ tokens scanned, tokenize raw file = .ok (tokens, scanned) →
    ∀ before hash leads word kind operands after,
      SourceItem.ofTokens none tokens =
        before ++ .directive hash leads (word :: kind :: operands) :: after →
      word.token.directive? = some .pragma → kind.token.directive? = some .warning →
      let s := ((PreprocessState.ofSettings settings).steps .default before).1
      s.includesCode = true →
      (s.diagnostics.Silent
        (DirectiveTable.default.dispatch hash (word :: kind :: operands) s).diagnostics ↔
          ∃ action codes?, PolicyOperands action codes? operands)

/-- Nothing is said of a comma with no code after it. -/
theorem not_asksForProperLists_comma :
    ¬AsksForProperLists "main.cs" "#pragma warning disable 1," {} := by
  intro asksForProperLists
  let at_ (token : Token) (column length : Nat) : PositionedToken :=
    ⟨token, "main.cs", 1, column, length, false⟩
  let hash := at_ (.operator .hash) 1 1
  let word := at_ (.directive .pragma) 2 6
  let kind := at_ (.directive .warning) 9 7
  let action := at_ (.directive .disable) 17 7
  let code := at_ (.number ⟨.finite 1 0, 10, false, ⟨24, "1"⟩⟩) 25 1
  let comma := at_ (.operator .comma) 26 1
  let tokens := [hash, word, at_ .whitespace 8 1, kind, at_ .whitespace 16 1, action,
    at_ .whitespace 24 1, code, comma]
  obtain ⟨tokenized, -⟩ := preprocess_guided "main.cs" "#pragma warning disable 1,"
    [.operator .hash, .word, .whitespace, .word, .whitespace, .word, .whitespace, .number,
      .operator .comma] tokens (by decide) (by decide_cbv) (by cbv) rfl
  have items : SourceItem.ofTokens none tokens =
      [] ++ .directive hash true (word :: kind :: [action, code, comma]) :: [] := by
    simp [SourceItem.ofTokens, tokens, hash, word, kind, at_, action, code, comma, Token.isOperator,
      Token.isSignificant, Token.isWhitespace, Token.isComment]
  have asked := asksForProperLists _ _ tokenized _ _ _ _ _ _ _ items rfl rfl rfl
  obtain ⟨_, _, proper⟩ := asked.mp ⟨rfl, rfl⟩
  cases proper with
  | codes isAction list =>
    cases list with
    | cons isCode isComma more => exact more.tokens_ne_nil rfl

end SharpFront
