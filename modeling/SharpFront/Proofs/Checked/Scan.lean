import SharpFront.Proofs.Checked.Form
import SharpFront.Proofs.Scan.Progress

/-!
# Scanning with a cursor that can fail

The scan again as it moves its cursor through one text, with the tokens and reports that it has
found so far.

* `Follows`: it has come as far as a scan of the remaining text and found the same;
* `exists_scanStep`, `exists_scanFrom`: whatever the forms, it goes on to do so, step by step and to
  the end, or is stuck where the scan is;
* `run_eq`, `tokenize_eq_ok`: so neither a run nor tokenizing has a fault.
-/

namespace SharpFront.Checked

/-- The cursor, the tokens so far, newest first, and the reports so far, oldest first. -/
structure Progress where
  place : Place := {}
  tokens : List PositionedToken := []
  reports : List Report := []

section

variable (source : List Char) (file : String)

/-- What the first form that matches finds. -/
def firstHit (p : Place) (followsHash : Nat → Bool) : List Form → Checked (Option Hit)
  | [] => return none
  | form :: forms => do
    match ← recognize source p followsHash form with
    | some hit => return some hit
    | none => firstHit p followsHash forms

/-- Records a token that begins at `start`. Its characters are counted in the text between there and
the cursor. -/
def accept (s : Progress) (start : Place) (hit : Hit) : Checked (Except Failure Progress) := do
  if hit.stop.offset = start.offset then
    let location := ⟨file, start.line, start.column⟩
    return .error ⟨.zeroLengthMatch hit.token.kindName, location⟩
  else
    let text ← cut source start.offset hit.stop.offset
    let length ← word32 text.text.length
    let t : PositionedToken :=
      { token := hit.token, file, line := start.line, column := start.column, length }
    return .ok { place := hit.stop, tokens := t :: s.tokens, reports := s.reports ++ hit.reports }

def scanStep (tiers : Tiers) (s : Progress) : Checked (Except Failure Progress) := do
  let followsHash := endWithHash s.tokens.reverse
  match ← firstHit source s.place followsHash tiers.seeBlanks with
  | some hit => accept source file s s.place hit
  | none =>
    let (start, _) ← eatWhile source Text.isBlank s.place
    let rest ← textFrom start.offset source
    match ← firstHit source start followsHash (tiers.candidates rest.head?) with
    | some hit => accept source file s start hit
    | none =>
      match rest with
      | [] => return .ok { s with place := start }
      | c :: _ =>
        let unexpected := ⟨.unexpectedCharacter c, start.line, start.column, 1⟩
        let place ← advance source start
        return .ok { s with place, reports := s.reports ++ [unexpected] }

/-- Steps until the cursor is at the end. -/
def scanFrom (tiers : Tiers) : Nat → Progress → Checked (Except Failure Progress)
  | 0, s => do
    if (← textFrom s.place.offset source).isEmpty then return .ok s else .error .endless
  | steps + 1, s => do
    if (← textFrom s.place.offset source).isEmpty then return .ok s
    else
      match ← scanStep source file tiers s with
      | .error failure => return .error failure
      | .ok s => scanFrom tiers steps s

end

def tokenize (raw file : String) :
    Checked (Except Failure (List PositionedToken × Diagnostics)) := do
  if defaultCatalog.isEmpty then return .error ⟨.noRecognizers, .startOf file⟩
  else
    let source := normalize raw.toList
    match ← scanFrom source file (.build defaultCatalog) source.length {} with
    | .error failure => return .error failure
    | .ok s => return .ok (s.tokens.reverse, ({} : Diagnostics).reportAll s.reports)

/-! ## The scan of the remaining text -/

variable {source rest : List Char} {file : String} {s : Scan} {g : Progress}

theorem firstHit_eq {p : Place} (followsHash : Nat → Bool) (forms : List Form)
    (h : At source p rest) :
    firstHit source p followsHash forms =
      .ok ((forms.findSome? (·.recognize followsHash p rest)).map (·.hit p)) := by
  induction forms with
  | nil => rfl
  | cons form forms ih =>
    simp only [firstHit, recognize_eq followsHash form h, ok_bind, List.findSome?_cons]
    cases form.recognize followsHash p rest with
    | none => exact ih
    | some l => rfl

/-- The cursor has come as far as the scan, which has found the same. -/
structure Follows (file : String) (s : Scan) (g : Progress) : Prop where
  place : g.place = s.place
  tokens : g.tokens.reverse = s.tokens file
  reports : g.reports = s.reports

/-- The two come to the same: they are as far as each other, or stuck on one token at one place. -/
inductive Agrees (source : List Char) (file : String) : Scan.Step → Except Failure Progress → Prop
  | moved {t : Scan} {g : Progress} (here : At source t.place t.rest) (follows : Follows file t g) :
    Agrees source file (.moved t) (.ok g)
  | stuck {t : Scan} {token : Token} :
    Agrees source file (.stuck t token)
      (.error ⟨.zeroLengthMatch token.kindName, ⟨file, t.place.line, t.place.column⟩⟩)

theorem At.record (here : At source s.place s.rest) {segment : Segment}
    (isPrefix : segment.text <+: s.rest) :
    At source (s.record segment).place (s.record segment).rest := by
  rw [Scan.place_record_of_isPrefix isPrefix, Scan.record_rest]
  exact At.after (by rwa [List.prefix_iff_eq_append.mp isPrefix])

theorem Follows.firstHit_eq (h : Follows file s g) (here : At source s.place s.rest)
    (forms : List Form) :
    firstHit source s.place (endWithHash g.tokens.reverse) forms =
      .ok ((s.firstMatch forms).map (·.hit s.place)) := by
  rw [h.tokens, ← Scan.followsHash_eq, Checked.firstHit_eq _ _ here]
  rfl

theorem Follows.skipBlanks (h : Follows file s g) :
    Follows file s.skipBlanks { g with place := s.skipBlanks.place } := by
  by_cases noBlanks : s.rest.takeWhile Text.isBlank = []
  · rw [Scan.skipBlanks_eq_self noBlanks]
    exact ⟨rfl, h.tokens, h.reports⟩
  · rw [Scan.skipBlanks_eq_record noBlanks]
    refine ⟨rfl, ?_, ?_⟩
    · rw [Scan.tokens_record, ← h.tokens]
      exact (List.append_nil _).symm
    · rw [Scan.reports_record, ← h.reports]
      exact (List.append_nil _).symm

theorem At.skipBlanks (here : At source s.place s.rest) :
    At source s.skipBlanks.place s.skipBlanks.rest := by
  by_cases noBlanks : s.rest.takeWhile Text.isBlank = []
  · rwa [Scan.skipBlanks_eq_self noBlanks]
  · rw [Scan.skipBlanks_eq_record noBlanks]
    exact here.record (List.takeWhile_prefix _)

theorem place_skipBlanks (s : Scan) :
    s.skipBlanks.place = s.place.after (s.rest.takeWhile Text.isBlank) := by
  by_cases noBlanks : s.rest.takeWhile Text.isBlank = []
  · rw [Scan.skipBlanks_eq_self noBlanks, noBlanks, Place.after_nil]
  · rw [Scan.skipBlanks_eq_record noBlanks]
    exact Scan.place_record_of_isPrefix (List.takeWhile_prefix _)

/-- What is done with a lexeme once it is found. -/
theorem Follows.exists_accept {l : Lexeme} (h : Follows file s g)
    (here : At source s.place s.rest) (isPrefix : l.text <+: s.rest) :
    ∃ outcome, accept source file g s.place (l.hit s.place) = .ok outcome ∧
      Agrees source file (s.accept l) outcome := by
  rw [Scan.accept]
  by_cases empty : l.text = []
  · simp only [accept, Lexeme.hit, empty, Place.after_nil, List.isEmpty_nil, if_true, pure_eq_ok]
    exact ⟨_, rfl, .stuck⟩
  have covered : At source s.place (l.text ++ s.rest.drop l.text.length) := by
    rwa [List.prefix_iff_eq_append.mp isPrefix]
  have moved : ¬ (s.place.after l.text).offset = s.place.offset := by
    have size : 0 < byteSize l.text := by
      cases text : l.text with
      | nil => exact absurd text empty
      | cons c cs => exact Nat.add_pos_left c.utf8Size_pos _
    rw [after_offset]
    omega
  have length : word32 l.text.length = .ok l.text.length := by
    refine word32_of_lt ?_
    have column := covered.column_lt
    rw [List.length_append] at column
    omega
  have recorded : (.lexeme s.place l : Segment).text <+: s.rest := isPrefix
  simp only [accept, Lexeme.hit, moved, if_false, covered.cut_eq, ok_bind, Span.ofChars,
    String.length_ofList, length, pure_eq_ok, mt List.isEmpty_iff.mp empty]
  refine ⟨_, rfl, .moved (here.record recorded) ⟨?_, ?_, ?_⟩⟩
  · exact (Scan.place_record_of_isPrefix recorded).symm
  · rw [Scan.tokens_record, ← h.tokens, List.reverse_cons]
    rfl
  · rw [Scan.reports_record, ← h.reports]
    rfl

theorem Follows.exists_scanStep (tiers : Tiers) (h : Follows file s g)
    (here : At source s.place s.rest) :
    ∃ outcome, scanStep source file tiers g = .ok outcome ∧
      Agrees source file (s.step tiers) outcome := by
  have first := h.firstHit_eq here tiers.seeBlanks
  have second := h.skipBlanks.firstHit_eq here.skipBlanks
    (tiers.candidates s.skipBlanks.rest.head?)
  have blanks := here.eatWhile_eq Text.isBlank
  rw [← place_skipBlanks] at blanks
  simp only [scanStep, Scan.step, h.place, first, ok_bind]
  cases found : s.firstMatch tiers.seeBlanks with
  | some l =>
    obtain ⟨form, -, recognized⟩ := List.exists_of_findSome?_eq_some found
    exact h.exists_accept here (Form.recognize_isPrefix recognized)
  | none =>
    simp only [Option.map_none, blanks, ok_bind, here.skipBlanks.textFrom_eq, second]
    cases found : s.skipBlanks.firstMatch (tiers.candidates s.skipBlanks.rest.head?) with
    | some l =>
      obtain ⟨form, -, recognized⟩ := List.exists_of_findSome?_eq_some found
      exact h.skipBlanks.exists_accept here.skipBlanks (Form.recognize_isPrefix recognized)
    | none =>
      have behind := here.skipBlanks
      simp only [Option.map_none]
      cases next : s.skipBlanks.rest with
      | nil =>
        rw [pure_eq_ok]
        exact ⟨_, rfl, .moved behind h.skipBlanks⟩
      | cons c rest =>
        have recorded : (.rejected s.skipBlanks.place c : Segment).text <+: s.skipBlanks.rest :=
          next ▸ ⟨rest, rfl⟩
        rw [next] at behind
        simp only [behind.advance_eq, ok_bind, pure_eq_ok]
        refine ⟨_, rfl, .moved (here.skipBlanks.record recorded) ⟨?_, ?_, ?_⟩⟩
        · exact (Scan.place_record_of_isPrefix recorded).symm
        · rw [Scan.tokens_record, ← h.skipBlanks.tokens]
          exact (List.append_nil _).symm
        · rw [Scan.reports_record, ← h.skipBlanks.reports]
          rfl

/-- A run as the step that it amounts to. -/
def ending : Scan × Option Token → Scan.Step
  | (t, none) => .moved t
  | (t, some token) => .stuck t token

theorem Follows.exists_scanFrom (tiers : Tiers) (h : Follows file s g)
    (here : At source s.place s.rest) {steps : Nat} (enough : s.rest.length ≤ steps) :
    ∃ outcome, scanFrom source file tiers steps g = .ok outcome ∧
      Agrees source file (ending (s.run tiers)) outcome := by
  induction steps generalizing s g with
  | zero =>
    have atEnd := List.length_eq_zero_iff.mp (Nat.le_zero.mp enough)
    have remains := here.textFrom_eq
    rw [atEnd] at remains
    simp only [scanFrom, h.place, remains, ok_bind, List.isEmpty_nil, if_true, pure_eq_ok]
    rw [Scan.run_of_end tiers atEnd]
    exact ⟨_, rfl, .moved here h⟩
  | succ steps ih =>
    simp only [scanFrom, h.place, here.textFrom_eq, ok_bind]
    by_cases atEnd : s.rest = []
    · simp only [atEnd, List.isEmpty_nil, if_true, pure_eq_ok]
      rw [Scan.run_of_end tiers atEnd]
      exact ⟨_, rfl, .moved here h⟩
    · obtain ⟨outcome, step, agrees⟩ := h.exists_scanStep tiers here
      simp only [List.isEmpty_eq_false_iff.mpr atEnd, Bool.false_eq_true, if_false, step, ok_bind]
      generalize isStep : s.step tiers = stepped at agrees
      cases agrees with
      | moved there follows =>
        have shorter := Scan.step_shorter atEnd isStep
        rw [Scan.run_of_moved isStep atEnd]
        exact ih follows there (Nat.le_of_lt_succ (Nat.lt_of_lt_of_le shorter enough))
      | stuck =>
        rw [Scan.run_of_stuck isStep atEnd]
        exact ⟨_, rfl, .stuck⟩

/-! ## Runs -/

/-- A run of a lexer. -/
def run (l : Lexer) : Checked (Except Failure (List PositionedToken)) :=
  match l.source? with
  | none => return .error ⟨.noInput "lexer", .startOf l.file⟩
  | some source => do
    if l.catalog.isEmpty then return .error ⟨.noRecognizers, .startOf l.file⟩
    else
      match ← scanFrom source.chars l.file (.build l.catalog) source.chars.length {} with
      | .error failure => return .error failure
      | .ok s => return .ok s.tokens.reverse

theorem at_start (short : source.length < UInt32.size - 1) : At source {} source :=
  ⟨short, [], rfl, rfl⟩

theorem follows_start (file : String) (source : List Char) :
    Follows file { rest := source } {} := ⟨rfl, rfl, rfl⟩

/-- A lexer of any forms runs without a fault. -/
theorem run_eq {l : Lexer} {source : SourceText} (isSource : l.source? = some source)
    (short : source.chars.length < UInt32.size - 1) : run l = .ok l.run.2 := by
  rw [run, isSource]
  by_cases noForms : l.catalog = []
  · simp [Lexer.run, isSource, noForms]
  obtain ⟨outcome, scanned, agrees⟩ := (follows_start l.file source.chars).exists_scanFrom
    (.build l.catalog) (at_start short) (Nat.le_refl _)
  simp only [List.isEmpty_eq_false_iff.mpr noForms, Bool.false_eq_true, if_false, scanned, ok_bind]
  generalize isRun : ({ rest := source.chars } : Scan).run (.build l.catalog) = result at agrees
  obtain ⟨t, _ | token⟩ := result <;> cases agrees
  · next follows =>
    rw [Lexer.run_of_end isSource noForms isRun]
    simp only [follows.tokens, pure_eq_ok]
  · rw [Lexer.run_of_stuck isSource noForms isRun]
    rfl

/-- The tokens of a source text, found without a fault. -/
theorem tokenize_eq_ok (raw file : String) (h : raw.length < UInt32.size - 1) :
    ∃ s : Scan, Scan.Reached (normalize raw.toList) s ∧ s.rest = [] ∧
      SharpFront.tokenize raw file =
        .ok (s.tokens file, ({} : Diagnostics).reportAll s.reports) ∧
      tokenize raw file =
        .ok (.ok (s.tokens file, ({} : Diagnostics).reportAll s.reports)) := by
  obtain ⟨s, isRun, atEnd, reached⟩ :=
    Scan.exists_reached_end (@Scan.Reached.start (normalize raw.toList))
  obtain ⟨outcome, scanned, agrees⟩ :=
    (follows_start file (normalize raw.toList)).exists_scanFrom Scan.tiers
      (at_start (normalize_short h)) (Nat.le_refl _)
  refine ⟨s, reached, atEnd, tokenize_eq file isRun, ?_⟩
  rw [isRun] at agrees
  cases agrees with
  | moved here follows =>
    have catalog : defaultCatalog.isEmpty = false := rfl
    simp only [Scan.tiers] at scanned
    simp only [tokenize, catalog, Bool.false_eq_true, if_false, scanned, ok_bind, pure_eq_ok,
      follows.tokens, follows.reports]

end SharpFront.Checked
