import Mathlib
import SharpFront.Proofs.Form.Opening
import SharpFront.Proofs.Preprocess.Fates

/-!
# What comes before a directive on its line

A `#` that begins a directive should be the first on its line, blanks and comments aside. What is
reported is every `#` with a token before it that starts on the same line.

* `exists_split_of_mem_ofTokens`: the `#` of a directive among the tokens;
* `mem_unitJournal_iff`, `mem_diagnostics_iff`: only a `#` that does not lead its line is reported as
  not the first;
* `Preceded`: what stands before a `#` on its line, read off the text;
* `notFirstCharacter_iff`: what is reported, and what that leaves out: unexpected characters, and the
  end of a token that begins on an earlier line;
* `ReportsPreceded`: that nothing is left out, which fails after a literal of several lines.
-/

namespace SharpFront

/-! ## The `#` among the tokens -/

/-- The `#` of a directive leads its line if the last significant token before it stands elsewhere. -/
theorem exists_split_of_mem_ofTokens {last : Option Nat} {tokens : List PositionedToken}
    {hash : PositionedToken} {leads : Bool} {body : List PositionedToken}
    (h : .directive hash leads body ∈ SourceItem.ofTokens last tokens) :
    ∃ before after, tokens = before ++ hash :: after ∧
      leads = (SourceItem.lastLine last before != some hash.line) := by
  obtain ⟨before, after, isSplit, leads_eq, -⟩ := SourceItem.exists_body_of_mem_ofTokens h
  exact ⟨before, after, isSplit, leads_eq⟩

/-! ## What is reported -/

namespace Standing

/-- Only a `#` that does not lead its line is reported as not the first. -/
theorem mem_events_iff (s : Standing) {item : SourceItem} (whole : item.IsWhole) {r : Report}
    (isKind : r.kind = .notFirstCharacter) :
    .report r ∈ s.events item ↔
      ∃ hash body, item = .directive hash false body ∧ r = hash.report .notFirstCharacter := by
  cases item with
  | token t => simp [events]
  | directive hash leads body =>
    have notThere : .report r ∉ s.bodyEvents hash body := by
      intro isEvent
      have ofDirective : r.kind.isOfDirective = true :=
        (s.bodyEvents_saidOn whole.2).ofDirective _ isEvent
      rw [isKind] at ofDirective
      cases ofDirective
    simp [mem_events_directive, notThere]

theorem mem_journal_iff (s : Standing) {items : List SourceItem}
    (whole : ∀ item ∈ items, item.IsWhole) {r : Report} (isKind : r.kind = .notFirstCharacter) :
    .report r ∈ s.journal items ↔
      ∃ hash body, .directive hash false body ∈ items ∧ r = hash.report .notFirstCharacter := by
  induction items generalizing s with
  | nil => simp [journal]
  | cons item items ih =>
    obtain ⟨here, later⟩ := List.forall_mem_cons.mp whole
    simp only [journal, List.mem_append, ih _ later, s.mem_events_iff here isKind, List.mem_cons,
      or_and_right, exists_or, eq_comm]

theorem mem_unitJournal_iff (s : Standing) (tokens : List PositionedToken) {r : Report}
    (isKind : r.kind = .notFirstCharacter) :
    .report r ∈ s.unitJournal tokens ↔
      ∃ hash body, .directive hash false body ∈ SourceItem.ofTokens none tokens ∧
        r = hash.report .notFirstCharacter := by
  have notClosing : r.kind ≠ .endifExpected := by
    rw [isKind]
    exact DiagnosticKind.noConfusion
  rw [s.mem_unitJournal_iff_mem_journal tokens notClosing]
  exact s.mem_journal_iff SourceItem.isWhole_of_mem_ofTokens isKind

end Standing

/-- There is one directive to a line. -/
theorem SourceItem.InOrder.eq_of_line_eq {items : List SourceItem} (h : InOrder items)
    {a b : SourceItem} (isFirst : a ∈ items) (isSecond : b ∈ items) (firstIs : a.isDirective = true)
    (secondIs : b.isDirective = true) (sameLine : a.line = b.line) : a = b := by
  induction items with
  | nil => cases isFirst
  | cons item items ih =>
    obtain ⟨first, ordered⟩ := List.pairwise_cons.mp h
    rcases List.mem_cons.mp isFirst with rfl | laterFirst
    · rcases List.mem_cons.mp isSecond with rfl | laterSecond
      · rfl
      · have := (first b laterSecond).2 firstIs
        omega
    · rcases List.mem_cons.mp isSecond with rfl | laterSecond
      · have := (first a laterFirst).2 secondIs
        omega
      · exact ih ordered laterFirst laterSecond

/-- A directive is reported as not the first on its line when its `#` does not lead. -/
theorem mem_heard_iff {settings : Settings} {tokens : List PositionedToken} (inLines : InLines tokens)
    {hash : PositionedToken} {leads : Bool} {body : List PositionedToken}
    (isItem : .directive hash leads body ∈ SourceItem.ofTokens none tokens) :
    (hash.report .notFirstCharacter).asError ∈
        (({ policy := settings.policy } : Diagnostics).hearAll (journal settings tokens)).toList ↔
      leads = false := by
  have notYet : (hash.report .notFirstCharacter).asError ∉
      ({ policy := settings.policy } : Diagnostics).toList := List.not_mem_nil
  rw [Diagnostics.mem_hearAll_iff _ rfl]
  simp only [notYet, false_or]
  constructor
  · rintro ⟨r, isEvent, same⟩
    have isKind : r.kind = .notFirstCharacter := (congrArg Diagnostic.kind same).symm
    obtain ⟨other, body', isOther, rfl⟩ := (Standing.mem_unitJournal_iff _ tokens isKind).mp isEvent
    have sameLine : hash.line = other.line := congrArg Diagnostic.line same
    have sameItem := (SourceItem.ofTokens_inOrder inLines).eq_of_line_eq isItem isOther rfl rfl
      sameLine
    cases sameItem
    rfl
  · rintro rfl
    refine ⟨hash.report .notFirstCharacter, ?_, rfl⟩
    exact (Standing.mem_unitJournal_iff _ tokens rfl).mpr ⟨hash, body, isItem, rfl⟩

/-- A `#` does not lead its line when a significant token before it starts there. -/
theorem leads_eq_false_iff {earlier later : List PositionedToken} {hash : PositionedToken}
    (inLines : InLines (earlier ++ hash :: later)) :
    (SourceItem.lastLine none earlier != some hash.line) = false ↔
      ∃ t ∈ earlier, t.token.isSignificant = true ∧ t.line = hash.line := by
  obtain ⟨ordered, -, upTo⟩ := List.pairwise_append.mp inLines
  have upToHash : ∀ t ∈ earlier, t.line ≤ hash.line := by
    intro t isEarlier
    exact upTo t isEarlier hash List.mem_cons_self
  rw [bne_eq_false_iff_eq]
  exact SourceItem.lastLine_eq_some_iff ordered upToHash

/-- Scanning keeps no diagnostic of a kind that is not lexical. -/
theorem Scan.Reached.not_mem_scanned {source : List Char} {s : Scan} (reached : Reached source s)
    {d : Diagnostic} (h : d.kind.isLexical = false) :
    d ∉ (({} : Diagnostics).reportAll s.reports).toList := by
  intro isKept
  obtain ⟨r, isReport, resolved⟩ := Diagnostics.exists_of_mem_reportAll isKept
  have lexical := reached.reports_isLexical r isReport
  rw [← WarningPolicy.resolve?_kind resolved, h] at lexical
  cases lexical

/-- In the output too, a directive is reported as not the first on its line when its `#` does not
lead. -/
theorem mem_diagnostics_iff {file raw : String} {settings : Settings} {s : Scan} {output : Output}
    (reached : Scan.Reached (normalize raw.toList) s)
    (tokenized : tokenize raw file = .ok (s.tokens file, ({} : Diagnostics).reportAll s.reports))
    (run : preprocess file raw settings = .ok output) {hash : PositionedToken} {leads : Bool}
    {body : List PositionedToken}
    (isItem : .directive hash leads body ∈ SourceItem.ofTokens none (s.tokens file)) :
    (hash.report .notFirstCharacter).asError ∈ output.diagnostics.toList ↔ leads = false := by
  obtain ⟨output', run', -, diagnostics⟩ := exists_preprocess settings tokenized
  obtain rfl : output' = output := Except.ok.inj (run'.symm.trans run)
  have notScanned : (hash.report .notFirstCharacter).asError ∉
      (({} : Diagnostics).reportAll s.reports).toList := reached.not_mem_scanned rfl
  have heard : (hash.report .notFirstCharacter).asError ∈
      (({ policy := settings.policy } : Diagnostics).hearAll
        (journal settings (s.tokens file))).toList ↔ leads = false :=
    mem_heard_iff (reached.inLines file) isItem
  rw [diagnostics, Diagnostics.extend_toList, Diagnostics.extend_toList, List.mem_append,
    List.mem_append, ← heard]
  exact or_iff_right (not_or.mpr ⟨List.not_mem_nil, notScanned⟩)

/-! ## The line before a `#` -/

namespace Part

def isComment : Part → Bool
  | token t _ => t.token.isComment
  | unexpected .. => false

/-- A token, neither blank nor comment, that starts on the line. -/
def StartsOn (line : Nat) : Part → Prop
  | token t _ => t.token.isSignificant = true ∧ t.line = line
  | unexpected .. => False

/-- An unexpected character, or a token, neither blank nor comment, from an earlier line. -/
def Overhangs (line : Nat) : Part → Prop
  | token t _ => t.token.isSignificant = true ∧ t.line < line
  | unexpected .. => True

end Part

/-- The characters of some parts, each with its part. -/
def marks (parts : List Part) : List (Char × Part) :=
  parts.flatMap fun part => part.text.map (·, part)

/-- What follows the last line feed in the parts, last character first. -/
def lineBefore (before : List Part) : List (Char × Part) :=
  (marks before).reverse.takeWhile (·.1 != '\n')

/-- What follows the parts is preceded on its line by a character that is no blank, in a part with
the property. -/
def PrecededBy (property : Part → Prop) (before : List Part) : Prop :=
  ∃ m ∈ lineBefore before, Text.isBlank m.1 = false ∧ property m.2

/-- Something other than blanks and comments comes before. -/
def Preceded : List Part → Prop := PrecededBy fun part => part.isComment = false

instance (property : Part → Prop) [DecidablePred property] (before : List Part) :
    Decidable (PrecededBy property before) :=
  inferInstanceAs (Decidable (∃ m ∈ lineBefore before, Text.isBlank m.1 = false ∧ property m.2))

instance : DecidablePred Preceded := fun before =>
  inferInstanceAs (Decidable (PrecededBy (fun part => part.isComment = false) before))

theorem of_mem_lineBefore {before : List Part} {c : Char} {part : Part}
    (h : (c, part) ∈ lineBefore before) : part ∈ before ∧ c ∈ part.text := by
  have isMark := List.mem_reverse.mp ((List.takeWhile_prefix _).subset h)
  obtain ⟨part', isPart, isChar⟩ := List.mem_flatMap.mp isMark
  obtain ⟨c', isChar, same⟩ := List.mem_map.mp isChar
  cases same
  exact ⟨isPart, isChar⟩

/-- A part after which no line feed comes is on the line. -/
theorem mem_lineBefore {before after : List Part} {part : Part} {c : Char}
    (noFeed : ∀ d ∈ part.text ++ after.flatMap Part.text, d ≠ '\n') (isChar : c ∈ part.text) :
    (c, part) ∈ lineBefore (before ++ part :: after) := by
  have split : marks (before ++ part :: after) = marks before ++ marks (part :: after) :=
    List.flatMap_append
  have onLine : ∀ m ∈ (marks (part :: after)).reverse, (m.1 != '\n') = true := by
    rintro ⟨d, other⟩ isMark
    obtain ⟨part', isPart, isMark⟩ := List.mem_flatMap.mp (List.mem_reverse.mp isMark)
    obtain ⟨d', isChar', same⟩ := List.mem_map.mp isMark
    cases same
    refine bne_iff_ne.mpr (noFeed d ?_)
    have inText := List.mem_flatMap_of_mem isPart isChar'
    rwa [List.flatMap_cons] at inText
  have isMark : (c, part) ∈ (marks (part :: after)).reverse := by
    refine List.mem_reverse.mpr (List.mem_flatMap_of_mem List.mem_cons_self ?_)
    exact List.mem_map.mpr ⟨c, isChar, rfl⟩
  rw [lineBefore, split, List.reverse_append, List.takeWhile_append_of_pos onLine]
  exact List.mem_append_left _ isMark

/-! ## Parts on the line -/

section

variable {source : List Char} {tokens : List PositionedToken} {scanned : Diagnostics}
  {parts before after : List Part} {hash : PositionedToken} {text : List Char}

theorem Part.mem_tokens {t : PositionedToken} (h : .token t text ∈ before) :
    t ∈ before.filterMap Part.token? :=
  List.mem_filterMap.mpr ⟨_, h, rfl⟩

variable (whole : ArePartsOf source tokens scanned parts)
  (isSplit : parts = before ++ .token hash text :: after)

include whole isSplit

theorem line_of_split : hash.line = lineAfter (before.flatMap Part.text) :=
  (whole.stands before _ after isSplit).2.1

/-- A token before another, with what is between. -/
theorem exists_line_of_mem {t : PositionedToken} {covered : List Char}
    (h : .token t covered ∈ before) :
    ∃ front back, before = front ++ .token t covered :: back ∧
      (Part.token t covered).StandsAfter source front ∧
      hash.line = t.line + (covered ++ back.flatMap Part.text).count '\n' := by
  obtain ⟨front, back, rfl⟩ := List.append_of_mem h
  have stands := whole.stands front (.token t covered) (back ++ .token hash text :: after)
    (by rw [isSplit, List.append_assoc, List.cons_append])
  refine ⟨front, back, rfl, stands, ?_⟩
  rw [line_of_split whole isSplit, List.flatMap_append, List.flatMap_cons, lineAfter_append,
    ← stands.2.1]
  rfl

/-- A significant token before a `#` that starts on its line is seen there by its first
character. -/
theorem precededBy_startsOn_iff :
    PrecededBy (Part.StartsOn hash.line) before ↔
      ∃ t ∈ before.filterMap Part.token?, t.token.isSignificant = true ∧ t.line = hash.line := by
  constructor
  · rintro ⟨⟨c, part⟩, isMark, -, startsOn⟩
    obtain ⟨isPart, -⟩ := of_mem_lineBefore isMark
    cases part with
    | unexpected d c => cases startsOn
    | token t covered => exact ⟨t, Part.mem_tokens isPart, startsOn⟩
  · rintro ⟨t, isToken, significant, sameLine⟩
    obtain ⟨part, isPart, isToken⟩ := List.mem_filterMap.mp isToken
    cases part with
    | unexpected d c => cases isToken
    | token t' covered =>
      cases isToken
      obtain ⟨front, back, rfl, stands, line⟩ := exists_line_of_mem whole isSplit isPart
      have noFeed : ∀ d ∈ covered ++ back.flatMap Part.text, d ≠ '\n' := by
        have none : (covered ++ back.flatMap Part.text).count '\n' = 0 := by omega
        rintro d isChar rfl
        exact List.count_eq_zero.mp none isChar
      obtain ⟨-, -, -, -, form, inCatalog, l, found, token_eq, rfl⟩ := stands
      have notWhitespace : l.token.isWhitespace = false := by
        rw [token_eq]
        exact (isSignificant_iff.mp significant).1
      obtain ⟨c, isFirst, notBlank⟩ := Form.exists_head_not_isBlank inCatalog found notWhitespace
      exact ⟨(c, _), mem_lineBefore noFeed (List.mem_of_mem_head? isFirst), notBlank,
        significant, sameLine⟩

/-- Something comes before a `#` on its line when a significant token starts there, and else when
an unexpected character or the end of a token from an earlier line stands there. -/
theorem preceded_iff :
    Preceded before ↔
      PrecededBy (Part.StartsOn hash.line) before ∨ PrecededBy (Part.Overhangs hash.line) before := by
  constructor
  · rintro ⟨⟨c, part⟩, isMark, notBlank, notComment⟩
    obtain ⟨isPart, isChar⟩ := of_mem_lineBefore isMark
    cases part with
    | unexpected d c' => exact .inr ⟨_, isMark, notBlank, trivial⟩
    | token t covered =>
      obtain ⟨front, back, -, stands, line⟩ := exists_line_of_mem whole isSplit isPart
      have notWhitespace : t.token.isWhitespace = false := by
        obtain ⟨-, -, -, -, form, -, l, found, token_eq, rfl⟩ := stands
        refine Bool.eq_false_iff.mpr ?_
        intro isWhitespace
        rw [← token_eq] at isWhitespace
        rw [Form.isBlank_of_isWhitespace found isWhitespace c isChar] at notBlank
        cases notBlank
      have significant := isSignificant_iff.mpr ⟨notWhitespace, notComment⟩
      by_cases sameLine : t.line = hash.line
      · exact .inl ⟨_, isMark, notBlank, significant, sameLine⟩
      · exact .inr ⟨_, isMark, notBlank, significant, by omega⟩
  · rintro (⟨⟨c, part⟩, isMark, notBlank, startsOn⟩ | ⟨⟨c, part⟩, isMark, notBlank, overhangs⟩)
    · cases part with
      | unexpected d c' => cases startsOn
      | token t covered => exact ⟨_, isMark, notBlank, (isSignificant_iff.mp startsOn.1).2⟩
    · cases part with
      | unexpected d c' => exact ⟨_, isMark, notBlank, rfl⟩
      | token t covered => exact ⟨_, isMark, notBlank, (isSignificant_iff.mp overhangs.1).2⟩

end

/-! ## The whole text -/

/-- **Only tokens that start on the line count.** A `#` that begins a directive is reported as not
the first on its line exactly when a token before it, neither blank nor comment, starts on that
line. Something other than blanks and comments can come before it unreported: an unexpected
character, or the end of a token that begins on an earlier line, and nothing else. -/
theorem notFirstCharacter_iff (file raw : String) (settings : Settings) :
    ∃ output tokens scanned, preprocess file raw settings = .ok output ∧
      tokenize raw file = .ok (tokens, scanned) ∧
      (∃ parts, ArePartsOf (normalize raw.toList) tokens scanned parts) ∧
      ∀ parts, ArePartsOf (normalize raw.toList) tokens scanned parts →
        ∀ hash leads body, .directive hash leads body ∈ SourceItem.ofTokens none tokens →
          ∃ before text after, parts = before ++ .token hash text :: after ∧
            let reported := (hash.report .notFirstCharacter).asError ∈ output.diagnostics.toList
            (reported ↔ PrecededBy (Part.StartsOn hash.line) before) ∧
            (Preceded before ↔ reported ∨ PrecededBy (Part.Overhangs hash.line) before) := by
  obtain ⟨s, reached, atEnd, tokenized⟩ := exists_scan raw file
  have inLines := reached.inLines file
  obtain ⟨output, run, -, -⟩ := exists_preprocess settings tokenized
  refine ⟨output, s.tokens file, _, run, tokenized,
    ⟨_, (reached.divides file).arePartsOf reached atEnd⟩, ?parts⟩
  intro parts whole hash leads body isItem
  obtain ⟨earlier, later, tokens_eq, leads_eq⟩ := exists_split_of_mem_ofTokens isItem
  obtain ⟨before, text, after, isSplit, isEarlier⟩ :=
    exists_parts_split (whole.tokens_eq.trans tokens_eq)
  have reported : (hash.report .notFirstCharacter).asError ∈ output.diagnostics.toList ↔
      PrecededBy (Part.StartsOn hash.line) before := by
    rw [mem_diagnostics_iff reached tokenized run isItem, leads_eq,
      leads_eq_false_iff (tokens_eq ▸ inLines), precededBy_startsOn_iff whole isSplit, isEarlier]
  refine ⟨before, text, after, isSplit, reported, ?_⟩
  rw [preceded_iff whole isSplit, reported]

/-- What should hold of the text: a `#` that begins a directive is reported as not the first on its
line exactly when something other than blanks and comments comes before it. -/
def ReportsPreceded (file raw : String) (settings : Settings) : Prop :=
  ∀ output tokens scanned parts, preprocess file raw settings = .ok output →
    tokenize raw file = .ok (tokens, scanned) →
    ArePartsOf (normalize raw.toList) tokens scanned parts →
    ∀ before hash text after leads body, parts = before ++ .token hash text :: after →
      .directive hash leads body ∈ SourceItem.ofTokens none tokens →
      ((hash.report .notFirstCharacter).asError ∈ output.diagnostics.toList ↔ Preceded before)

/-- The last line of a literal comes before the `#`, and nothing is reported. -/
theorem not_reportsPreceded_tail : ¬ReportsPreceded "main.cs" "@\"a\nb\" #define X" {} := by
  intro reportsPreceded
  obtain ⟨s, run, atEnd, reached⟩ := Scan.exists_reached_end
    (@Scan.Reached.start (normalize "@\"a\nb\" #define X".toList))
  have tokenized := tokenize_eq "main.cs" run
  have whole := (reached.divides "main.cs").arePartsOf reached atEnd
  obtain ⟨output, preprocessed, -, -⟩ := exists_preprocess {} tokenized
  have s_eq : s = (Scan.run Scan.tiers { rest := normalize "@\"a\nb\" #define X".toList }).1 := by
    rw [run]
  have isSplit : s.parts "main.cs" =
      [.token ⟨.verbatimString "a\nb", "main.cs", 1, 1, 6, false⟩ ['@', '"', 'a', '\n', 'b', '"'],
        .token ⟨.whitespace, "main.cs", 2, 3, 1, false⟩ [' ']] ++
      .token ⟨.operator .hash, "main.cs", 2, 4, 1, false⟩ ['#'] ::
      [.token ⟨.directive .define, "main.cs", 2, 5, 6, false⟩ "define".toList,
        .token ⟨.whitespace, "main.cs", 2, 11, 1, false⟩ [' '],
        .token ⟨.identifier ⟨15, "X"⟩, "main.cs", 2, 12, 1, false⟩ ['X']] := by
    rw [s_eq]
    cbv
  have isItem : .directive ⟨.operator .hash, "main.cs", 2, 4, 1, false⟩ true
      [⟨.directive .define, "main.cs", 2, 5, 6, false⟩,
        ⟨.identifier ⟨15, "X"⟩, "main.cs", 2, 12, 1, false⟩] ∈
      SourceItem.ofTokens none (s.tokens "main.cs") := by
    rw [← whole.tokens_eq, isSplit]
    simp [SourceItem.ofTokens, Part.token?, Token.isOperator, Token.isSignificant,
      Token.isWhitespace, Token.isComment]
  have preceded := (reportsPreceded output _ _ _ preprocessed tokenized whole _ _ _ _ _ _ isSplit
    isItem).mpr (by decide)
  cases (mem_diagnostics_iff reached tokenized preprocessed isItem).mp preceded

end SharpFront
