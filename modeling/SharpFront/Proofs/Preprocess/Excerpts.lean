import SharpFront.Proofs.Diagnostic.Excerpt
import SharpFront.Proofs.Preprocess.LeadingHash
import SharpFront.Proofs.Scan.LongestMatch
import SharpFront.Proofs.Scan.Shown

/-!
# The excerpts of diagnostics

Whatever is reported stands at a place of the text that an excerpt can show: at a token, right after
a word or a parenthesis, or where the scanner stops. So the caret of every excerpt stands below what
the diagnostic is about.

* `Standing.directiveEvents_pointInto`, `isShown_of_mem_unitJournal`: what preprocessing reports;
* `exists_excerpt`: the excerpt of every diagnostic, and when there is none;
* `ShowsExcerpts`: that there always is one, which fails far to the right.
-/

namespace SharpFront

open Condition (PointsInto pointsInto_report pointsInto_reportAfter)

/-! ## What preprocessing reports -/

/-- Everything that is reported points at the tokens. -/
def PointInto (tokens : List PositionedToken) (events : List Event) : Prop :=
  ∀ e ∈ events, ∀ r ∈ e.report?, PointsInto tokens r

namespace PointInto

variable {tokens more : List PositionedToken} {events later : List Event} {e : Event}
  {t : PositionedToken}

theorem nil : PointInto tokens [] := List.forall_mem_nil _

theorem cons (h : ∀ r ∈ e.report?, PointsInto tokens r) (later : PointInto tokens events) :
    PointInto tokens (e :: events) := List.forall_mem_cons.mpr ⟨h, later⟩

theorem report (h : t ∈ tokens) (kind : DiagnosticKind) :
    PointInto tokens [.report (t.report kind)] := by
  refine cons ?_ nil
  rintro r isReport
  cases isReport
  exact pointsInto_report h kind

theorem badCode (isItem : t ∈ tokens) (h : PointInto tokens events) :
    PointInto tokens (.badCode t :: events) := by
  refine cons ?_ h
  intro r isReport
  cases isReport
  exact pointsInto_report isItem _

theorem entry (e : PolicyEntry) (h : PointInto tokens events) :
    PointInto tokens (.entry e :: events) := by
  refine cons ?_ h
  intro r isReport
  cases isReport

theorem mono (h : PointInto tokens events) (sub : tokens ⊆ more) : PointInto more events :=
  fun e isEvent r isReport => (h e isEvent r isReport).mono sub

theorem ofReports {rs : List Report} (h : AreAbout tokens rs) :
    PointInto tokens (rs.map .report) := by
  intro e isEvent r isReport
  obtain ⟨r, isThere, rfl⟩ := List.mem_map.mp isEvent
  cases isReport
  exact (h r isThere).1

end PointInto

namespace DirectiveLine

theorem codeEvents_pointInto (line : Nat) (action : WarningAction) :
    ∀ codes : List PositionedToken, PointInto codes (codeEvents line action codes)
  | [] => .nil
  | [item] => by
    simp only [codeEvents]
    cases item.token.plainNumber? with
    | none => exact .badCode List.mem_cons_self .nil
    | some code => exact .entry _ .nil
  | item :: separator :: rest => by
    have later : PointInto (item :: separator :: rest)
        (if separator.token.isOperator .comma then codeEvents line action rest
        else [.report (separator.report .endOfLineExpectedWarning)]) := by
      split
      · refine (codeEvents_pointInto line action rest).mono ?_
        intro t isLater
        exact List.mem_cons_of_mem _ (List.mem_cons_of_mem _ isLater)
      · exact .report (List.mem_cons_of_mem _ List.mem_cons_self) _
    simp only [codeEvents]
    cases item.token.plainNumber? with
    | none => exact .badCode List.mem_cons_self later
    | some code => exact .entry _ later

theorem pragmaEvents_pointInto (d : DirectiveLine) :
    PointInto (d.word :: d.operands) d.pragmaEvents := by
  unfold pragmaEvents
  split
  · exact .report List.mem_cons_self _
  · next kind rest operands =>
    have isKind : kind ∈ d.word :: d.operands := by simp [operands]
    split
    · next names =>
      unfold policyEvents
      split
      · refine .cons ?_ .nil
        intro r isReport
        cases isReport
        exact pointsInto_reportAfter isKind (by rw [Token.expectsMore, names]; rfl) _
      · next action codes =>
        split
        · split
          · exact .entry _ .nil
          · refine (codeEvents_pointInto _ _ codes).mono ?_
            intro t isCode
            simp [operands, isCode]
        · exact .report (by simp [operands]) _
    · exact .nil
    · exact .report isKind _

end DirectiveLine

namespace Standing

theorem directiveEvents_pointInto (s : Standing) (d : DirectiveLine) :
    PointInto (d.word :: d.operands) (s.directiveEvents d) := by
  unfold directiveEvents
  split
  · split
    · exact d.pragmaEvents_pointInto
    · exact .nil
  · exact .ofReports (s.reports_areAbout d)

/-- A unit of one token that is no `#` opens no condition. -/
theorem closing_singleton {s : Standing} {t : PositionedToken}
    (notHash : t.token.isOperator .hash = false) (isStart : s.conditions.isEmpty = true) :
    (s.steps (SourceItem.ofTokens none [t])).1.closing [t] = [] := by
  rw [SourceItem.ofTokens_token notHash]
  exact if_pos isStart

end Standing

/-! ## Where it stands -/

section

variable {source : List Char} {s : Scan} {file : String}

theorem Scan.Reached.isShown_start (h : Scan.Reached source s) {t : PositionedToken}
    (isToken : t ∈ s.tokens file) (notWhitespace : t.token.isWhitespace = false) :
    IsShown source t.line t.column := by
  rw [← (h.divides file).tokens_eq] at isToken
  obtain ⟨earlier, later, isSplit⟩ := List.append_of_mem isToken
  obtain ⟨before, text, after, isSplit, -⟩ := exists_parts_split isSplit
  exact h.isShown_part file _ _ _ isSplit (.inl notWhitespace)

/-- The last token is shown too, if it is not the only one. -/
theorem Scan.Reached.isShown_last (h : Scan.Reached source s) {earlier : List PositionedToken}
    {last : PositionedToken} (isSplit : s.tokens file = earlier ++ [last])
    (notFirst : earlier ≠ []) :
    IsShown source last.line last.column := by
  have divides := h.divides file
  rw [← divides.tokens_eq] at isSplit
  obtain ⟨before, text, after, isParts, isBefore⟩ := exists_parts_split isSplit
  refine h.isShown_part file _ _ _ isParts (.inr ?_)
  rintro rfl
  exact notFirst isBefore.symm

variable (h : Scan.Reached source s) (atEnd : s.rest = [])

include h atEnd

/-- What points at tokens other than blanks is shown. -/
theorem isShown_of_pointsInto {tokens : List PositionedToken} {r : Report}
    (areTokens : ∀ t ∈ tokens, t ∈ s.tokens file ∧ t.token.isWhitespace = false)
    (pointsInto : PointsInto tokens r) : IsShown source r.line r.column := by
  obtain ⟨t, isToken, kind, rfl | ⟨expects, rfl⟩⟩ := pointsInto
  · obtain ⟨isToken, notWhitespace⟩ := areTokens t isToken
    exact h.isShown_start isToken notWhitespace
  · have divides := h.divides file
    obtain ⟨isToken, -⟩ := areTokens t isToken
    rw [← divides.tokens_eq] at isToken
    obtain ⟨earlier, later, isSplit⟩ := List.append_of_mem isToken
    obtain ⟨before, text, after, isSplit, -⟩ := exists_parts_split isSplit
    exact isShown_stop (divides.arePartsOf h atEnd) isSplit expects

theorem isShown_of_mem_events {t : Standing} {item : SourceItem}
    (isItem : item ∈ SourceItem.ofTokens none (s.tokens file)) {e : Event}
    (isEvent : e ∈ t.events item) {r : Report} (isReport : r ∈ e.report?) : IsShown source r.line r.column := by
  cases item with
  | token t => cases isEvent
  | directive hash leads body =>
    obtain ⟨earlier, later, isSplit, -, isHash, body_eq⟩ :=
      SourceItem.exists_body_of_mem_ofTokens isItem
    have hashShown : IsShown source hash.line hash.column := by
      have isToken : hash ∈ s.tokens file := isSplit ▸ List.mem_append_cons_self
      exact h.isShown_start isToken (isSignificant_iff.mp (isSignificant_of_isHash isHash)).1
    have areTokens : ∀ t ∈ body, t ∈ s.tokens file ∧ t.token.isWhitespace = false := by
      intro t isBody
      have sub := (SourceItem.sublist_of_mem_ofTokens isItem).subset
      refine ⟨sub (List.mem_cons_of_mem _ isBody), ?_⟩
      rw [body_eq] at isBody
      exact (isSignificant_iff.mp (List.mem_filter.mp isBody).2).1
    rcases Standing.mem_events_directive.mp isEvent with ⟨-, rfl⟩ | isBody
    · cases isReport
      exact hashShown
    · cases body with
      | nil =>
        cases List.mem_singleton.mp isBody
        cases isReport
        exact hashShown
      | cons word operands =>
        exact isShown_of_pointsInto h atEnd areTokens
          (t.directiveEvents_pointInto ⟨word, operands⟩ e isBody r isReport)

/-- Everything that preprocessing reports is shown. -/
theorem isShown_of_mem_unitJournal {t : Standing} (isStart : t.conditions.isEmpty = true)
    {e : Event} (isEvent : e ∈ t.unitJournal (s.tokens file)) {r : Report} (isReport : r ∈ e.report?) :
    IsShown source r.line r.column := by
  rcases List.mem_append.mp isEvent with isEvent | isClosing
  · obtain ⟨item, isItem, t, isEvent⟩ := t.exists_of_mem_journal isEvent
    exact isShown_of_mem_events h atEnd isItem isEvent isReport
  · obtain ⟨last, isLast, rfl⟩ := Standing.exists_of_mem_closing isClosing
    cases isReport
    obtain ⟨earlier, isSplit⟩ := List.getLast?_eq_some_iff.mp isLast
    cases notBlank : last.token.isWhitespace with
    | false =>
      have isToken : last ∈ s.tokens file := isSplit ▸ List.mem_append_cons_self
      exact h.isShown_start isToken notBlank
    | true =>
      refine h.isShown_last isSplit ?_
      rintro rfl
      have notHash : last.token.isOperator .hash = false := by
        cases token : last.token <;> simp_all [Token.isWhitespace, Token.isOperator]
      rw [isSplit, List.nil_append, Standing.closing_singleton notHash isStart] at isClosing
      cases isClosing

end

/-! ## The whole text -/

/-- What a sink has heard of stands where it was reported. -/
theorem Diagnostics.exists_report_of_mem_hearAll (s : Diagnostics) {events : List Event}
    {d : Diagnostic} (h : d ∈ (s.hearAll events).toList) :
    d ∈ s.toList ∨ ∃ e ∈ events, ∃ r ∈ e.report?, d.line = r.line ∧ d.column = r.column := by
  obtain ⟨found, kept, areKept⟩ := s.exists_kept events
  rw [kept] at h
  refine (List.mem_append.mp h).imp_right ?_
  intro isFound
  obtain ⟨r, isReport, stands⟩ := areKept.exists_of_mem isFound
  obtain ⟨e, isEvent, made⟩ := List.mem_filterMap.mp isReport
  exact ⟨e, isEvent, r, made, stands⟩

/-- Every diagnostic of a text is at a place that an excerpt can show. -/
theorem isShown_of_mem_diagnostics {file raw : String} {settings : Settings} {s : Scan}
    {output : Output} (h : Scan.Reached (normalize raw.toList) s) (atEnd : s.rest = [])
    (tokenized : tokenize raw file = .ok (s.tokens file, ({} : Diagnostics).reportAll s.reports))
    (run : preprocess file raw settings = .ok output) :
    ∀ d ∈ output.diagnostics.toList, IsShown (normalize raw.toList) d.line d.column := by
  obtain ⟨output', run', -, diagnostics⟩ := exists_preprocess settings tokenized
  obtain rfl : output' = output := Except.ok.inj (run'.symm.trans run)
  rw [diagnostics, Diagnostics.extend_toList, Diagnostics.extend_toList]
  intro d isKept
  rcases List.mem_append.mp isKept with isScanned | isHeard
  · rcases List.mem_append.mp isScanned with isEmpty | isScanned
    · cases isEmpty
    · obtain ⟨r, isReport, resolved⟩ := Diagnostics.exists_of_mem_reportAll isScanned
      obtain ⟨line, column⟩ := WarningPolicy.resolve?_place resolved
      rw [line, column]
      exact h.isShown_report r isReport
  · rcases Diagnostics.exists_report_of_mem_hearAll _ isHeard with isEmpty |
      ⟨e, isEvent, r, isReport, line, column⟩
    · cases isEmpty
    · rw [line, column]
      exact isShown_of_mem_unitJournal h atEnd rfl isEvent isReport

theorem source_of_preprocess {file raw : String} {settings : Settings}
    {tokens : List PositionedToken} {scanned : Diagnostics} {output : Output}
    (tokenized : tokenize raw file = .ok (tokens, scanned))
    (run : preprocess file raw settings = .ok output) : output.source = .ofRaw raw := by
  simp only [preprocess, tokenized] at run
  cases run
  rfl

/-- **Every diagnostic points into the text.** It is at a line of the source text and at a column of
that line, or one past its end, after the spaces and tabs in front. Its excerpt has a caret below
what stands there; there is no excerpt only when the caret would be more than 65535 columns to the
right of those spaces and tabs. -/
theorem exists_excerpt (file raw : String) (settings : Settings) :
    ∃ output, preprocess file raw settings = .ok output ∧
      ∀ d ∈ output.diagnostics.toList, ∃ line, output.source.line? d.line = some line ∧
        1 ≤ d.column ∧ d.column ≤ line.length + 1 ∧
        (d.excerpt? file output.source = none ↔
          65535 < d.column - Excerpt.indentation line) ∧
        ∀ text, d.excerpt? file output.source = some text →
          Excerpt.HasExcerpt text line d.column := by
  obtain ⟨s, reached, atEnd, tokenized⟩ := exists_scan raw file
  obtain ⟨output, run, -, -⟩ := exists_preprocess settings tokenized
  refine ⟨output, run, ?_⟩
  intro d isDiagnostic
  have shown := isShown_of_mem_diagnostics reached atEnd tokenized run d isDiagnostic
  obtain ⟨line, isLine, visible, inside⟩ := shown.exists_line
  rw [source_of_preprocess tokenized run]
  exact ⟨line, isLine, Nat.one_le_of_lt visible, inside, excerpt?_eq_none_iff isLine visible,
    fun text => hasExcerpt_of_excerpt? isLine visible inside⟩

/-- What should hold of the text: every diagnostic has an excerpt that points at its column. -/
def ShowsExcerpts (file raw : String) (settings : Settings) : Prop :=
  ∀ output, preprocess file raw settings = .ok output →
    ∀ d ∈ output.diagnostics.toList, ∃ line text, output.source.line? d.line = some line ∧
      1 ≤ d.column ∧ d.column ≤ line.length + 1 ∧
      d.excerpt? file output.source = some text ∧ Excerpt.HasExcerpt text line d.column

/-! ## Far to the right -/

theorem wordText_replicate (n : Nat) :
    Form.wordText (List.replicate (n + 1) 'a' ++ ['$']) = List.replicate (n + 1) 'a' := by
  have isStart : Text.isWordStart 'a' = true := by decide +kernel
  have isPart : ∀ c ∈ List.replicate n 'a', Text.isWordPart c = true := by
    intro c isChar
    rw [List.eq_of_mem_replicate isChar]
    exact Text.isWordPart_of_isWordStart isStart
  have notPart : Text.isWordPart '$' = false := by decide +kernel
  rw [List.replicate_succ, List.cons_append, Form.wordText, if_pos isStart,
    List.takeWhile_append_of_pos isPart, List.takeWhile_cons_of_neg (Bool.eq_false_iff.mp notPart),
    List.append_nil]

theorem excludes_dollar :
    ∀ form ∈ defaultCatalog, form.opening.excludes (.fixed ['$']) = true := by
  decide +kernel

theorem Scan.Takes.eq_rejected {s : Scan} {segment : Segment} (takes : Scan.Takes s segment)
    (rest : s.rest = ['$']) : segment = .rejected s.place '$' := by
  have start_eq := takes.start_eq
  cases segment with
  | lexeme start l =>
    obtain ⟨form, inCatalog, matched⟩ := takes.exists_form
    have opens := (Form.opens_of_recognize matched).mono takes.isPrefix
    have dollar : Opening.Opens (.fixed ['$']) s.rest := rest ▸ List.prefix_refl _
    exact absurd dollar (Opening.not_opens_of_excludes (excludes_dollar form inCatalog) opens)
  | skipped start blanks => cases takes
  | rejected start c =>
    obtain ⟨more, next, -⟩ := Scan.not_isBlank_of_rejected takes
    rw [rest] at next
    cases next
    exact congrArg (Segment.rejected · '$') start_eq

/-- A character that no form knows, after a word. -/
theorem mem_reports_after_word (n : Nat) :
    ∃ s, ({ rest := List.replicate (n + 1) 'a' ++ ['$'] } : Scan).run Scan.tiers = (s, none) ∧
      ⟨.unexpectedCharacter '$', 1, n + 2, 1⟩ ∈ s.reports := by
  let word := List.replicate (n + 1) 'a'
  let s : Scan := { rest := word ++ ['$'] }
  have isWord := wordText_replicate n
  have notEmpty : Form.wordText (word ++ ['$']) ≠ [] := by
    rw [isWord]
    exact List.cons_ne_nil _ _
  obtain ⟨l, found, covered⟩ : ∃ l, s.recognize .word = some l ∧ l.text = Form.wordText s.rest :=
    Form.exists_word? notEmpty rfl
  rw [isWord] at covered
  have takesWord : Scan.Takes s (.lexeme s.place l) := .of_recognize (by decide) (by decide) found
  let t := s.record (.lexeme s.place l)
  have rest : t.rest = ['$'] := by
    simp only [t, Scan.record_rest, Segment.text, covered, s, word, List.drop_left]
  have noFeed : '\n' ∉ List.replicate (n + 1) 'a' := by
    intro isChar
    cases List.eq_of_mem_replicate isChar
  have place : t.place = ({} : Place).after (List.replicate (n + 1) 'a') := by
    rw [← covered]
    exact takesWord.place_record
  rw [Place.after_eq, lineAfter, List.count_eq_zero.mpr noFeed, columnAfter_eq,
    lastLine_of_notMem noFeed, List.length_replicate] at place
  have notEnd : t.rest ≠ [] := by
    rw [rest]
    exact List.cons_ne_nil _ _
  obtain ⟨segment, takes⟩ := Scan.exists_takes notEnd
  obtain rfl := takes.eq_rejected rest
  have atEnd : (t.record (.rejected t.place '$')).rest = [] := by
    rw [Scan.record_rest, rest]
    rfl
  refine ⟨t.record (.rejected t.place '$'), ?_, ?_⟩
  · rw [Scan.run_of_takes takesWord takesWord.rest_ne_nil, Scan.run_of_takes takes notEnd,
      Scan.run, dif_pos atEnd]
  · rw [Scan.reports_record, Segment.reports]
    refine List.mem_append_right _ (List.mem_singleton.mpr ?_)
    rw [place]

theorem not_showsExcerpts_of_wide {n : Nat} (wide : 65535 < n + 2) (file : String) :
    ¬ShowsExcerpts file (String.ofList (List.replicate (n + 1) 'a' ++ ['$'])) {} := by
  intro showsExcerpts
  let raw := String.ofList (List.replicate (n + 1) 'a' ++ ['$'])
  have source : normalize raw.toList = List.replicate (n + 1) 'a' ++ ['$'] := by
    rw [String.toList_ofList]
    refine normalize_of_plain ?_
    intro c isChar
    rcases List.mem_append.mp isChar with isLetter | isDollar
    · rw [List.eq_of_mem_replicate isLetter]
      decide
    · rw [List.mem_singleton.mp isDollar]
      decide
  obtain ⟨s, run, isReport⟩ := mem_reports_after_word n
  rw [← source] at run
  have tokenized := tokenize_eq file run
  obtain ⟨output, preprocessed, -, diagnostics⟩ := exists_preprocess {} tokenized
  let r : Report := ⟨.unexpectedCharacter '$', 1, n + 2, 1⟩
  have kept : r.asError ∈ output.diagnostics.toList := by
    rw [diagnostics, Diagnostics.extend_toList, Diagnostics.extend_toList,
      Diagnostics.reportAll_toList]
    refine List.mem_append_left _ (List.mem_append_right _ (List.mem_append_right _ ?_))
    exact List.mem_filterMap.mpr ⟨r, isReport, WarningPolicy.resolve?_of_isError _ rfl⟩
  obtain ⟨line, text, isLine, -, -, isExcerpt, -⟩ := showsExcerpts output preprocessed _ kept
  have first := line?_lineAfter [] (normalize raw.toList)
  have isFirst : line = Form.restOfLine (normalize raw.toList) := by
    rw [source_of_preprocess tokenized preprocessed] at isLine
    exact Option.some.inj (isLine.symm.trans first)
  have flush : Excerpt.indentation line = 0 := by
    rw [isFirst, source]
    rfl
  have visible : Excerpt.indentation line < r.asError.column := flush ▸ Nat.succ_pos _
  have missing : r.asError.excerpt? file output.source = none :=
    (excerpt?_eq_none_iff isLine visible).mpr (flush ▸ wide)
  rw [isExcerpt] at missing
  cases missing

/-- A caret row that is too wide for its format. -/
theorem not_showsExcerpts_wide :
    ¬ShowsExcerpts "main.cs" (String.ofList (List.replicate 65535 'a' ++ ['$'])) {} :=
  not_showsExcerpts_of_wide (n := 65534) (by decide) "main.cs"

end SharpFront
