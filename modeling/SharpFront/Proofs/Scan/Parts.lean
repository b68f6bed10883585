import SharpFront.Lexer
import SharpFront.Proofs.Diagnostic.Sink
import SharpFront.Proofs.Scan.Segments

/-!
# The parts of a source text

Tokenizing divides a source text: every character is covered by one token or reported as unexpected.

* `Part.StandsAfter`: what a part is, given the parts before it;
* `tokenize_eq_parts`: the tokens and the unexpected characters are the parts of the source text.
-/

namespace SharpFront

def DiagnosticKind.isUnexpectedCharacter : DiagnosticKind → Bool
  | unexpectedCharacter _ => true
  | _ => false

/-- What scanning reports. -/
def DiagnosticKind.isLexical : DiagnosticKind → Bool
  | unexpectedCharacter _ | unrecognizedEscape | newlineInConstant | unterminatedComment
  | unterminatedString => true
  | _ => false

/-- The last of the tokens, blanks aside, is a `#` on the line. -/
def endWithHash (tokens : List PositionedToken) (line : Nat) : Bool :=
  (tokens.reverse.find? (!·.token.isWhitespace)).any fun t =>
    t.line == line && t.token.isOperator .hash

/-- The line of the token, its column and the column after it fit in 32 bits. -/
def PositionedToken.Fits (t : PositionedToken) : Prop :=
  t.line < UInt32.size ∧ t.column + t.length < UInt32.size

/-- A token with the text that it covers, or a character with the diagnostic about it. -/
inductive Part where
  | token (t : PositionedToken) (text : List Char)
  | unexpected (d : Diagnostic) (c : Char)

namespace Part

def text : Part → List Char
  | token _ text => text
  | unexpected _ c => [c]

def token? : Part → Option PositionedToken
  | token t _ => some t
  | unexpected .. => none

def unexpected? : Part → Option Diagnostic
  | token .. => none
  | unexpected d _ => some d

/-- A token is what some form finds in the text that remains after the parts before it. What stands
there is placed by the text of those parts. -/
def StandsAfter (source : List Char) (before : List Part) (part : Part) : Prop :=
  let seen := before.flatMap text
  match part with
  | token t text =>
    text ≠ [] ∧ t.line = lineAfter seen ∧ t.column = columnAfter seen ∧ t.length = text.length ∧
      ∃ form ∈ defaultCatalog, ∃ l,
        form.recognize (endWithHash (before.filterMap token?)) ⟨byteSize seen, t.line, t.column⟩
          (source.drop seen.length) = some l ∧
        l.token = t.token ∧ l.text = text
  | unexpected d c =>
    d.kind = .unexpectedCharacter c ∧ d.line = lineAfter seen ∧ d.column = columnAfter seen

/-- The numbers of a part, and the column after a token, fit in 32 bits. -/
def Fits : Part → Prop
  | token t _ => t.Fits
  | unexpected d _ => d.line < UInt32.size ∧ d.column < UInt32.size

theorem StandsAfter.fits {source : List Char} {before : List Part} {part : Part}
    (h : part.StandsAfter source before)
    (short : (before.flatMap text).length + part.text.length < UInt32.size - 1) : part.Fits := by
  have line := lineAfter_le (before.flatMap text)
  have column := columnAfter_le (before.flatMap text)
  cases part with
  | token t text =>
    obtain ⟨-, line_eq, column_eq, length_eq, -⟩ := h
    simp only [Part.text] at short
    exact ⟨by omega, by omega⟩
  | unexpected d c =>
    obtain ⟨-, line_eq, column_eq⟩ := h
    exact ⟨by omega, by omega⟩

end Part

/-- The part that a segment becomes. Blanks that no form asked for become none. -/
def Segment.part? (file : String) : Segment → Option Part
  | lexeme start l =>
    some (.token
      { token := l.token, file, line := start.line, column := start.column,
        length := l.text.length } l.text)
  | skipped .. => none
  | rejected start c =>
    some (.unexpected ⟨.unexpectedCharacter c, .error, start.line, start.column, 1⟩ c)

namespace Scan

variable {source : List Char} {file : String} {s : Scan} {segment : Segment}

def parts (s : Scan) (file : String) : List Part :=
  s.segments.reverse.filterMap (·.part? file)

/-! ## What a segment adds -/

theorem parts_record {part : Part} (h : segment.part? file = some part) :
    (s.record segment).parts file = s.parts file ++ [part] := by
  simp only [parts, record, List.reverse_cons, List.filterMap_append, List.filterMap_cons, h,
    List.filterMap_nil]

theorem tokens_record (s : Scan) (segment : Segment) (file : String) :
    (s.record segment).tokens file = s.tokens file ++ (segment.token? file).toList := by
  simp only [tokens, record, List.reverse_cons, List.filterMap_append, List.filterMap_cons,
    List.filterMap_nil]
  cases segment.token? file <;> rfl

theorem reports_record (s : Scan) (segment : Segment) :
    (s.record segment).reports = s.reports ++ segment.reports := by
  simp only [reports, record, List.reverse_cons, List.flatMap_append, List.flatMap_singleton]

/-- What holds of the token of each segment holds of all. -/
theorem Reached.forall_tokens {P : PositionedToken → Prop} (h : Reached source s)
    (next : ∀ s segment, Takes s segment → ∀ t ∈ segment.token? file, P t) :
    ∀ t ∈ s.tokens file, P t := by
  induction h with
  | start => exact List.forall_mem_nil _
  | @record s segment h takes ih =>
    rw [tokens_record]
    refine List.forall_mem_append.mpr ⟨ih, ?_⟩
    intro t isHere
    exact next s segment takes t (Option.mem_toList.mp isHere)

/-- What holds of the reports of each segment holds of all. -/
theorem Reached.forall_reports {P : Report → Prop} (h : Reached source s)
    (next : ∀ s segment, Reached source s → Takes s segment → ∀ r ∈ segment.reports, P r) :
    ∀ r ∈ s.reports, P r := by
  induction h with
  | start => exact List.forall_mem_nil _
  | @record s segment h takes ih =>
    rw [reports_record]
    exact List.forall_mem_append.mpr ⟨ih, next s segment h takes⟩

/-- Scanning reports only characters and what is wrong with literals and comments. -/
theorem Reached.reports_isLexical (h : Reached source s) :
    ∀ r ∈ s.reports, r.kind.isLexical = true := by
  refine h.forall_reports fun s segment h takes => ?_
  cases takes with
  | blank found | lexeme _ found =>
    obtain ⟨form, -, found⟩ := List.exists_of_findSome?_eq_some found
    intro r reported
    rcases Form.recognize_reports found reported with kind | kind | kind | kind <;>
      rw [kind] <;> rfl
  | rejected => exact List.forall_mem_singleton.mpr rfl

theorem findSome?_solid? (segments : List Segment) (file : String) :
    segments.findSome? Segment.solid? =
      ((segments.filterMap (·.token? file)).find? (!·.token.isWhitespace)).map
        fun t => (t.token, t.line) := by
  induction segments with
  | nil => rfl
  | cons segment segments ih =>
    cases segment with
    | lexeme start l =>
      cases isBlank : l.token.isWhitespace <;>
        simp [Segment.solid?, Segment.token?, isBlank, ih]
    | skipped start blanks => exact ih
    | rejected start c => exact ih

theorem followsHash_eq (s : Scan) (file : String) :
    s.followsHash = endWithHash (s.tokens file) := by
  funext line
  simp only [followsHash, endWithHash, tokens, findSome?_solid? s.segments file,
    List.filterMap_reverse, List.reverse_reverse]
  cases (s.segments.filterMap (·.token? file)).find? (!·.token.isWhitespace) <;> rfl

/-- The diagnostics about unexpected characters that reports lead to. -/
def unexpected (rs : List Report) : List Diagnostic :=
  (rs.filterMap ({} : WarningPolicy).resolve?).filter (·.kind.isUnexpectedCharacter)

theorem unexpected_append (rs rs' : List Report) :
    unexpected (rs ++ rs') = unexpected rs ++ unexpected rs' := by
  simp only [unexpected, List.filterMap_append, List.filter_append]

/-- A form never takes a character for unexpected. -/
theorem unexpected_of_recognize {form : Form} {l : Lexeme} (h : s.recognize form = some l) :
    unexpected l.reports = [] := by
  refine List.filter_eq_nil_iff.mpr ?_
  intro d isDiagnostic
  obtain ⟨r, reported, resolved⟩ := List.mem_filterMap.mp isDiagnostic
  obtain ⟨severity, -, rfl⟩ := Option.map_eq_some_iff.mp resolved
  rcases Form.recognize_reports h reported with kind | kind | kind | kind <;>
    simp [kind, DiagnosticKind.isUnexpectedCharacter]

/-! ## Parts of what has been seen -/

/-- The parts are those of the text that a scan has seen. -/
structure Divides (source : List Char) (file : String) (s : Scan) (parts : List Part) : Prop where
  text_eq : parts.flatMap Part.text = s.seen
  tokens_eq : parts.filterMap Part.token? = s.tokens file
  unexpected_eq : parts.filterMap Part.unexpected? = unexpected s.reports
  stands : ∀ before part after, parts = before ++ part :: after → part.StandsAfter source before

theorem not_split_nil {before after : List Part} {part : Part} :
    [] ≠ before ++ part :: after := by
  intro isSplit
  cases before <;> cases isSplit

theorem divides_start (source : List Char) (file : String) :
    Divides source file { rest := source } [] where
  text_eq := rfl
  tokens_eq := rfl
  unexpected_eq := rfl
  stands := fun _ _ _ isSplit => absurd isSplit not_split_nil

/-- What holds of the parts and of one more part after them. -/
theorem forall_split_concat {P : List Part → Part → Prop} {parts : List Part} {last : Part}
    (earlier : ∀ before part after, parts = before ++ part :: after → P before part)
    (isLast : P parts last) :
    ∀ before part after, parts ++ [last] = before ++ part :: after → P before part := by
  intro before part after isSplit
  rcases List.eq_nil_or_concat after with rfl | ⟨after, other, rfl⟩
  · obtain ⟨rfl, same⟩ := List.append_inj' isSplit rfl
    cases same
    exact isLast
  · rw [List.concat_eq_append, ← List.cons_append, ← List.append_assoc] at isSplit
    obtain ⟨isSplit, -⟩ := List.append_inj' isSplit rfl
    exact earlier before part after isSplit

theorem Divides.concat {parts : List Part} (h : Divides source file s parts) (part : Part)
    (text_eq : part.text = segment.text) (token_eq : part.token? = segment.token? file)
    (unexpected_eq : part.unexpected?.toList = unexpected segment.reports)
    (stands : part.StandsAfter source parts) :
    Divides source file (s.record segment) (parts ++ [part]) where
  text_eq := by
    rw [List.flatMap_append, List.flatMap_singleton, h.text_eq, text_eq, seen_record]
  tokens_eq := by
    rw [List.filterMap_append, h.tokens_eq, tokens_record, ← token_eq]
    cases part <;> rfl
  unexpected_eq := by
    rw [List.filterMap_append, h.unexpected_eq, reports_record, unexpected_append, ← unexpected_eq]
    cases part <;> rfl
  stands := forall_split_concat h.stands stands

/-- A step adds the part of its segment to those before it. -/
theorem Divides.record {parts : List Part} (divides : Divides source file s parts)
    (h : Reached source s) (takes : Takes s segment) :
    ∃ part, segment.part? file = some part ∧
      Divides source file (s.record segment) (parts ++ [part]) := by
  have place := h.place_eq
  rw [Place.after_eq] at place
  have offset_eq : byteSize s.seen = s.place.offset := by rw [place]
  have line_eq : s.place.line = lineAfter s.seen := by rw [place]
  have column_eq : s.place.column = columnAfter s.seen := by rw [place]
  have start_eq := takes.start_eq
  cases segment with
  | lexeme start l =>
    cases start_eq
    obtain ⟨form, inCatalog, found⟩ := takes.exists_form
    let t : PositionedToken :=
      { token := l.token, file, line := s.place.line, column := s.place.column,
        length := l.text.length }
    have rest : source.drop s.seen.length = s.rest := by rw [h.source_eq, List.drop_left]
    have stands : Part.StandsAfter source parts (.token t l.text) := by
      simp only [Part.StandsAfter, divides.text_eq, divides.tokens_eq, rest, ← followsHash_eq]
      refine ⟨takes.text_ne_nil, line_eq, column_eq, rfl, form, inCatalog, l, ?_, rfl, rfl⟩
      rw [offset_eq]
      exact found
    have noCharacter : unexpected (Segment.lexeme s.place l).reports = [] :=
      unexpected_of_recognize found
    exact ⟨_, rfl, divides.concat (.token t l.text) rfl rfl noCharacter.symm stands⟩
  | skipped start blanks => cases takes
  | rejected start c =>
    cases start_eq
    let d : Diagnostic := ⟨.unexpectedCharacter c, .error, s.place.line, s.place.column, 1⟩
    have stands : Part.StandsAfter source parts (.unexpected d c) := by
      simp only [Part.StandsAfter, divides.text_eq]
      exact ⟨rfl, line_eq, column_eq⟩
    exact ⟨_, rfl, divides.concat (.unexpected d c) rfl rfl rfl stands⟩

theorem Reached.divides (file : String) (h : Reached source s) :
    Divides source file s (s.parts file) := by
  induction h with
  | start => exact divides_start source file
  | record h takes ih =>
    obtain ⟨part, isPart, divides⟩ := ih.record h takes
    rw [parts_record isPart]
    exact divides

/-- What holds of the part of each segment and of the parts before it holds throughout. -/
theorem Reached.forall_parts {P : List Part → Part → Prop} (h : Reached source s)
    (next : ∀ s segment part, Reached source s → Takes s segment →
      segment.part? file = some part → P (s.parts file) part) :
    ∀ before part after, s.parts file = before ++ part :: after → P before part := by
  induction h with
  | start => exact fun _ _ _ isSplit => absurd isSplit not_split_nil
  | @record s segment h takes ih =>
    obtain ⟨part, isPart, -⟩ := (h.divides file).record h takes
    rw [parts_record isPart]
    exact forall_split_concat ih (next s segment part h takes isPart)

end Scan

/-! ## Tokenizing -/

theorem tokenize_eq {raw : String} {s : Scan} (file : String)
    (h : ({ rest := normalize raw.toList } : Scan).run Scan.tiers = (s, none)) :
    tokenize raw file = .ok (s.tokens file, ({} : Diagnostics).reportAll s.reports) := by
  have catalog : defaultCatalog.isEmpty = false := rfl
  have run : ({ rest := normalize raw.toList } : Scan).run (.build defaultCatalog) = (s, none) := h
  simp only [tokenize, Lexer.ofCatalog, Lexer.setInput, Lexer.reset, Lexer.run, SourceText.ofRaw,
    Option.isNone_some, catalog, Bool.false_eq_true, if_false, Option.map_some, Option.getD_some,
    run, Scan.tokens]
  rfl

theorem exists_scan (raw file : String) :
    ∃ s, Scan.Reached (normalize raw.toList) s ∧ s.rest = [] ∧
      tokenize raw file = .ok (s.tokens file, ({} : Diagnostics).reportAll s.reports) := by
  obtain ⟨s, run, atEnd, reached⟩ :=
    Scan.exists_reached_end (@Scan.Reached.start (normalize raw.toList))
  exact ⟨s, reached, atEnd, tokenize_eq file run⟩

/-- The parts make up the source text, and the tokens and the unexpected characters are theirs. -/
structure ArePartsOf (source : List Char) (tokens : List PositionedToken)
    (diagnostics : Diagnostics) (parts : List Part) : Prop where
  text_eq : parts.flatMap Part.text = source
  tokens_eq : parts.filterMap Part.token? = tokens
  unexpected_eq : parts.filterMap Part.unexpected? =
    diagnostics.toList.filter (·.kind.isUnexpectedCharacter)
  stands : ∀ before part after, parts = before ++ part :: after → part.StandsAfter source before

/-- Where what a list is mapped to is split at an element, so is the list. -/
theorem exists_of_filterMap_eq {α β : Type} {f : α → Option β} {xs : List α} {before after : List β}
    {y : β} (h : xs.filterMap f = before ++ y :: after) :
    ∃ front x back, xs = front ++ x :: back ∧ f x = some y ∧ front.filterMap f = before ∧
      back.filterMap f = after := by
  obtain ⟨front, rest, rfl, isFront, isRest⟩ := List.filterMap_eq_append_iff.mp h
  obtain ⟨skipped, x, back, rfl, noneOf, isHere, isBack⟩ := List.filterMap_eq_cons_iff.mp isRest
  have skippedNone : skipped.filterMap f = [] := List.filterMap_eq_nil_iff.mpr noneOf
  refine ⟨front ++ skipped, x, back, by rw [List.append_assoc], isHere, ?_, isBack⟩
  rw [List.filterMap_append, isFront, skippedNone, List.append_nil]

/-- A token of the parts and the text before it. -/
theorem exists_parts_split {parts : List Part} {t : PositionedToken}
    {earlier later : List PositionedToken}
    (h : parts.filterMap Part.token? = earlier ++ t :: later) :
    ∃ before text after, parts = before ++ .token t text :: after ∧
      before.filterMap Part.token? = earlier := by
  obtain ⟨before, part, after, isSplit, isToken, isEarlier, -⟩ := exists_of_filterMap_eq h
  cases part with
  | unexpected d c => cases isToken
  | token u text =>
    cases isToken
    exact ⟨before, text, after, isSplit, isEarlier⟩

theorem Scan.Divides.arePartsOf {source : List Char} {file : String} {s : Scan}
    {parts : List Part} (divides : Scan.Divides source file s parts)
    (reached : Scan.Reached source s) (atEnd : s.rest = []) :
    ArePartsOf source (s.tokens file) (({} : Diagnostics).reportAll s.reports) parts where
  text_eq := by
    have source_eq := reached.source_eq
    rw [atEnd, List.append_nil] at source_eq
    exact divides.text_eq.trans source_eq.symm
  tokens_eq := divides.tokens_eq
  unexpected_eq := by
    rw [Diagnostics.reportAll_toList]
    exact divides.unexpected_eq
  stands := divides.stands

/-- The tokens and the unexpected characters of a source text are its parts, in order, and their
places and lengths fit in 32 bits. -/
structure IsDivision (source : List Char) (tokens : List PositionedToken)
    (diagnostics : Diagnostics) (parts : List Part) : Prop
    extends ArePartsOf source tokens diagnostics parts where
  fits : ∀ part ∈ parts, part.Fits

theorem Scan.Reached.exists_isDivision {source : List Char} {s : Scan} (file : String)
    (short : source.length < UInt32.size - 1) (reached : Scan.Reached source s)
    (atEnd : s.rest = []) :
    ∃ parts, IsDivision source (s.tokens file) (({} : Diagnostics).reportAll s.reports) parts := by
  have whole := (reached.divides file).arePartsOf reached atEnd
  refine ⟨s.parts file, whole, ?_⟩
  intro part isPart
  obtain ⟨before, after, isSplit⟩ := List.append_of_mem isPart
  have text_eq := whole.text_eq
  rw [← text_eq, isSplit, List.flatMap_append, List.flatMap_cons, List.length_append,
    List.length_append] at short
  exact (whole.stands before part after isSplit).fits (by omega)

theorem IsDivision.tokens_fit {source : List Char} {tokens : List PositionedToken}
    {diagnostics : Diagnostics} {parts : List Part} (h : IsDivision source tokens diagnostics parts)
    {t : PositionedToken} (isToken : t ∈ tokens) : t.Fits := by
  rw [← h.tokens_eq] at isToken
  obtain ⟨part, isPart, isToken⟩ := List.mem_filterMap.mp isToken
  have fits := h.fits part isPart
  cases part with
  | token t' text =>
    cases isToken
    exact fits
  | unexpected d c => cases isToken

theorem normalize_short {raw : String} (h : raw.length < UInt32.size - 1) :
    (normalize raw.toList).length < UInt32.size - 1 := by
  have shorter := normalize_length_le raw.toList
  rw [String.length_toList] at shorter
  omega

/-- **A text is divided into tokens and unexpected characters.** The scanner always runs to its end,
and nothing of the text is lost, read twice or put in another place on the way. -/
theorem tokenize_eq_parts (raw file : String) (h : raw.length < UInt32.size - 1) :
    ∃ tokens diagnostics parts, tokenize raw file = .ok (tokens, diagnostics) ∧
      IsDivision (normalize raw.toList) tokens diagnostics parts := by
  obtain ⟨s, reached, atEnd, tokenized⟩ := exists_scan raw file
  obtain ⟨parts, division⟩ := reached.exists_isDivision file (normalize_short h) atEnd
  exact ⟨_, _, parts, tokenized, division⟩

/-- A carriage return, a character of two bytes, one that no form knows and a string without an
end. -/
theorem tokenize_eq_parts_unterminated :
    "é\r\n$ \"a\\q".length < UInt32.size - 1 ∧
      ∃ tokens diagnostics parts, tokenize "é\r\n$ \"a\\q" "main.cs" = .ok (tokens, diagnostics) ∧
        IsDivision (normalize "é\r\n$ \"a\\q".toList) tokens diagnostics parts :=
  ⟨by decide, tokenize_eq_parts "é\r\n$ \"a\\q" "main.cs" (by decide)⟩

end SharpFront
