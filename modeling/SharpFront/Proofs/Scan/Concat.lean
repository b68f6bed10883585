import SharpFront.Proofs.Form.Moved
import SharpFront.Proofs.Scan.Lookahead
import SharpFront.Proofs.Scan.Resume

/-!
# Texts that are put together

Where a scan has just completed a token or passed over a character, the text can be cut in two: each
part is scanned as it would be by itself, with the second one put where the first one ends. Only a
`#` before the cut is remembered behind it.
Lines and columns have no bound here; `Checked.tokenize_eq_ok` is for counters of 32 bits.

* `Segment.moveTo`: a segment of a text that is put elsewhere;
* `MovesTo`: a scan of a text and a scan of the same text put elsewhere;
* `Takes.moveTo`, `Path.moveTo`: they take the same, moved;
* `tokenize_append`: the tokens and diagnostics of a text that is cut in two.
-/

namespace SharpFront

/-! ## Segments -/

namespace Segment

/-- The segment where the text that it is from is put at the origin. -/
def moveTo (segment : Segment) (origin : Place) : Segment :=
  match segment with
  | lexeme start l => lexeme (start.moveTo origin) (l.moveTo origin)
  | skipped start blanks => skipped (start.moveTo origin) blanks
  | rejected start c => rejected (start.moveTo origin) c

variable (segment : Segment) (origin : Place)

theorem text_moveTo : (segment.moveTo origin).text = segment.text := by
  cases segment <;> rfl

theorem reports_moveTo :
    (segment.moveTo origin).reports = segment.reports.map (·.moveTo origin) := by
  cases segment <;> rfl

theorem token?_moveTo (file : String) :
    (segment.moveTo origin).token? file = (segment.token? file).map (·.moveTo origin) := by
  cases segment <;> rfl

theorem solid?_moveTo : (segment.moveTo origin).solid? =
    segment.solid?.map fun (t, line) => (t.moveBy origin.offset, line + (origin.line - 1)) := by
  cases segment with
  | lexeme start l =>
    simp only [moveTo, solid?, Lexeme.moveTo, Token.isWhitespace_moveBy]
    split <;> rfl
  | skipped start blanks => rfl
  | rejected start c => rfl

end Segment

namespace Scan

variable {origin : Place} {s t : Scan} {segment : Segment} {xs : List Segment}

/-- The second scan has the text of the first ahead of it, put at the origin, and no word can tell
the tokens behind them apart. -/
structure MovesTo (origin : Place) (s t : Scan) : Prop where
  rest_eq : t.rest = s.rest
  place_eq : t.place = s.place.moveTo origin
  line_pos : 0 < s.place.line
  follows : ∀ line, t.followsHash (line + (origin.line - 1)) = s.followsHash line

theorem MovesTo.firstMatch_eq (h : MovesTo origin s t) (forms : List Form) :
    t.firstMatch forms = (s.firstMatch forms).map (·.moveTo origin) := by
  rw [firstMatch, firstMatch, List.map_findSome?]
  congr 1
  funext form
  simp only [Function.comp_apply, recognize, h.rest_eq, h.place_eq]
  exact form.recognize_moveTo h.line_pos (h.follows _) s.rest

/-- What one scan takes the other takes, moved. -/
theorem Takes.moveTo (takes : Takes s segment) (h : MovesTo origin s t) :
    Takes t (segment.moveTo origin) := by
  have noBlankOr := h.firstMatch_eq tiers.seeBlanks
  have lexemeOr := h.firstMatch_eq (tiers.candidates s.rest.head?)
  rw [← h.rest_eq] at lexemeOr
  cases takes with
  | blank found =>
    rw [found] at noBlankOr
    rw [Segment.moveTo, ← h.place_eq]
    exact .blank noBlankOr
  | lexeme noBlank found =>
    rw [noBlank] at noBlankOr
    rw [h.rest_eq, found, ← h.rest_eq] at lexemeOr
    rw [Segment.moveTo, ← h.place_eq]
    exact .lexeme noBlankOr lexemeOr
  | rejected noBlank noLexeme next =>
    rw [noBlank] at noBlankOr
    rw [h.rest_eq, noLexeme, ← h.rest_eq] at lexemeOr
    rw [Segment.moveTo, ← h.place_eq]
    exact .rejected noBlankOr lexemeOr (h.rest_eq.trans next)

theorem MovesTo.record (h : MovesTo origin s t) (takes : Takes s segment) :
    MovesTo origin (s.record segment) (t.record (segment.moveTo origin)) where
  rest_eq := by rw [record_rest, record_rest, segment.text_moveTo, h.rest_eq]
  place_eq := by
    rw [takes.place_record, (takes.moveTo h).place_record, segment.text_moveTo, h.place_eq]
    exact (Place.after_moveTo origin h.line_pos segment.text).symm
  line_pos := by
    rw [takes.place_record]
    exact Place.line_pos_after h.line_pos segment.text
  follows := by
    intro line
    rw [followsHash_record, followsHash_record, segment.solid?_moveTo]
    cases segment.solid? with
    | none => exact h.follows line
    | some found =>
      have same :
          (found.2 + (origin.line - 1) == line + (origin.line - 1)) = (found.2 == line) := by
        rw [Bool.eq_iff_iff, beq_iff_eq, beq_iff_eq]
        omega
      simp only [Option.map_some, same, Token.isOperator_moveBy]

theorem Path.moveTo (path : Path s xs) (h : MovesTo origin s t) :
    Path t (xs.map (·.moveTo origin)) ∧
      MovesTo origin (s.recordAll xs) (t.recordAll (xs.map (·.moveTo origin))) := by
  induction path generalizing t with
  | nil => exact ⟨.nil, h⟩
  | cons takes later ih =>
    obtain ⟨path, moves⟩ := ih (h.record takes)
    exact ⟨.cons (takes.moveTo h) path, moves⟩

theorem tokensOf_moveTo (file : String) (origin : Place) (xs : List Segment) :
    tokensOf file (xs.map (·.moveTo origin)) = (tokensOf file xs).map (·.moveTo origin) := by
  rw [tokensOf, tokensOf, List.map_filterMap, List.filterMap_map]
  congr 1
  funext segment
  exact segment.token?_moveTo origin file

theorem reports_moveTo (origin : Place) (xs : List Segment) :
    (xs.map (·.moveTo origin)).flatMap Segment.reports =
      (xs.flatMap Segment.reports).map (·.moveTo origin) := by
  rw [List.flatMap_map, List.map_flatMap]
  congr 1
  funext segment
  exact segment.reports_moveTo origin

/-- The text that goes on after a path, and what a scan of it by itself takes. -/
theorem Path.exists_back {source : List Char} {before after : List Segment}
    (front : Path { rest := source } before)
    (back : Path (({ rest := source } : Scan).recordAll before) after)
    (atEnd : ((({ rest := source } : Scan).recordAll before).recordAll after).rest = [])
    (noHash : ∀ line, (({ rest := source } : Scan).recordAll before).followsHash line = false) :
    ∃ ys, Path { rest := after.flatMap Segment.text } ys ∧
      (({ rest := after.flatMap Segment.text } : Scan).recordAll ys).rest = [] ∧
      after = ys.map (·.moveTo (({} : Place).after (before.flatMap Segment.text))) := by
  obtain ⟨ys, path, isEnd⟩ := exists_path { rest := after.flatMap Segment.text }
  have moves : MovesTo (({} : Place).after (before.flatMap Segment.text))
      { rest := after.flatMap Segment.text } (({ rest := source } : Scan).recordAll before) := by
    refine ⟨?rest, ?place, Nat.one_pos, ?follows⟩
    case rest =>
      have whole := back.rest_eq
      rw [atEnd, List.append_nil] at whole
      exact whole
    case place =>
      rw [front.place_eq, Place.after_eq]
      refine (Place.start_moveTo ?_ ?_).symm
      · exact Nat.le_add_right 1 _
      · exact Nat.le_add_right 1 _
    case follows =>
      intro line
      exact noHash _
  obtain ⟨path', moved⟩ := path.moveTo moves
  have isEnd' := moved.rest_eq.trans isEnd
  have same := (back.isPrefix path' isEnd').sublist.antisymm (path'.isPrefix back atEnd).sublist
  exact ⟨ys, path, isEnd, same⟩

end Scan

/-! ## Tokenizing -/

theorem DiagnosticKind.severity_of_isLexical {kind : DiagnosticKind} (h : kind.isLexical = true) :
    kind.severity = .error := by
  cases kind <;> first | rfl | cases h

/-- What scanning reports is kept in two parts as it is kept in one. -/
theorem Diagnostics.reportAll_append_moveTo (origin : Place) {rs rs' : List Report}
    (lexical : ∀ r ∈ rs, r.kind.isLexical = true) (lexical' : ∀ r ∈ rs', r.kind.isLexical = true) :
    ({} : Diagnostics).reportAll (rs ++ rs'.map (·.moveTo origin)) =
      (({} : Diagnostics).reportAll rs).extend
        ((({} : Diagnostics).reportAll rs').moveTo origin) := by
  have errors : ∀ r ∈ rs, r.kind.severity = .error :=
    fun r isReport => DiagnosticKind.severity_of_isLexical (lexical r isReport)
  have errors' : ∀ r ∈ rs', r.kind.severity = .error :=
    fun r isReport => DiagnosticKind.severity_of_isLexical (lexical' r isReport)
  have moved : ∀ r ∈ rs'.map (·.moveTo origin), r.kind.severity = .error := by
    intro r isMoved
    obtain ⟨r, isReport, rfl⟩ := List.mem_map.mp isMoved
    exact errors' r isReport
  rw [reportAll_of_isError _ (List.forall_mem_append.mpr ⟨errors, moved⟩),
    reportAll_of_isError _ errors, reportAll_of_isError _ errors']
  have asErrors : (rs'.map (·.moveTo origin)).map Report.asError =
      (rs'.map Report.asError).map (·.moveTo origin) := by
    rw [List.map_map, List.map_map]
    rfl
  simp only [extend, moveTo, List.map_append, asErrors, List.append_toArray, List.map_toArray,
    List.nil_append]

/-- **A text that is cut between two tokens is tokenized in two parts.** Where the scan of a text
has just completed a token or passed over a character, and the last token before, blanks aside, is
no `#`, the tokens and diagnostics of the text are those of the text before the cut, and then those
of the text behind it, moved to where the first one ends. -/
theorem tokenize_append (file : String) {raw front back : String} {whole : Scan}
    {before after : List Segment} (source : normalize raw.toList = front.toList ++ back.toList)
    (run : ({ rest := normalize raw.toList } : Scan).run (.build defaultCatalog) = (whole, none))
    (cut : whole.segments.reverse = before ++ after)
    (isFront : before.flatMap Segment.text = front.toList)
    (noHash : ∀ t ∈ (before.filterMap (·.token? file)).reverse.find? (!·.token.isWhitespace),
      t.token.isOperator .hash = false) :
    ∃ tokens scanned tokens' scanned', tokenize front file = .ok (tokens, scanned) ∧
      tokenize back file = .ok (tokens', scanned') ∧
      let origin := ({} : Place).after front.toList
      tokenize raw file = .ok (tokens ++ tokens'.map (·.moveTo origin),
        scanned.extend (scanned'.moveTo origin)) := by
  obtain ⟨xs, path, atEnd⟩ := Scan.exists_path { rest := normalize raw.toList }
  obtain rfl := (Prod.mk.inj ((path.run_eq atEnd).symm.trans run)).1
  rw [Scan.segments_recordAll, List.append_nil, List.reverse_reverse] at cut
  subst cut
  obtain ⟨frontPath, backPath⟩ := path.of_append
  have isBack : after.flatMap Segment.text = back.toList := by
    have text_eq := path.rest_eq
    rw [atEnd, List.append_nil, List.flatMap_append, isFront] at text_eq
    exact List.append_cancel_left (text_eq.symm.trans source)
  have tokenized := path.tokenize_eq atEnd rfl file
  rw [Scan.recordAll_append] at atEnd
  have noHash' : ∀ line,
      (({ rest := normalize raw.toList } : Scan).recordAll before).followsHash line = false := by
    intro line
    rw [Scan.followsHash_eq _ file, Scan.tokens_recordAll, endWithHash, Scan.tokensOf]
    cases last : (before.filterMap (·.token? file)).reverse.find? (!·.token.isWhitespace) with
    | none => rfl
    | some t => simp only [Option.any_some, noHash t last, Bool.and_false]
  have parts : front.toList.Sublist (normalize raw.toList) ∧
      back.toList.Sublist (normalize raw.toList) := by
    rw [source]
    exact ⟨List.sublist_append_left _ _, List.sublist_append_right _ _⟩
  -- In the text that ends at the cut, the path up to the cut leads to the end.
  obtain ⟨frontOnly, reaches⟩ := frontPath.of_isPrefix
  have frontEnd : (({ rest := before.flatMap Segment.text } : Scan).recordAll before).rest = [] :=
    congrArg Scan.rest reaches
  have frontIs : normalize front.toList = before.flatMap Segment.text :=
    (normalize_of_sublist parts.1).trans isFront.symm
  obtain ⟨ys, backOnly, backEnd, moved⟩ := frontPath.exists_back backPath atEnd noHash'
  have backIs : normalize back.toList = after.flatMap Segment.text :=
    (normalize_of_sublist parts.2).trans isBack.symm
  refine ⟨_, _, _, _, frontOnly.tokenize_eq frontEnd frontIs file,
    backOnly.tokenize_eq backEnd backIs file, ?_⟩
  rw [tokenized, List.flatMap_append, Scan.tokensOf_append, moved, Scan.tokensOf_moveTo,
    Scan.reports_moveTo, isFront, Diagnostics.reportAll_append_moveTo _ frontOnly.reports_isLexical
      backOnly.reports_isLexical]

/-- The scan of three lines, the second of which is a string without its quote. -/
def unterminatedScan : Scan :=
  ({ rest := "a\n\"b\n c".toList } : Scan).guided [.word, .whitespace, .string, .whitespace, .word]

theorem unterminatedScan_segments : unterminatedScan.segments.reverse =
    [.lexeme ⟨0, 1, 1⟩ ⟨.identifier ⟨0, "a"⟩, ['a'], []⟩,
      .lexeme ⟨1, 1, 2⟩ ⟨.whitespace, ['\n'], []⟩,
      .lexeme ⟨2, 2, 1⟩ ⟨.string "b", ['"', 'b'], [⟨.newlineInConstant, 2, 3, 1⟩]⟩] ++
    [.lexeme ⟨4, 2, 3⟩ ⟨.whitespace, ['\n', ' '], []⟩,
      .lexeme ⟨6, 3, 2⟩ ⟨.identifier ⟨6, "c"⟩, ['c'], []⟩] := by cbv

/-- The cut is behind the string, whose end is reported in the text that ends there as well. -/
theorem tokenize_append_unterminated :
    normalize "a\r\n\"b\r\n c".toList = "a\n\"b".toList ++ "\n c".toList ∧
      ({ rest := normalize "a\r\n\"b\r\n c".toList } : Scan).run (.build defaultCatalog) =
        (unterminatedScan, none) ∧
      ∃ tokens scanned tokens' scanned', tokenize "a\n\"b" "main.cs" = .ok (tokens, scanned) ∧
        tokenize "\n c" "main.cs" = .ok (tokens', scanned') ∧
        tokenize "a\r\n\"b\r\n c" "main.cs" = .ok (tokens ++ tokens'.map (·.moveTo ⟨4, 2, 3⟩),
          scanned.extend (scanned'.moveTo ⟨4, 2, 3⟩)) := by
  have source : normalize "a\r\n\"b\r\n c".toList = "a\n\"b".toList ++ "\n c".toList := rfl
  have run : ({ rest := normalize "a\r\n\"b\r\n c".toList } : Scan).run (.build defaultCatalog) =
      (unterminatedScan, none) :=
    Scan.run_eq_guided (by decide) (by cbv)
  exact ⟨source, run,
    tokenize_append "main.cs" source run unterminatedScan_segments rfl (by decide)⟩

end SharpFront
