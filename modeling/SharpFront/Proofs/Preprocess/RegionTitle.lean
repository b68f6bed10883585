import SharpFront.Proofs.Output
import SharpFront.Proofs.Preprocess.Content
import SharpFront.Proofs.Scan.RegionTitle

/-!
# The titles of regions

What follows the word on a `#region` or `#endregion` line is for the reader alone: preprocessing
does nothing with it.

* `SourceItem.ofTokens_line`: a directive line among the items of a text;
* `DifferInTitle`: two texts that differ on the line of a region only;
* `DifferInTitle.runUnit_eq_or`: they end in the same state, but for an `#if` without an end;
* `preprocess_regionTitle`: the output with and without a title;
* `not_ignoresTitle`: what shows of a title.
-/

namespace SharpFront

/-! ## Tokens and reports of a path -/

namespace Scan

variable {xs : List Segment}

theorem tokensOf_content (file : String) (xs : List Segment) :
    (tokensOf file xs).map PositionedToken.content = tokensOf file (xs.map Segment.content) := by
  rw [tokensOf, tokensOf, List.map_filterMap, List.filterMap_map]
  congr 1
  funext segment
  exact (segment.token?_content file).symm

theorem reports_content (xs : List Segment) :
    (xs.map Segment.content).flatMap Segment.reports = xs.flatMap Segment.reports := by
  rw [List.flatMap_map]
  congr 1
  funext segment
  exact segment.reports_content

/-- A token of the segments, and the segment it is from. -/
theorem exists_of_mem_tokensOf {file : String} {t : PositionedToken} (h : t ∈ tokensOf file xs) :
    ∃ segment ∈ xs, segment.start.line = t.line ∧ ∃ start l, segment = .lexeme start l ∧
      l.token = t.token := by
  obtain ⟨segment, isSegment, isToken⟩ := List.mem_filterMap.mp h
  cases segment with
  | lexeme start l =>
    cases isToken
    exact ⟨_, isSegment, rfl, start, l, rfl, rfl⟩
  | skipped start blanks => cases isToken
  | rejected start c => cases isToken

end Scan

/-! ## Items -/

namespace PreprocessState

theorem steps_append (table : DirectiveTable) (s : PreprocessState) (a b : List SourceItem) :
    s.steps table (a ++ b) = (((s.steps table a).1.steps table b).1,
      (s.steps table a).2 ++ ((s.steps table a).1.steps table b).2) := by
  induction a generalizing s with
  | nil => rfl
  | cons item a ih => simp only [List.cons_append, steps, ih, List.append_assoc]

end PreprocessState

section

variable {front onLine rest : List PositionedToken} {hash : PositionedToken}

/-- A directive line among the tokens of a text. -/
theorem SourceItem.ofTokens_line (isHash : hash.token.isOperator .hash = true)
    (isFirst : hashOn front hash.line = false) (here : ∀ t ∈ onLine, t.line = hash.line)
    (later : ∀ t ∈ rest, hash.line < t.line) :
    ofTokens none (front ++ hash :: (onLine ++ rest)) =
      ofTokens none front ++
        directive hash (lastLine none front != some hash.line)
          (onLine.filter (·.token.isSignificant)) :: ofTokens (some hash.line) rest := by
  have atLine : ∀ t ∈ hash :: onLine, t.line = hash.line := List.forall_mem_cons.mpr ⟨rfl, here⟩
  have cut : ∀ t ∈ rest.head?, hashOn (hash :: onLine) t.line = false := by
    intro t isHead
    refine hashOn_eq_false_iff.mpr ?_
    intro u isToken _
    have := later t (List.mem_of_mem_head? isHead)
    have := atLine u isToken
    omega
  have first : ∀ t ∈ (hash :: (onLine ++ rest)).head?, hashOn front t.line = false :=
    fun t isHead => Option.some.inj isHead ▸ isFirst
  have split : hash :: (onLine ++ rest) = (hash :: onLine) ++ rest := rfl
  rw [ofTokens_append none front first, split, ofTokens_append _ _ cut,
    ofTokens_directive isHash _ here, lastLine_directive isHash _ here]
  rfl

/-- The line of a region, whatever stands behind the word. -/
theorem PreprocessState.step_region (s : PreprocessState) (leads : Bool) {word : PositionedToken}
    {w : Directive} (names : word.token.directive? = some w)
    (isRegion : w = .region ∨ w = .endregion) (operands : List PositionedToken) :
    s.step .default (.directive hash leads (word :: operands)) =
      (if leads then s else s.report (hash.report .notFirstCharacter), none) := by
  have handler : DirectiveTable.default w = some DirectiveLine.runRegion := by
    rcases isRegion with rfl | rfl <;> rfl
  simp only [step, DirectiveTable.dispatch, names, Option.bind_some, handler]
  rfl

end

namespace PreprocessState

/-- Tokens with the same contents lead to the same state and leave the same behind, by content. -/
theorem steps_of_content (s : PreprocessState) (last : Option Nat) {xs ys : List PositionedToken}
    (same : ys.map PositionedToken.content = xs.map PositionedToken.content) :
    (s.steps .default (SourceItem.ofTokens last ys)).1 =
        (s.steps .default (SourceItem.ofTokens last xs)).1 ∧
      (s.steps .default (SourceItem.ofTokens last ys)).2.map PositionedToken.content =
        (s.steps .default (SourceItem.ofTokens last xs)).2.map PositionedToken.content := by
  have both := congrArg (fun tokens => s.steps .default (SourceItem.ofTokens last tokens)) same
  simp only [SourceItem.ofTokens_content, steps_content] at both
  exact Prod.mk.inj both

end PreprocessState

/-- Two texts differ in nothing but the tokens after the word on the line of a region, and where the
spans of the tokens on later lines start. -/
inductive DifferInTitle (line : Nat) : List PositionedToken → List PositionedToken → Prop where
  | intro {front onLine onLine' rest rest' : List PositionedToken} {hash word : PositionedToken}
    {w : Directive} {operands operands' : List PositionedToken}
    (isHash : hash.token.isOperator .hash = true) (hash_line : hash.line = line)
    (isFirst : hashOn front line = false)
    (names : word.token.directive? = some w) (isRegion : w = .region ∨ w = .endregion)
    (here : ∀ t ∈ onLine, t.line = line) (here' : ∀ t ∈ onLine', t.line = line)
    (later : ∀ t ∈ rest, line < t.line) (later' : ∀ t ∈ rest', line < t.line)
    (isBody : onLine.filter (·.token.isSignificant) = word :: operands)
    (isBody' : onLine'.filter (·.token.isSignificant) = word :: operands')
    (same : rest'.map PositionedToken.content = rest.map PositionedToken.content) :
    DifferInTitle line (front ++ hash :: (onLine ++ rest)) (front ++ hash :: (onLine' ++ rest'))

namespace DifferInTitle

variable {line : Nat} {tokens tokens' : List PositionedToken} {a b : PositionedToken}

theorem steps_eq (h : DifferInTitle line tokens tokens') (s : PreprocessState) :
    (s.steps .default (SourceItem.ofTokens none tokens')).1 =
        (s.steps .default (SourceItem.ofTokens none tokens)).1 ∧
      (s.steps .default (SourceItem.ofTokens none tokens')).2.map PositionedToken.content =
        (s.steps .default (SourceItem.ofTokens none tokens)).2.map PositionedToken.content := by
  cases h with
  | intro isHash hash_line isFirst names isRegion here here' later later' isBody isBody' same =>
    subst hash_line
    simp only [SourceItem.ofTokens_line isHash isFirst here later,
      SourceItem.ofTokens_line isHash isFirst here' later', isBody, isBody',
      PreprocessState.steps_append, PreprocessState.steps,
      PreprocessState.step_region _ _ names isRegion, List.map_append, List.append_cancel_left_eq]
    exact PreprocessState.steps_of_content _ _ same

theorem getLast?_append_of_eq_some {xs ys : List PositionedToken} (h : ys.getLast? = some a) :
    (xs ++ ys).getLast? = some a := by
  rw [List.getLast?_append, h, Option.some_or]

/-- The last tokens of the two texts are the same by content, or both stand on the line. -/
theorem exists_last (h : DifferInTitle line tokens tokens') :
    ∃ a b, tokens.getLast? = some a ∧ tokens'.getLast? = some b ∧
      (b.content = a.content ∨ a.line = line ∧ b.line = line) := by
  cases h with
  | @intro front onLine onLine' rest rest' hash word w operands operands' isHash hash_line isFirst
      names isRegion here here' later later' isBody isBody' same =>
    cases isRest : rest.getLast? with
    | none =>
      rw [List.getLast?_eq_none_iff] at isRest
      subst isRest
      obtain rfl : rest' = [] := List.map_eq_nil_iff.mp same
      have onLast : ∀ {others : List PositionedToken}, (∀ t ∈ others, t.line = line) →
          ∃ a, (front ++ hash :: (others ++ [])).getLast? = some a ∧ a.line = line := by
        intro others others_line
        rw [List.append_nil]
        have isLast := List.getLast?_eq_some_getLast (List.cons_ne_nil hash others)
        have onLine : ∀ t ∈ hash :: others, t.line = line :=
          List.forall_mem_cons.mpr ⟨hash_line, others_line⟩
        exact ⟨_, getLast?_append_of_eq_some isLast, onLine _ (List.getLast_mem _)⟩
      obtain ⟨a, isLast, line_eq⟩ := onLast here
      obtain ⟨b, isLast', line_eq'⟩ := onLast here'
      exact ⟨a, b, isLast, isLast', .inr ⟨line_eq, line_eq'⟩⟩
    | some a =>
      have last := congrArg List.getLast? same
      rw [List.getLast?_map, List.getLast?_map, isRest] at last
      obtain ⟨b, isRest', content_eq⟩ := Option.map_eq_some_iff.mp last
      rw [← List.cons_append, ← List.cons_append]
      exact ⟨a, b, getLast?_append_of_eq_some (getLast?_append_of_eq_some isRest),
        getLast?_append_of_eq_some (getLast?_append_of_eq_some isRest'), .inl content_eq⟩

/-- A unit ends in the same state, but for an open condition that is reported at the last token. -/
theorem runUnit_eq_or (h : DifferInTitle line tokens tokens') (s : PreprocessState) :
    (s.runUnit .default tokens').2.map PositionedToken.content =
        (s.runUnit .default tokens).2.map PositionedToken.content ∧
      ((s.runUnit .default tokens').1 = (s.runUnit .default tokens).1 ∨
        ∃ (t : PreprocessState) (a b : PositionedToken), tokens.getLast? = some a ∧
          tokens'.getLast? = some b ∧ a.line = line ∧ b.line = line ∧
          (s.runUnit .default tokens).1 = t.report (a.report .endifExpected) ∧
          (s.runUnit .default tokens').1 = t.report (b.report .endifExpected)) := by
  obtain ⟨state, output⟩ := h.steps_eq s
  refine ⟨output, ?_⟩
  obtain ⟨a, b, isLast, isLast', alike⟩ := h.exists_last
  simp only [PreprocessState.runUnit, PreprocessState.finish, state, isLast, isLast']
  split
  · exact .inl rfl
  · rcases alike with same | ⟨line_eq, line_eq'⟩
    · left
      have report := congrArg (·.report .endifExpected) same
      simp only [PositionedToken.report_content] at report
      simp only [PreprocessState.reportAny, report]
    · exact .inr ⟨_, a, b, rfl, rfl, line_eq, line_eq', rfl, rfl⟩

end DifferInTitle

/-- An error is kept at the end of what has been reported. -/
theorem PreprocessState.report_endif_toList (s : PreprocessState) (t : PositionedToken) :
    (s.report (t.report .endifExpected)).diagnostics.toList =
      s.diagnostics.toList ++ [(t.report .endifExpected).asError] := by
  have isError : (t.report .endifExpected).kind.severity = .error := rfl
  rw [report, Diagnostics.report_toList, WarningPolicy.resolve?_of_isError _ isError]
  rfl

/-! ## The output -/

/-- The token starts before the offset and ends after it. -/
def PositionedToken.IsOver (t : PositionedToken) (source : List Char) (offset : Nat) : Prop :=
  ∃ k < offset, offset < k + t.length ∧ t.line = lineAfter (source.take k) ∧
    t.column = columnAfter (source.take k)

theorem PositionedToken.IsOver.pos {t : PositionedToken} {source : List Char} {offset : Nat}
    (h : t.IsOver source offset) : 0 < offset := by
  obtain ⟨k, starts, -⟩ := h
  exact Nat.zero_lt_of_lt starts

instance (t : PositionedToken) (source : List Char) (offset : Nat) :
    Decidable (t.IsOver source offset) :=
  inferInstanceAs (Decidable (∃ k < offset, offset < k + t.length ∧
    t.line = lineAfter (source.take k) ∧ t.column = columnAfter (source.take k)))

theorem Scan.Spans.exists_isOver {text : List Char} {xs : List Segment} {n : Nat}
    (h : Spans xs n) (path : Path { rest := text } xs) (file : String) :
    ∃ t ∈ tokensOf file xs, t.token.isWhitespace = false ∧ t.IsOver text n := by
  obtain ⟨before, start, l, after, rfl, notBlank, starts, ends⟩ := h
  refine ⟨_, List.mem_filterMap.mpr ⟨_, List.mem_append_cons_self, rfl⟩, notBlank,
    (before.flatMap Segment.text).length, starts, ends, ?_⟩
  have isText : text.take (before.flatMap Segment.text).length = before.flatMap Segment.text := by
    have whole := path.of_append.1.rest_eq
    rw [show text = _ from whole, List.take_left]
  have place := path.takes.start_eq
  rw [path.of_append.1.place_eq, Place.after_eq] at place
  rw [isText]
  exact ⟨congrArg Place.line place, congrArg Place.column place⟩

namespace RegionLine

variable {l : RegionLine}

theorem exists_openingTokens (file : String) :
    ∃ hash gap word, Scan.tokensOf file l.opening = hash :: (gap ++ [word]) ∧
      hash.token.isOperator .hash = true ∧ hash.line = l.line ∧
      (∀ t ∈ gap, t.token.isSignificant = false ∧ t.line = l.line) ∧
      word.token = .directive l.word ∧ word.line = l.line := by
  have here : l.place.line = l.line := by
    rw [place, Place.after_eq]
    exact line_head
  have onLine : ∀ {cs : List Char}, '\n' ∉ cs → (l.place.after cs).line = l.line := by
    intro cs noFeed
    rw [Place.line_after_of_notMem _ noFeed, here]
  have afterHash : (l.place.after ['#']).line = l.line := onLine (by decide)
  have afterGap : (l.place.after ('#' :: l.gap)).line = l.line :=
    onLine (List.not_mem_cons_of_ne_of_not_mem (by decide) (notMem_of_isInlineBlank l.gap_isBlank))
  by_cases noGap : l.gap.isEmpty = true
  · simp only [opening, if_pos noGap]
    exact ⟨_, [], _, rfl, rfl, here, List.forall_mem_nil _, rfl, afterGap⟩
  · simp only [opening, if_neg noGap]
    exact ⟨_, [_], _, rfl, rfl, here, List.forall_mem_singleton.mpr ⟨rfl, afterHash⟩, rfl, afterGap⟩

theorem reports_opening : l.opening.flatMap Segment.reports = [] := by
  unfold opening
  cases l.gap <;> rfl

/-- The word comes first among the significant tokens after the `#`. -/
theorem filter_onLine {gap : List PositionedToken} {word : PositionedToken} {w : Directive}
    (gapIs : ∀ t ∈ gap, t.token.isSignificant = false ∧ t.line = l.line)
    (isWord : word.token = .directive w) (title : List PositionedToken) :
    (gap ++ word :: title).filter (·.token.isSignificant) =
      word :: title.filter (·.token.isSignificant) := by
  have noGap : gap.filter (·.token.isSignificant) = [] :=
    List.filter_eq_nil_iff.mpr fun t isGap => Bool.eq_false_iff.mp (gapIs t isGap).1
  have significant : word.token.isSignificant = true := by
    rw [isWord]
    rfl
  rw [List.filter_append, noGap, List.nil_append]
  exact List.filter_cons_of_pos significant

namespace LineScan

variable {front title rest : List Segment}

/-- No directive line begins on the line before the `#`. -/
theorem hashOn_front (h : l.LineScan front title rest) (file : String) :
    hashOn (Scan.tokensOf file front) l.line = false := by
  refine hashOn_eq_false_iff.mpr ?_
  intro t isToken isHash onLine
  obtain ⟨segment, isSegment, line, start, m, rfl, token⟩ := Scan.exists_of_mem_tokensOf isToken
  obtain ⟨start', m', same, isBlank⟩ := isWhitespace_of_front h.path.of_append.1 h.front_text _
    isSegment (line.trans onLine)
  cases same
  rw [token, eq_of_beq isHash] at isBlank
  cases isBlank

theorem title_line (h : l.LineScan front title rest) (file : String) :
    ∀ t ∈ Scan.tokensOf file title, t.line = l.line := by
  intro t isToken
  obtain ⟨segment, isSegment, line, -⟩ := Scan.exists_of_mem_tokensOf isToken
  rw [← line, h.title_starts segment isSegment]

theorem rest_line (h : l.LineScan front title rest) (file : String) :
    ∀ t ∈ Scan.tokensOf file rest, l.line < t.line := by
  intro t isToken
  obtain ⟨segment, isSegment, line, -⟩ := Scan.exists_of_mem_tokensOf isToken
  rw [← line]
  exact h.rest_starts segment isSegment

end LineScan

/-- On the line only the title is reported. -/
theorem LineScan.reports_filter {front title rest : List Segment}
    (h : l.LineScan front title rest) :
    (front ++ (l.opening ++ (title ++ rest))).flatMap Segment.reports =
        front.flatMap Segment.reports ++ (title.flatMap Segment.reports ++
          rest.flatMap Segment.reports) ∧
      ((front ++ (l.opening ++ (title ++ rest))).flatMap Segment.reports).filter
          (·.line != l.line) =
        front.flatMap Segment.reports ++ rest.flatMap Segment.reports := by
  have whole : (front ++ (l.opening ++ (title ++ rest))).flatMap Segment.reports =
      front.flatMap Segment.reports ++ (title.flatMap Segment.reports ++
        rest.flatMap Segment.reports) := by
    rw [List.flatMap_append, List.flatMap_append, List.flatMap_append, reports_opening,
      List.nil_append]
  have before : (front.flatMap Segment.reports).filter (·.line != l.line) =
      front.flatMap Segment.reports := by
    refine List.filter_eq_self.mpr ?_
    intro r isReport
    obtain ⟨segment, isSegment, isReport⟩ := List.mem_flatMap.mp isReport
    exact bne_iff_ne.mpr
      (line_ne_of_front h.path.of_append.1 h.front_text segment isSegment r isReport)
  have here : (title.flatMap Segment.reports).filter (·.line != l.line) = [] := by
    refine List.filter_eq_nil_iff.mpr ?_
    intro r isReport
    obtain ⟨segment, isSegment, isReport⟩ := List.mem_flatMap.mp isReport
    simp [h.title_reports segment isSegment r isReport]
  have after : (rest.flatMap Segment.reports).filter (·.line != l.line) =
      rest.flatMap Segment.reports := by
    refine List.filter_eq_self.mpr ?_
    intro r isReport
    obtain ⟨segment, isSegment, isReport⟩ := List.mem_flatMap.mp isReport
    have line := h.path.line_le_of_mem_reports segment (by simp [isSegment]) r isReport
    have := h.rest_starts segment isSegment
    exact bne_iff_ne.mpr (by omega)
  refine ⟨whole, ?_⟩
  rw [whole, List.filter_append, List.filter_append, before, here, after, List.nil_append]

/-- The segments of the text with and without the title. -/
theorem exists_differInTitle {xs : List Segment} (path : Scan.Path { rest := l.text } xs)
    (atEnd : (({ rest := l.text } : Scan).recordAll xs).rest = [])
    (apartStart : ¬Scan.Spans xs l.start) (apartStop : ¬Scan.Spans xs l.stop) (file : String) :
    ∃ ys, Scan.Path { rest := l.untitled.text } ys ∧
      (({ rest := l.untitled.text } : Scan).recordAll ys).rest = [] ∧
      ys.flatMap Segment.reports =
        (xs.flatMap Segment.reports).filter (·.line != l.line) ∧
      DifferInTitle l.line (Scan.tokensOf file xs) (Scan.tokensOf file ys) := by
  obtain ⟨front, title, rest, start, blanks, rest', rfl, scan, scan', same⟩ :=
    exists_lineScans path atEnd apartStart apartStop
  refine ⟨_, scan'.path, scan'.atEnd, ?reports, ?tokens⟩
  case reports =>
    have others : rest'.flatMap Segment.reports = rest.flatMap Segment.reports := by
      rw [← Scan.reports_content, same, Scan.reports_content]
    rw [scan.reports_filter.2, scan'.reports_filter.1, others]
    rfl
  case tokens =>
    obtain ⟨hash, gap, word, opening, isHash, hash_line, gapIs, isWord, word_line⟩ :=
      exists_openingTokens (l := l) file
    have opening' : Scan.tokensOf file l.untitled.opening = hash :: (gap ++ [word]) := opening
    have onLine : ∀ {title : List PositionedToken}, (∀ t ∈ title, t.line = l.line) →
        ∀ t ∈ gap ++ word :: title, t.line = l.line := fun title_line =>
      List.forall_mem_append.mpr
        ⟨fun t isGap => (gapIs t isGap).2, List.forall_mem_cons.mpr ⟨word_line, title_line⟩⟩
    have divide : ∀ title rest : List PositionedToken,
        hash :: (gap ++ [word]) ++ (title ++ rest) = hash :: ((gap ++ word :: title) ++ rest) := by
      simp
    have names : word.token.directive? = some l.word := by
      rw [isWord]
      rfl
    simp only [Scan.tokensOf_append, opening, opening', divide]
    refine .intro isHash hash_line (scan.hashOn_front file) names l.isRegion
      (onLine (scan.title_line file)) (onLine (scan'.title_line file)) (scan.rest_line file)
      (scan'.rest_line file) (filter_onLine gapIs isWord _) (filter_onLine gapIs isWord _) ?_
    rw [Scan.tokensOf_content, Scan.tokensOf_content, same]

end RegionLine

/-- Errors are kept in the sink as they are filtered among the reports. -/
theorem Diagnostics.reportAll_filter (rs : List Report) (line : Nat) :
    (({} : Diagnostics).reportAll (rs.filter (·.line != line))).toList =
      (({} : Diagnostics).reportAll rs).toList.filter (·.line != line) := by
  rw [reportAll_toList, reportAll_toList, List.filter_append, List.filterMap_filter,
    List.filter_filterMap]
  congr 2
  funext r
  simp only [WarningPolicy.resolve?]
  cases WarningPolicy.severity? {} r with
  | none => simp
  | some severity => by_cases here : r.line = line <;> simp [here, Option.filter]

/-- **The title of a region changes nothing.** From a line with `#region` or `#endregion` and a
title, the title is removed. If no token, blanks aside, went over the start or the end of the line,
the tokens that survive are the same by content, and so are the symbols and the policy. Of what
scanning reports only what it reported on the line is gone. What preprocessing reports is the same,
but where no token starts on a later line an `#if` that is left open is reported at the last token
of the line, wherever that is. -/
theorem preprocess_regionTitle (file raw raw' : String) (settings : Settings) (l : RegionLine)
    (titled : normalize raw.toList = l.text) (untitled : normalize raw'.toList = l.untitled.text)
    {tokens : List PositionedToken} {scanned : Diagnostics}
    (tokenized : tokenize raw file = .ok (tokens, scanned))
    (apart : ∀ t ∈ tokens, t.token.isWhitespace = false →
      ¬t.IsOver l.text l.start ∧ ¬t.IsOver l.text l.stop) :
    ∃ tokens' scanned' output output' found, tokenize raw' file = .ok (tokens', scanned') ∧
      scanned'.toList = scanned.toList.filter (·.line != l.line) ∧
      preprocess file raw settings = .ok output ∧ preprocess file raw' settings = .ok output' ∧
      output'.tokens.map PositionedToken.content = output.tokens.map PositionedToken.content ∧
      output'.symbols = output.symbols ∧ output'.policy = output.policy ∧
      output.diagnostics.toList = scanned.toList ++ found ∧
      (output'.diagnostics.toList = scanned'.toList ++ found ∨
        ∃ kept a b, tokens.getLast? = some a ∧ tokens'.getLast? = some b ∧ a.line = l.line ∧
          b.line = l.line ∧ found = kept ++ [(a.report .endifExpected).asError] ∧
          output'.diagnostics.toList =
            scanned'.toList ++ (kept ++ [(b.report .endifExpected).asError])) := by
  obtain ⟨xs, path, atEnd⟩ := Scan.exists_path { rest := l.text }
  have run := path.run_eq atEnd
  rw [← titled] at run
  have isScan := tokenize_eq file run
  rw [tokenized, titled, Scan.tokens_recordAll, Scan.reports_recordAll] at isScan
  obtain ⟨rfl, rfl⟩ := Prod.mk.inj (Except.ok.inj isScan)
  have apartFrom : ∀ {n : Nat}, (∀ t ∈ Scan.tokensOf file xs, t.token.isWhitespace = false →
      ¬t.IsOver l.text n) → ¬Scan.Spans xs n := by
    intro n notOver spans
    obtain ⟨t, isToken, notBlank, isOver⟩ := spans.exists_isOver path file
    exact notOver t isToken notBlank isOver
  obtain ⟨ys, path', atEnd', reports, differ⟩ := l.exists_differInTitle path atEnd
    (apartFrom fun t isToken notBlank => (apart t isToken notBlank).1)
    (apartFrom fun t isToken notBlank => (apart t isToken notBlank).2) file
  have run' := path'.run_eq atEnd'
  rw [← untitled] at run'
  have tokenized' := tokenize_eq file run'
  rw [untitled, Scan.tokens_recordAll, Scan.reports_recordAll, reports] at tokenized'
  have unit := differ.runUnit_eq_or (PreprocessState.ofSettings settings)
  refine ⟨_, _, _, _, ((PreprocessState.ofSettings settings).runUnit .default
    (Scan.tokensOf file xs)).1.diagnostics.toList, tokenized',
    Diagnostics.reportAll_filter _ _, preprocess_eq tokenized settings,
    preprocess_eq tokenized' settings, ?_⟩
  generalize (PreprocessState.ofSettings settings).runUnit .default (Scan.tokensOf file xs) = x
    at unit
  generalize (PreprocessState.ofSettings settings).runUnit .default (Scan.tokensOf file ys) = y
    at unit
  obtain ⟨s, survivors⟩ := x
  obtain ⟨s', survivors'⟩ := y
  rw [Output.diagnostics_ofUnit, Output.diagnostics_ofUnit]
  obtain ⟨same, rfl | ⟨t, a, b, isLast, isLast', line_eq, line_eq', rfl, rfl⟩⟩ := unit
  · exact ⟨same, rfl, rfl, rfl, .inl rfl⟩
  · refine ⟨same, rfl, ?_, rfl, .inr ⟨t.diagnostics.toList, a, b, isLast, isLast', line_eq,
      line_eq', ?_, ?_⟩⟩
    · exact (Diagnostics.report_policy _ _).trans (Diagnostics.report_policy _ _).symm
    · exact PreprocessState.report_endif_toList t a
    · rw [PreprocessState.report_endif_toList]

/-! ## Titles that show -/

/-- A `#region` line with a title after one space. -/
def RegionLine.ofTitle (before title after : List Char)
    (startsLine : ∀ c ∈ before.getLast?, c = '\n') (oneLine : '\n' ∉ title)
    (endsLine : EndsLine after) : RegionLine where
  before := before
  indent := []
  gap := []
  word := .region
  blank := ' '
  title := title
  after := after
  startsLine := startsLine
  indent_isBlank := List.forall_mem_nil _
  gap_isBlank := List.forall_mem_nil _
  isRegion := .inl rfl
  blank_isBlank := by decide +kernel
  oneLine := oneLine
  endsLine := endsLine

/-- `#region it's` between two other lines. -/
def apostropheRegion : RegionLine :=
  .ofTitle ['a', '\n'] ['i', 't', '\'', 's'] ['\n', 'b'] (by simp) (by decide)
    (by simp [EndsLine])

/-- The apostrophe begins a literal, which is reported; without the title it is not. -/
theorem preprocess_regionTitle_apostrophe :
    normalize "a\n#region it's\nb".toList = apostropheRegion.text ∧
      normalize "a\n#region \nb".toList = apostropheRegion.untitled.text ∧
      ∃ tokens scanned, tokenize "a\n#region it's\nb" "main.cs" = .ok (tokens, scanned) ∧
        (∀ t ∈ tokens, t.token.isWhitespace = false →
          ¬t.IsOver apostropheRegion.text apostropheRegion.start ∧
          ¬t.IsOver apostropheRegion.text apostropheRegion.stop) ∧
        scanned.toList = [⟨.newlineInConstant, .error, 2, 13, 1⟩] ∧
        ∃ output output', preprocess "main.cs" "a\n#region it's\nb" {} = .ok output ∧
          preprocess "main.cs" "a\n#region \nb" {} = .ok output' ∧
          output'.tokens.map PositionedToken.content =
            output.tokens.map PositionedToken.content := by
  have titled : normalize "a\n#region it's\nb".toList = apostropheRegion.text := rfl
  have untitled : normalize "a\n#region \nb".toList = apostropheRegion.untitled.text := rfl
  obtain ⟨tokenized, -⟩ := preprocess_guided "main.cs" "a\n#region it's\nb"
    [.word, .whitespace, .operator .hash, .word, .whitespace, .word, .char, .whitespace, .word]
    [⟨.identifier ⟨0, "a"⟩, "main.cs", 1, 1, 1, false⟩, ⟨.whitespace, "main.cs", 1, 2, 1, false⟩,
      ⟨.operator .hash, "main.cs", 2, 1, 1, false⟩, ⟨.directive .region, "main.cs", 2, 2, 6, false⟩,
      ⟨.whitespace, "main.cs", 2, 8, 1, false⟩, ⟨.identifier ⟨10, "it"⟩, "main.cs", 2, 9, 2, false⟩,
      ⟨.char "s", "main.cs", 2, 11, 2, false⟩, ⟨.whitespace, "main.cs", 2, 13, 1, false⟩,
      ⟨.identifier ⟨15, "b"⟩, "main.cs", 3, 1, 1, false⟩]
    (by decide) (by decide_cbv) (by cbv) (by cbv)
  obtain ⟨-, -, output, output', -, -, -, run, run', same, -⟩ :=
    preprocess_regionTitle "main.cs" "a\n#region it's\nb" "a\n#region \nb" {} apostropheRegion
      titled untitled tokenized (by decide +kernel)
  exact ⟨titled, untitled, _, _, tokenized, by decide +kernel, by decide, output, output', run,
    run', same⟩

/-- What should hold of every line of a region that no token goes into: its title changes
nothing. -/
def IgnoresTitle (file : String) (settings : Settings) (l : RegionLine) : Prop :=
  ∀ raw raw' tokens scanned output output', normalize raw.toList = l.text →
    normalize raw'.toList = l.untitled.text → tokenize raw file = .ok (tokens, scanned) →
    (∀ t ∈ tokens, t.token.isWhitespace = false → ¬t.IsOver l.text l.start) →
    preprocess file raw settings = .ok output → preprocess file raw' settings = .ok output' →
    output'.tokens.map PositionedToken.content = output.tokens.map PositionedToken.content ∧
      output'.symbols = output.symbols ∧ output'.policy = output.policy ∧
      output'.diagnostics.toList = output.diagnostics.toList

/-- `#region '`, where the scanner reports the apostrophe. -/
def quotedRegion : RegionLine :=
  .ofTitle [] ['\''] [] (by simp) (by decide) (by simp [EndsLine])

/-- `#region x` after an `#if` that is left open and reported at the last token. -/
def openRegion : RegionLine :=
  .ofTitle ['#', 'i', 'f', ' ', 'A', '\n'] ['x'] [] (by simp) (by decide) (by simp [EndsLine])

/-- `#region /*`, which begins a comment that takes up the next line. -/
def commentRegion : RegionLine :=
  .ofTitle [] ['/', '*'] ['\n', 'b'] (by simp) (by decide) (by simp [EndsLine])

theorem not_ignoresTitle_quoted : ¬IgnoresTitle "main.cs" {} quotedRegion := by
  intro ignores
  obtain ⟨tokenized, run⟩ := preprocess_guided "main.cs" "#region '"
    [.operator .hash, .word, .whitespace, .char, .whitespace] _ (by decide) (by decide_cbv) rfl rfl
  obtain ⟨-, run'⟩ := preprocess_guided "main.cs" "#region "
    [.operator .hash, .word, .whitespace] _ (by decide) (by decide_cbv) rfl rfl
  have same := (ignores "#region '" "#region " _ _ _ _ rfl rfl tokenized
    (fun _ _ _ isOver => isOver.pos.false) (run {}) (run' {})).2.2.2
  revert same
  decide_cbv

theorem not_ignoresTitle_open : ¬IgnoresTitle "main.cs" {} openRegion := by
  intro ignores
  obtain ⟨tokenized, run⟩ := preprocess_guided "main.cs" "#if A\n#region x"
    [.operator .hash, .word, .whitespace, .word, .whitespace, .operator .hash, .word, .whitespace,
      .word]
    [⟨.operator .hash, "main.cs", 1, 1, 1, false⟩,
      ⟨.directive .ifWord, "main.cs", 1, 2, 2, false⟩, ⟨.whitespace, "main.cs", 1, 4, 1, false⟩,
      ⟨.identifier ⟨4, "A"⟩, "main.cs", 1, 5, 1, false⟩, ⟨.whitespace, "main.cs", 1, 6, 1, false⟩,
      ⟨.operator .hash, "main.cs", 2, 1, 1, false⟩, ⟨.directive .region, "main.cs", 2, 2, 6, false⟩,
      ⟨.whitespace, "main.cs", 2, 8, 1, false⟩, ⟨.identifier ⟨14, "x"⟩, "main.cs", 2, 9, 1, false⟩]
    (by decide) (by decide_cbv) (by cbv) rfl
  obtain ⟨-, run'⟩ := preprocess_guided "main.cs" "#if A\n#region "
    [.operator .hash, .word, .whitespace, .word, .whitespace, .operator .hash, .word, .whitespace]
    _ (by decide) (by decide_cbv) rfl rfl
  have same := (ignores "#if A\n#region x" "#if A\n#region " _ _ _ _ rfl rfl tokenized
    (by decide +kernel) (run {}) (run' {})).2.2.2
  revert same
  decide_cbv

theorem not_ignoresTitle_comment : ¬IgnoresTitle "main.cs" {} commentRegion := by
  intro ignores
  obtain ⟨tokenized, run⟩ := preprocess_guided "main.cs" "#region /*\nb"
    [.operator .hash, .word, .whitespace, .blockComment] _ (by decide) (by decide_cbv) rfl rfl
  obtain ⟨-, run'⟩ := preprocess_guided "main.cs" "#region \nb"
    [.operator .hash, .word, .whitespace, .word] _ (by decide) (by decide_cbv) rfl rfl
  have same := (ignores "#region /*\nb" "#region \nb" _ _ _ _ rfl rfl tokenized
    (fun _ _ _ isOver => isOver.pos.false) (run {}) (run' {})).1
  revert same
  decide_cbv

/-- A title is scanned like any text: it may be reported, it may be where the end of the text is,
and it may begin a token that goes on after the line. -/
theorem not_ignoresTitle : ¬IgnoresTitle "main.cs" {} quotedRegion ∧
    ¬IgnoresTitle "main.cs" {} openRegion ∧ ¬IgnoresTitle "main.cs" {} commentRegion :=
  ⟨not_ignoresTitle_quoted, not_ignoresTitle_open, not_ignoresTitle_comment⟩

end SharpFront
