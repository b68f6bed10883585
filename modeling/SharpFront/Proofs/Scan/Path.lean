import SharpFront.Proofs.Scan.Lines
import SharpFront.Proofs.Scan.ReportOrder

/-!
# Paths of a scan

A path is what a scan takes, one segment after the other. The scan decides every step, so all paths
from one scan are the beginnings of the one that leads to the end.

* `Path.append`, `Path.of_append`: paths are put together and divided;
* `Path.rest_eq`, `Path.place_eq`: the text of a path and where it ends;
* `exists_path`, `Path.run_eq`: the path to the end is what a scan runs through;
* `Path.isPrefix`: there is no other;
* `exists_cut`: the segments of a text that is cut in two;
* `Path.tokenize_eq`: the tokens and reports of a text from its path;
* `Path.arePartsOf`, `Path.text_parts`, `tokens_parts`: the parts of a text from its path;
* `Path.line_of_mem`, `Path.line_of_mem_reports`: the lines on which segments start and are
  reported;
* `Path.position_le_of_mem_reports`: no report stands before the path that leads to it.
-/

namespace SharpFront.Scan

/-- The scan after it has recorded segments, in order. -/
def recordAll (s : Scan) (segments : List Segment) : Scan := segments.foldl record s

/-- The scan takes the segments one after the other. -/
inductive Path : Scan → List Segment → Prop where
  | nil {s : Scan} : Path s []
  | cons {s : Scan} {segment : Segment} {segments : List Segment} (takes : Takes s segment)
    (later : Path (s.record segment) segments) : Path s (segment :: segments)

variable {s t : Scan} {segment other : Segment} {xs ys : List Segment}

/-! ## Recording -/

theorem recordAll_cons (s : Scan) (segment : Segment) (xs : List Segment) :
    s.recordAll (segment :: xs) = (s.record segment).recordAll xs := rfl

theorem recordAll_append (s : Scan) (xs ys : List Segment) :
    s.recordAll (xs ++ ys) = (s.recordAll xs).recordAll ys := List.foldl_append

theorem segments_recordAll (s : Scan) (xs : List Segment) :
    (s.recordAll xs).segments = xs.reverse ++ s.segments := by
  induction xs generalizing s with
  | nil => rfl
  | cons segment xs ih =>
    rw [recordAll_cons, ih, List.reverse_cons, List.append_assoc]
    rfl

/-! ## One way only -/

/-- A scan takes one segment only. -/
theorem Takes.unique (h : Takes s segment) (h' : Takes s other) : segment = other := by
  cases h with
  | blank found =>
    cases h' with
    | blank found' =>
      rw [found] at found'
      cases found'
      rfl
    | lexeme noBlank | rejected noBlank =>
      rw [found] at noBlank
      cases noBlank
  | lexeme noBlank found =>
    cases h' with
    | blank found' =>
      rw [noBlank] at found'
      cases found'
    | lexeme _ found' =>
      rw [found] at found'
      cases found'
      rfl
    | rejected _ noLexeme =>
      rw [found] at noLexeme
      cases noLexeme
  | rejected noBlank noLexeme next =>
    cases h' with
    | blank found' =>
      rw [noBlank] at found'
      cases found'
    | lexeme _ found' =>
      rw [noLexeme] at found'
      cases found'
    | rejected _ _ next' =>
      rw [next] at next'
      cases next'
      rfl

namespace Path

theorem append (h : Path s xs) (h' : Path (s.recordAll xs) ys) : Path s (xs ++ ys) := by
  induction h with
  | nil => exact h'
  | cons takes later ih => exact .cons takes (ih h')

theorem of_append (h : Path s (xs ++ ys)) : Path s xs ∧ Path (s.recordAll xs) ys := by
  induction xs generalizing s with
  | nil => exact ⟨.nil, h⟩
  | cons segment xs ih =>
    cases h with
    | cons takes later =>
      obtain ⟨front, back⟩ := ih later
      exact ⟨.cons takes front, back⟩

theorem of_cons (h : Path s (segment :: xs)) : Takes s segment ∧ Path (s.record segment) xs := by
  cases h with
  | cons takes later => exact ⟨takes, later⟩

theorem takes (h : Path s (xs ++ segment :: ys)) : Takes (s.recordAll xs) segment :=
  h.of_append.2.of_cons.1

theorem single (takes : Takes s segment) : Path s [segment] := .cons takes .nil

theorem eq_nil (h : Path s xs) (atEnd : s.rest = []) : xs = [] := by
  cases h with
  | nil => rfl
  | cons takes later => exact absurd atEnd takes.rest_ne_nil

theorem rest_eq (h : Path s xs) :
    s.rest = xs.flatMap Segment.text ++ (s.recordAll xs).rest := by
  induction h with
  | nil => rfl
  | cons takes later ih =>
    rw [recordAll_cons, List.flatMap_cons, List.append_assoc, ← ih, record_rest]
    exact (List.prefix_iff_eq_append.mp takes.isPrefix).symm

theorem place_eq (h : Path s xs) :
    (s.recordAll xs).place = s.place.after (xs.flatMap Segment.text) := by
  induction h with
  | nil => rfl
  | cons takes later ih =>
    rw [recordAll_cons, ih, takes.place_record, List.flatMap_cons, Place.after_append]

/-- Every path is the beginning of the path to the end. -/
theorem isPrefix (h : Path s xs) (h' : Path s ys) (atEnd : (s.recordAll ys).rest = []) :
    xs <+: ys := by
  induction h generalizing ys with
  | nil => exact List.nil_prefix
  | cons takes later ih =>
    cases h' with
    | nil => exact absurd atEnd takes.rest_ne_nil
    | cons takes' later' =>
      obtain rfl := takes.unique takes'
      exact List.cons_prefix_cons.mpr ⟨rfl, ih later' atEnd⟩

/-- What a scan runs through. -/
theorem run_eq (h : Path s xs) (atEnd : (s.recordAll xs).rest = []) :
    s.run tiers = (s.recordAll xs, none) := by
  induction h with
  | @nil s =>
    have isEnd : s.rest = [] := atEnd
    rw [run, dif_pos isEnd]
    rfl
  | cons takes later ih =>
    rw [run_of_takes takes takes.rest_ne_nil, recordAll_cons]
    exact ih atEnd

theorem reached {source : List Char} (h : Path s xs) (isReached : Reached source s) :
    Reached source (s.recordAll xs) := by
  induction h with
  | nil => exact isReached
  | cons takes later ih => exact ih (isReached.record takes)

end Path

theorem exists_path (s : Scan) : ∃ xs, Path s xs ∧ (s.recordAll xs).rest = [] := by
  induction length : s.rest.length using Nat.strongRecOn generalizing s with
  | ind n ih =>
    by_cases isEnd : s.rest = []
    · exact ⟨[], .nil, isEnd⟩
    · obtain ⟨segment, takes⟩ := exists_takes isEnd
      have shorter := step_shorter isEnd takes.step_eq
      obtain ⟨xs, path, atEnd⟩ := ih _ (length ▸ shorter) _ rfl
      exact ⟨segment :: xs, .cons takes path, atEnd⟩

/-- Where a text is cut in two, so are its segments, or the cut goes through one of them. -/
theorem exists_cut {front back : List Char} (h : xs.flatMap Segment.text = front ++ back) :
    ∃ before after, xs = before ++ after ∧
      (before.flatMap Segment.text = front ∨
        ∃ segment more left right, after = segment :: more ∧ left ≠ [] ∧ right ≠ [] ∧
          front = before.flatMap Segment.text ++ left ∧ segment.text = left ++ right ∧
          back = right ++ more.flatMap Segment.text) := by
  induction xs generalizing front with
  | nil => exact ⟨[], [], rfl, .inl (List.append_eq_nil_iff.mp h.symm).1.symm⟩
  | cons segment xs ih =>
    by_cases isStart : front = []
    · exact ⟨[], segment :: xs, rfl, .inl isStart.symm⟩
    rw [List.flatMap_cons] at h
    rcases List.append_eq_append_iff.mp h with ⟨rest, rfl, isRest⟩ | ⟨right, isText, isBack⟩
    · obtain ⟨before, after, rfl, found⟩ := ih isRest
      refine ⟨segment :: before, after, rfl, ?_⟩
      rw [List.flatMap_cons]
      rcases found with rfl | ⟨inner, more, left, right, isFirst, leftSome, rightSome, rfl, found⟩
      · exact .inl rfl
      · exact .inr ⟨inner, more, left, right, isFirst, leftSome, rightSome,
          (List.append_assoc _ _ _).symm, found⟩
    · by_cases isEnd : right = []
      · refine ⟨[segment], xs, rfl, .inl ?_⟩
        rw [List.flatMap_singleton, isText, isEnd, List.append_nil]
      · exact ⟨[], segment :: xs, rfl,
          .inr ⟨segment, xs, front, right, rfl, isStart, isEnd, rfl, isText, isBack⟩⟩

/-! ## Tokens and reports of a path -/

def tokensOf (file : String) (xs : List Segment) : List PositionedToken :=
  xs.filterMap (·.token? file)

theorem tokens_recordAll {text : List Char} (file : String) (xs : List Segment) :
    (({ rest := text } : Scan).recordAll xs).tokens file = tokensOf file xs := by
  rw [tokens, segments_recordAll, List.append_nil, List.reverse_reverse, tokensOf]

theorem reports_recordAll {text : List Char} (xs : List Segment) :
    (({ rest := text } : Scan).recordAll xs).reports = xs.flatMap Segment.reports := by
  rw [reports, segments_recordAll, List.append_nil, List.reverse_reverse]

theorem tokensOf_append (file : String) (xs ys : List Segment) :
    tokensOf file (xs ++ ys) = tokensOf file xs ++ tokensOf file ys := List.filterMap_append

/-- The path to the end of a source text is what tokenizing makes of it. -/
theorem Path.tokenize_eq {source : List Char} {raw : String} (path : Path { rest := source } xs)
    (atEnd : (({ rest := source } : Scan).recordAll xs).rest = [])
    (isSource : normalize raw.toList = source) (file : String) :
    tokenize raw file =
      .ok (tokensOf file xs, ({} : Diagnostics).reportAll (xs.flatMap Segment.reports)) := by
  have run := path.run_eq atEnd
  rw [← isSource] at run
  rw [SharpFront.tokenize_eq file run, tokens_recordAll, reports_recordAll]

/-- The parts of a source text are what the segments of the path to its end become. -/
theorem Path.arePartsOf {source : List Char} (path : Path { rest := source } xs)
    (atEnd : (({ rest := source } : Scan).recordAll xs).rest = []) (file : String) :
    ArePartsOf source (tokensOf file xs) (({} : Diagnostics).reportAll (xs.flatMap Segment.reports))
      (xs.filterMap (·.part? file)) := by
  have reached := path.reached .start
  have whole := (reached.divides file).arePartsOf reached atEnd
  rwa [tokens_recordAll, reports_recordAll, parts, segments_recordAll, List.append_nil,
    List.reverse_reverse] at whole

/-- A path has no blanks that no form asked for, so its parts have its text. -/
theorem Path.text_parts (path : Path s xs) (file : String) :
    (xs.filterMap (·.part? file)).flatMap Part.text = xs.flatMap Segment.text := by
  induction path with
  | nil => rfl
  | @cons s segment segments takes later ih =>
    cases segment with
    | lexeme start l => exact congrArg (l.text ++ ·) ih
    | skipped start blanks => cases takes
    | rejected start c => exact congrArg (c :: ·) ih

theorem tokens_parts (file : String) (xs : List Segment) :
    (xs.filterMap (·.part? file)).filterMap Part.token? = tokensOf file xs := by
  rw [List.filterMap_filterMap, tokensOf]
  congr 1
  funext segment
  cases segment <;> rfl

theorem Path.reports_isLexical {source : List Char} (path : Path { rest := source } xs) :
    ∀ r ∈ xs.flatMap Segment.reports, r.kind.isLexical = true := by
  have lexical := (path.reached .start).reports_isLexical
  rwa [reports_recordAll] at lexical

/-! ## Lines of a path -/

namespace Path

theorem line_of_mem (h : Path s xs) : ∀ segment ∈ xs,
    s.place.line ≤ segment.start.line ∧ segment.start.line ≤ (s.recordAll xs).place.line := by
  intro segment isSegment
  obtain ⟨before, after, rfl⟩ := List.append_of_mem isSegment
  have front := h.of_append.1.place_eq
  have whole := h.place_eq
  rw [List.flatMap_append, Place.after_append, ← front] at whole
  rw [h.takes.start_eq, whole]
  exact ⟨front ▸ s.place.line_le_after _, Place.line_le_after _ _⟩

theorem line_le {text : List Char} (h : Path { rest := text } xs) :
    ∀ segment ∈ (({ rest := text } : Scan).recordAll xs).segments,
      segment.start.line ≤ (({ rest := text } : Scan).recordAll xs).place.line := by
  intro segment isSegment
  rw [segments_recordAll, List.append_nil, List.mem_reverse] at isSegment
  exact (h.line_of_mem segment isSegment).2

/-- Nothing is reported on an earlier line than the segment that it is about. -/
theorem line_le_of_mem_reports (h : Path s xs) :
    ∀ segment ∈ xs, ∀ r ∈ segment.reports, segment.start.line ≤ r.line := by
  intro segment isSegment r isReport
  obtain ⟨before, after, rfl⟩ := List.append_of_mem isSegment
  have takes := h.takes
  rw [takes.start_eq]
  cases takes.sited.1 r isReport with
  | character split inside notBlank stands | lineEnd split whole ends shown stands =>
    rw [(Prod.mk.inj (toLex.injective stands)).1]
    exact Place.line_le_after _ _

/-- What a path on one line reports stands on that line. -/
theorem line_of_mem_reports (h : Path s xs) (oneLine : '\n' ∉ xs.flatMap Segment.text) :
    ∀ segment ∈ xs, ∀ r ∈ segment.reports, r.line = s.place.line := by
  intro segment isSegment r isReport
  obtain ⟨before, after, rfl⟩ := List.append_of_mem isSegment
  rw [List.flatMap_append, List.flatMap_cons, List.mem_append, List.mem_append] at oneLine
  push Not at oneLine
  have takes := h.takes
  have line : (s.recordAll before).place.line = s.place.line := by
    rw [h.of_append.1.place_eq, Place.line_after_of_notMem _ oneLine.1]
  have within : ∀ {front rest : List Char}, (s.recordAll before).rest = front ++ rest →
      front.length ≤ segment.text.length →
      r.position = ((s.recordAll before).place.after front).position → r.line = s.place.line := by
    intro front rest split inside stands
    have isPrefix : front <+: segment.text :=
      List.prefix_of_prefix_length_le ⟨rest, split.symm⟩ takes.isPrefix inside
    have noFeed : '\n' ∉ front := fun isFeed => oneLine.2.1 (isPrefix.subset isFeed)
    rw [← line, ← Place.line_after_of_notMem _ noFeed]
    exact (Prod.mk.inj (toLex.injective stands)).1
  cases takes.sited.1 r isReport with
  | character split inside notBlank stands => exact within split (Nat.le_of_lt inside) stands
  | lineEnd split whole ends shown stands => exact within split (Nat.le_of_eq whole) stands

/-- Nothing is reported before the path begins. -/
theorem position_le_of_mem_reports (h : Path s xs) :
    ∀ segment ∈ xs, ∀ r ∈ segment.reports, s.place.position ≤ r.position := by
  intro segment isSegment r isReport
  obtain ⟨before, after, rfl⟩ := List.append_of_mem isSegment
  have here := position_le_of_sited (h.takes.sited.1 r isReport)
  rw [h.of_append.1.place_eq] at here
  exact (s.place.position_le_after _).trans here

end Path

end SharpFront.Scan
