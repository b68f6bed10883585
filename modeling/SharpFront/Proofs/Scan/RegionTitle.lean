import SharpFront.Proofs.Scan.RegionLine

/-!
# Scanning the title of a region

The title is scanned like any other text. Where no token goes over the end of the line, what follows
the line is scanned as it would be without the title.

* `IsTitle`, `exists_title`: the segments of the title;
* `IsTitle.resumes`: with and without the title a scan goes on alike after the line;
* `exists_lineScans`: the scans of the text with and without the title.
-/

namespace SharpFront.RegionLine

open Scan

variable {l : RegionLine} {s : Scan} {xs : List Segment}

/-! ## Where the title ends -/

variable (l) in
/-- The segments are those of the title and of the blanks after it. All of them start on the line of
the scan, and so do the reports about them. -/
structure IsTitle (s : Scan) (title : List Segment) : Prop where
  path : Path s title
  text_eq : title.flatMap Segment.text = l.tail ++ l.after.takeWhile Text.isBlank
  starts : ∀ segment ∈ title, segment.start.line = s.place.line
  reports : ∀ segment ∈ title, ∀ r ∈ segment.reports, r.line = s.place.line

theorem line_of_isPrefix (path : Path s xs) (isPrefix : xs.flatMap Segment.text <+: l.tail) :
    (s.recordAll xs).place.line = s.place.line ∧
      (∀ segment ∈ xs, segment.start.line = s.place.line) ∧
      ∀ segment ∈ xs, ∀ r ∈ segment.reports, r.line = s.place.line := by
  have noFeed : '\n' ∉ xs.flatMap Segment.text := fun isFeed => notMem_tail (isPrefix.subset isFeed)
  have line : (s.recordAll xs).place.line = s.place.line := by
    rw [path.place_eq, Place.line_after_of_notMem _ noFeed]
  refine ⟨line, ?_, path.line_of_mem_reports noFeed⟩
  intro segment isSegment
  have bounds := path.line_of_mem segment isSegment
  omega

/-- Blanks that begin in the title, or right after it, end it. -/
theorem isTitle_of_blanks {segment : Segment} (rest : s.rest = l.tail ++ l.after)
    (path : Path s (xs ++ [segment])) (left : List Char)
    (split : l.tail = xs.flatMap Segment.text ++ left)
    (areBlank : ∀ c ∈ left, Text.isBlank c = true) {c : Char}
    (isFirst : (left ++ l.after).head? = some c) (isBlank : Text.isBlank c = true) :
    l.IsTitle s (xs ++ [segment]) := by
  obtain ⟨line, starts, reports⟩ := line_of_isPrefix path.of_append.1 ⟨left, split.symm⟩
  have ahead : (s.recordAll xs).rest = left ++ l.after := by
    have whole := path.of_append.1.rest_eq
    rw [rest, split, List.append_assoc] at whole
    exact (List.append_cancel_left whole).symm
  have isSegment := path.takes.eq_whitespace (ahead ▸ isFirst) isBlank
  rw [ahead, List.takeWhile_append_of_pos areBlank] at isSegment
  subst isSegment
  refine ⟨path, ?_, ?_, ?_⟩
  · rw [List.flatMap_append, List.flatMap_singleton, split, List.append_assoc]
    rfl
  · exact List.forall_mem_append.mpr ⟨starts, List.forall_mem_singleton.mpr line⟩
  · exact List.forall_mem_append.mpr
      ⟨reports, List.forall_mem_singleton.mpr (List.forall_mem_nil _)⟩

/-- Without the title only the blank is left of it. -/
theorem isTitle_untitled (rest : s.rest = l.untitled.tail ++ l.after) :
    l.untitled.IsTitle s
      [.lexeme s.place { token := .whitespace, text := s.rest.takeWhile Text.isBlank }] := by
  have isBlank := Text.isBlank_of_isInlineBlank l.blank_isBlank
  have isFirst : s.rest.head? = some l.blank := by
    rw [rest]
    rfl
  have onlyBlank := Path.single (.whitespace isFirst isBlank)
  rw [← List.nil_append [_]] at onlyBlank ⊢
  exact isTitle_of_blanks (l := l.untitled) rest onlyBlank [l.blank] rfl
    (List.forall_mem_singleton.mpr isBlank) rfl isBlank

/-- Where no token goes over the end of the line, the segments of the title end there, blanks
aside. -/
theorem exists_title (rest : s.rest = l.tail ++ l.after) (path : Path s xs)
    (atEnd : (s.recordAll xs).rest = []) (apart : ¬Spans xs l.tail.length) :
    ∃ title more, xs = title ++ more ∧ l.IsTitle s title := by
  have whole := path.rest_eq
  rw [atEnd, List.append_nil, rest] at whole
  have isFeed : Text.isBlank '\n' = true := by decide +kernel
  obtain ⟨front, back, rfl, exact | ⟨segment, more, left, right, rfl, leftSome, rightSome,
    isTail, isText, isAfter⟩⟩ := exists_cut whole.symm
  · rw [List.flatMap_append, exact] at whole
    have isAfter := List.append_cancel_left whole
    cases back with
    | nil =>
      obtain ⟨-, starts, reports⟩ := line_of_isPrefix (l := l) path.of_append.1
        (exact ▸ List.prefix_rfl)
      refine ⟨front, [], rfl, path.of_append.1, ?_, starts, reports⟩
      rw [exact, isAfter]
      exact (List.append_nil _).symm
    | cons segment more =>
      rw [← List.singleton_append, ← List.append_assoc] at path
      obtain ⟨c, cs, isText⟩ := List.exists_cons_of_ne_nil
        (Path.takes path.of_append.1).text_ne_nil
      have isFirst : l.after.head? = some c := by
        rw [isAfter, List.flatMap_cons, isText]
        rfl
      refine ⟨front ++ [segment], more, by simp, ?_⟩
      refine isTitle_of_blanks rest path.of_append.1 [] (by rw [exact, List.append_nil])
        (List.forall_mem_nil _) isFirst ?_
      rw [l.endsLine c isFirst]
      exact isFeed
  · have starts : (front.flatMap Segment.text).length < l.tail.length := by
      rw [isTail, List.length_append]
      exact Nat.lt_add_of_pos_right (List.length_pos_iff.mpr leftSome)
    have ends := congrArg List.length isTail
    rw [List.length_append] at ends
    have areBlank := (path.spans_or_isBlank isText rightSome starts ends.le).resolve_left apart
    obtain ⟨c, left, rfl⟩ := List.exists_cons_of_ne_nil leftSome
    rw [← List.singleton_append, ← List.append_assoc] at path
    rw [isText] at areBlank
    refine ⟨front ++ [segment], more, by simp, ?_⟩
    exact isTitle_of_blanks rest path.of_append.1 _ isTail
      (fun d isChar => areBlank d (List.mem_append_left _ isChar)) rfl
      (areBlank c (List.mem_append_left _ List.mem_cons_self))

/-! ## The scans with and without the title -/

variable (l) in
/-- The segments of the text: up to the `#`, those of the title, and those on later lines. -/
structure LineScan (front title rest : List Segment) : Prop where
  path : Path { rest := l.text } (front ++ (l.opening ++ (title ++ rest)))
  atEnd : (({ rest := l.text } : Scan).recordAll
    (front ++ (l.opening ++ (title ++ rest)))).rest = []
  front_text : front.flatMap Segment.text = l.head
  title_starts : ∀ segment ∈ title, segment.start.line = l.line
  title_reports : ∀ segment ∈ title, ∀ r ∈ segment.reports, r.line = l.line
  rest_starts : ∀ segment ∈ rest, l.line < segment.start.line

theorem line_place : (l.place.after l.mark).line = l.line := by
  have noFeed : '\n' ∉ l.mark := by
    rw [mark, List.mem_cons, List.mem_append]
    push Not
    refine ⟨by decide, notMem_of_isInlineBlank l.gap_isBlank, ?_⟩
    rcases l.isRegion with isWord | isWord <;> rw [isWord] <;> decide
  rw [Place.line_after_of_notMem _ noFeed, place, Place.after_eq]
  exact line_head

/-- The way up to the title. -/
theorem path_tail {front : List Segment} (path : Path { rest := l.text } front)
    (text_eq : front.flatMap Segment.text = l.head) :
    let s := ({ rest := l.text } : Scan).recordAll (front ++ l.opening)
    Path { rest := l.text } (front ++ l.opening) ∧ s.rest = l.tail ++ l.after ∧
      s.place = l.place.after l.mark := by
  have whole := path.rest_eq
  have place : (({ rest := l.text } : Scan).recordAll front).place = l.place := by
    rw [path.place_eq, text_eq]
    rfl
  rw [text_eq] at whole
  have rest := (List.append_cancel_left whole).symm
  have opening := path_opening rest place
  have whole' := opening.rest_eq
  rw [rest, text_opening] at whole'
  refine ⟨path.append opening, ?_, ?_⟩
  · rw [recordAll_append]
    exact (List.append_cancel_left whole').symm
  · rw [recordAll_append, opening.place_eq, text_opening, place]

namespace IsTitle

variable {title rest : List Segment}

theorem rest_eq (h : l.IsTitle s title) (ahead : s.rest = l.tail ++ l.after) :
    (s.recordAll title).rest = l.after.dropWhile Text.isBlank := by
  have whole := h.path.rest_eq
  rw [ahead, h.text_eq, List.append_assoc] at whole
  have after := List.append_cancel_left whole
  exact (List.append_cancel_left (List.takeWhile_append_dropWhile.trans after)).symm

/-- The blanks after the title begin with a line feed, unless nothing comes after it. -/
theorem exists_feed (notEnd : l.after ≠ []) :
    ∃ blanks, l.after.takeWhile Text.isBlank = '\n' :: blanks := by
  obtain ⟨c, after, isAfter⟩ := List.exists_cons_of_ne_nil notEnd
  obtain rfl : c = '\n' := l.endsLine c (isAfter ▸ rfl)
  rw [isAfter]
  exact ⟨_, List.takeWhile_cons_of_pos (by decide +kernel)⟩

theorem place_eq (h : l.IsTitle s title) {blanks : List Char}
    (isBlanks : l.after.takeWhile Text.isBlank = '\n' :: blanks) :
    (s.recordAll title).place = (s.place.after l.tail).after ('\n' :: blanks) := by
  rw [h.path.place_eq, h.text_eq, isBlanks, Place.after_append]

theorem line_lt (h : l.IsTitle s title) (notEnd : l.after ≠ []) :
    s.place.line < (s.recordAll title).place.line := by
  obtain ⟨blanks, isBlanks⟩ := exists_feed notEnd
  rw [h.place_eq isBlanks, Place.line_after, Place.line_after_of_notMem _ notMem_tail,
    List.count_cons_self]
  omega

/-- What comes after the title starts on later lines. -/
theorem line_lt_of_rest (h : l.IsTitle s title) (ahead : s.rest = l.tail ++ l.after)
    (path : Path (s.recordAll title) rest) :
    ∀ segment ∈ rest, s.place.line < segment.start.line := by
  intro segment isSegment
  have notEnd : l.after ≠ [] := by
    intro isEnd
    have isNil := path.eq_nil (by rw [h.rest_eq ahead, isEnd, List.dropWhile_nil])
    rw [isNil] at isSegment
    cases isSegment
  exact Nat.lt_of_lt_of_le (h.line_lt notEnd) (path.line_of_mem segment isSegment).1

/-- A scan with the title and one without it go on alike after the line. -/
theorem resumes {t : Scan} {blanks : List Segment} (h : l.IsTitle s title)
    (h' : l.untitled.IsTitle t blanks) (ahead : s.rest = l.tail ++ l.after)
    (ahead' : t.rest = l.untitled.tail ++ l.after) (place : t.place = s.place)
    (earlier : ∀ segment ∈ s.segments, segment.start.line ≤ s.place.line)
    (earlier' : ∀ segment ∈ t.segments, segment.start.line ≤ s.place.line)
    (notEnd : l.after ≠ []) : Resumes (s.recordAll title) (t.recordAll blanks) := by
  have line' : t.place.line = s.place.line := congrArg Place.line place
  have notFollows : ∀ {s' : Scan} {segments : List Segment},
      (∀ segment ∈ s'.segments, segment.start.line ≤ s.place.line) →
      (∀ segment ∈ segments, segment.start.line = s.place.line) →
      ∀ line, (s.recordAll title).place.line ≤ line →
        (s'.recordAll segments).followsHash line = false := by
    intro s' segments before here line isLater
    have later := h.line_lt notEnd
    refine followsHash_of_lt ?_
    rw [segments_recordAll]
    intro segment isSegment
    rcases List.mem_append.mp isSegment with isHere | isBefore
    · have := here segment (List.mem_reverse.mp isHere)
      omega
    · have := before segment isBefore
      omega
  obtain ⟨feed, isFeed⟩ := exists_feed notEnd
  refine ⟨?_, ?_, ?_⟩
  · rw [h.rest_eq ahead, h'.rest_eq ahead']
    rfl
  · have placeAfter : (t.recordAll blanks).place =
        (t.place.after l.untitled.tail).after ('\n' :: feed) := h'.place_eq isFeed
    rw [placeAfter, h.place_eq isFeed]
    refine Place.position_after_feed ?_ feed
    rw [Place.line_after_of_notMem _ notMem_tail, Place.line_after_of_notMem _ notMem_tail, line']
  · intro line isLater
    rw [notFollows earlier h.starts line isLater, notFollows earlier' ?_ line isLater]
    intro segment isSegment
    rw [h'.starts segment isSegment, line']

/-- What comes after the line is the same without the title. -/
theorem exists_rest {t : Scan} {blanks : List Segment} (h : l.IsTitle s title)
    (h' : l.untitled.IsTitle t blanks) (ahead : s.rest = l.tail ++ l.after)
    (ahead' : t.rest = l.untitled.tail ++ l.after) (place : t.place = s.place)
    (earlier : ∀ segment ∈ s.segments, segment.start.line ≤ s.place.line)
    (earlier' : ∀ segment ∈ t.segments, segment.start.line ≤ s.place.line)
    (later : Path (s.recordAll title) rest)
    (atEnd : ((s.recordAll title).recordAll rest).rest = []) :
    ∃ rest', Path (t.recordAll blanks) rest' ∧
      rest'.map Segment.content = rest.map Segment.content ∧
      ((t.recordAll blanks).recordAll rest').rest = [] := by
  by_cases notEnd : l.after = []
  · have isNil := later.eq_nil (by rw [h.rest_eq ahead, notEnd, List.dropWhile_nil])
    refine ⟨[], .nil, by rw [isNil], ?_⟩
    refine (h'.rest_eq ahead').trans ?_
    exact (congrArg (List.dropWhile Text.isBlank) notEnd).trans List.dropWhile_nil
  · obtain ⟨rest', later', same, ends⟩ := later.resume
      (h.resumes h' ahead ahead' place earlier earlier' notEnd)
    exact ⟨rest', later', same, ends.trans atEnd⟩

end IsTitle

theorem LineScan.of_isTitle {front title rest : List Segment}
    (path : Path { rest := l.text } front)
    (text_eq : front.flatMap Segment.text = l.head)
    (h : l.IsTitle (({ rest := l.text } : Scan).recordAll (front ++ l.opening)) title)
    (later : Path
      ((({ rest := l.text } : Scan).recordAll (front ++ l.opening)).recordAll title) rest)
    (atEnd : (((({ rest := l.text } : Scan).recordAll (front ++ l.opening)).recordAll
      title).recordAll rest).rest = []) : l.LineScan front title rest := by
  obtain ⟨opened, ahead, place⟩ := path_tail path text_eq
  have line : (({ rest := l.text } : Scan).recordAll (front ++ l.opening)).place.line = l.line := by
    rw [place, line_place]
  refine ⟨?_, ?_, text_eq, ?_, ?_, ?_⟩
  · rw [← List.append_assoc]
    exact opened.append (h.path.append later)
  · rw [← List.append_assoc, recordAll_append, recordAll_append]
    exact atEnd
  · rw [← line]
    exact h.starts
  · rw [← line]
    exact h.reports
  · rw [← line]
    exact h.line_lt_of_rest ahead later

variable (l) in
theorem agree_untitled : Agree (l.head.length + 2) l.text l.untitled.text := by
  have common := Agree.append (l.head ++ l.mark) (l.tail ++ l.after) (l.untitled.tail ++ l.after)
  rw [List.append_assoc, List.append_assoc] at common
  refine common.mono ?_
  rw [List.length_append]
  rcases l.isRegion with isWord | isWord <;> simp [mark, isWord, Directive.word]

/-- **The scan without the title.** Where no token goes over the start or the end of the line, the
segments before and after the title are also those of the text without it, those after it by
content. In the place of the title there are blanks. -/
theorem exists_lineScans (path : Path { rest := l.text } xs)
    (atEnd : (({ rest := l.text } : Scan).recordAll xs).rest = [])
    (apartStart : ¬Spans xs l.start) (apartStop : ¬Spans xs l.stop) :
    ∃ front title rest start blanks rest', xs = front ++ (l.opening ++ (title ++ rest)) ∧
      l.LineScan front title rest ∧
      l.untitled.LineScan front [.lexeme start { token := .whitespace, text := blanks }] rest' ∧
      rest'.map Segment.content = rest.map Segment.content := by
  obtain ⟨front, back, rfl, text_eq⟩ := exists_front path atEnd apartStart
  have toHash := path.of_append.1
  -- with the title
  obtain ⟨opened, ahead, place⟩ := path_tail toHash text_eq
  obtain ⟨more, whole⟩ := opened.isPrefix path atEnd
  rw [← whole] at path atEnd apartStop
  have line : (({ rest := l.text } : Scan).recordAll (front ++ l.opening)).place.line = l.line := by
    rw [place, line_place]
  have apart : ¬Spans more l.tail.length := by
    intro spans
    have moved := spans.append_left (front ++ l.opening)
    rw [List.flatMap_append, text_eq, text_opening, List.length_append, Nat.add_assoc] at moved
    exact apartStop moved
  rw [recordAll_append] at atEnd
  obtain ⟨title, rest, rfl, isTitle⟩ := exists_title ahead path.of_append.2 atEnd apart
  have later := path.of_append.2.of_append.2
  rw [recordAll_append] at atEnd
  -- without it
  have agree := l.agree_untitled
  rw [← text_eq] at agree
  have toHash' : Path { rest := l.untitled.text } front := (toHash.of_agree agree).1
  obtain ⟨opened', ahead', place'⟩ := path_tail (l := l.untitled) toHash' text_eq
  have isTitle' := isTitle_untitled ahead'
  have samePlace : (({ rest := l.untitled.text } : Scan).recordAll
      (front ++ l.untitled.opening)).place =
      (({ rest := l.text } : Scan).recordAll (front ++ l.opening)).place := by
    rw [place, place']
    rfl
  have earlier' := opened'.line_le
  rw [samePlace] at earlier'
  obtain ⟨rest', later', same, atEnd'⟩ := isTitle.exists_rest isTitle' ahead ahead' samePlace
    opened.line_le earlier' later atEnd
  refine ⟨front, title, rest, _, _, rest', by rw [← whole, List.append_assoc],
    .of_isTitle toHash text_eq isTitle later atEnd,
    .of_isTitle toHash' text_eq isTitle' later' atEnd', same⟩

end SharpFront.RegionLine
