import SharpFront.Proofs.Scan.Lookahead
import SharpFront.Proofs.Scan.ReportOrder
import SharpFront.Proofs.Scan.Resume

/-!
# The line of a region

How a scan comes to the title of a line with `#region` or `#endregion`.

* `RegionLine`: such a line and the text around it;
* `Spans`, `Path.spans_or_isBlank`: a lexeme goes over an offset;
* `path_opening`: the way over the `#` and the word;
* `exists_front`, `isWhitespace_of_front`: where no token goes over the start of the line, a segment
  begins with the `#`, and only blanks come before it on the line.
-/

namespace SharpFront

namespace Scan

variable {s : Scan} {segment : Segment} {xs ys : List Segment} {n : Nat}

/-! ## Blanks -/

theorem Takes.whitespace {c : Char} (isFirst : s.rest.head? = some c)
    (isBlank : Text.isBlank c = true) :
    Takes s (.lexeme s.place { token := .whitespace, text := s.rest.takeWhile Text.isBlank }) := by
  refine Takes.of_recognize (by decide) (by decide_cbv) (?_ : s.recognize .whitespace = some _)
  obtain ⟨rest, isRest⟩ := List.head?_eq_some_iff.mp isFirst
  have notEmpty : (s.rest.takeWhile Text.isBlank).isEmpty = false := by
    rw [isRest, List.takeWhile_cons_of_pos isBlank]
    rfl
  simp only [recognize, Form.recognize, Form.whitespace?, notEmpty, Bool.false_eq_true, if_false]

/-- A segment that begins with a blank consists of blanks. -/
theorem Takes.eq_whitespace (takes : Takes s segment) {c : Char}
    (isFirst : s.rest.head? = some c) (isBlank : Text.isBlank c = true) :
    segment =
      .lexeme s.place { token := .whitespace, text := s.rest.takeWhile Text.isBlank } :=
  takes.unique (.whitespace isFirst isBlank)

theorem Takes.isBlank_of_head (takes : Takes s segment) {c : Char} {cs : List Char}
    (isText : segment.text = c :: cs) (isBlank : Text.isBlank c = true) :
    ∀ d ∈ segment.text, Text.isBlank d = true := by
  have isFirst := Opening.head?_of_isPrefix takes.isPrefix (isText ▸ List.head?_cons)
  rw [takes.eq_whitespace isFirst isBlank]
  intro d isChar
  exact List.mem_takeWhile_imp isChar

/-- No word on a later line than all segments can follow a `#`. -/
theorem followsHash_of_lt {line : Nat} (h : ∀ segment ∈ s.segments, segment.start.line < line) :
    s.followsHash line = false := by
  unfold followsHash
  split
  · next token tokenLine found =>
    obtain ⟨segment, isSegment, isSolid⟩ := List.exists_of_findSome?_eq_some found
    have before := h segment isSegment
    have same : segment.start.line = tokenLine := by
      cases segment with
      | lexeme start l =>
        simp only [Segment.solid?] at isSolid
        split at isSolid <;> cases isSolid
        rfl
      | skipped start blanks => cases isSolid
      | rejected start c => cases isSolid
    have differs : (tokenLine == line) = false := beq_eq_false_iff_ne.mpr (by omega)
    rw [differs, Bool.false_and]
  · rfl

/-- A lexeme that is no blank starts before the offset and ends after it. -/
def Spans (xs : List Segment) (n : Nat) : Prop :=
  ∃ before start l after, xs = before ++ .lexeme start l :: after ∧
    l.token.isWhitespace = false ∧ (before.flatMap Segment.text).length < n ∧
    n < (before.flatMap Segment.text).length + l.text.length

theorem Spans.append_left (ys : List Segment) (h : Spans xs n) :
    Spans (ys ++ xs) ((ys.flatMap Segment.text).length + n) := by
  obtain ⟨before, start, l, after, rfl, notBlank, starts, ends⟩ := h
  refine ⟨ys ++ before, start, l, after, (List.append_assoc _ _ _).symm, notBlank, ?_⟩
  rw [List.flatMap_append, List.length_append]
  omega

/-- A segment that goes over an offset is a lexeme that is no blank, or consists of blanks. -/
theorem Path.spans_or_isBlank {front more : List Segment} {left right : List Char}
    (path : Path s (front ++ segment :: more)) (isText : segment.text = left ++ right)
    (rightSome : right ≠ []) (starts : (front.flatMap Segment.text).length < n)
    (ends : n ≤ (front.flatMap Segment.text).length + left.length) :
    Spans (front ++ segment :: more) n ∨ ∀ c ∈ segment.text, Text.isBlank c = true := by
  have takes := path.takes
  have size := congrArg List.length isText
  have goesOn := List.length_pos_iff.mpr rightSome
  rw [List.length_append] at size
  cases segment with
  | skipped start blanks => cases takes
  | rejected start c =>
    simp only [Segment.text, List.length_singleton] at size
    omega
  | lexeme start m =>
    cases isWhitespace : m.token.isWhitespace with
    | true =>
      obtain ⟨form, -, found⟩ := takes.exists_form
      exact .inr (Form.isBlank_of_isWhitespace found isWhitespace)
    | false =>
      refine .inl ⟨front, start, m, more, rfl, isWhitespace, starts, ?_⟩
      simp only [Segment.text] at size
      omega

end Scan

/-! ## The line -/

/-- A `#region` or `#endregion` line that goes on, after a blank, with a title, and the text around
it. -/
structure RegionLine where
  before : List Char
  indent : List Char
  /-- Between the `#` and the word. -/
  gap : List Char
  word : Directive
  blank : Char
  title : List Char
  after : List Char
  startsLine : ∀ c ∈ before.getLast?, c = '\n'
  indent_isBlank : ∀ c ∈ indent, Text.isInlineBlank c = true
  gap_isBlank : ∀ c ∈ gap, Text.isInlineBlank c = true
  isRegion : word = .region ∨ word = .endregion
  blank_isBlank : Text.isInlineBlank blank = true
  oneLine : '\n' ∉ title
  endsLine : EndsLine after

namespace RegionLine

variable (l : RegionLine)

/-- What comes before the `#`. -/
def head : List Char := l.before ++ l.indent

/-- The `#` and the word. -/
def mark : List Char := '#' :: (l.gap ++ l.word.word.toList)

/-- The blank and the title. -/
def tail : List Char := l.blank :: l.title

def text : List Char := l.head ++ (l.mark ++ (l.tail ++ l.after))

/-- The text with the title removed from the line. -/
def untitled : RegionLine :=
  { l with
    title := []
    oneLine := List.not_mem_nil }

/-- The offset at which the line starts. -/
def start : Nat := l.before.length

/-- The offset at which the line ends. -/
def stop : Nat := l.head.length + (l.mark.length + l.tail.length)

/-- The number of the line. -/
def line : Nat := lineAfter l.before

/-- The place of the `#`. -/
def place : Place := ({} : Place).after l.head

/-- The segments of the `#`, the gap and the word. -/
def opening : List Segment :=
  let hash : Segment := .lexeme l.place { token := .operator .hash, text := ['#'] }
  let gap : List Segment := if l.gap.isEmpty then []
    else [.lexeme (l.place.after ['#']) { token := .whitespace, text := l.gap }]
  let word : Segment := .lexeme (l.place.after ('#' :: l.gap))
    { token := .directive l.word, text := l.word.word.toList }
  hash :: (gap ++ [word])

variable {l}

theorem notMem_of_isInlineBlank {cs : List Char} (h : ∀ c ∈ cs, Text.isInlineBlank c = true) :
    '\n' ∉ cs := fun isFeed => absurd (h _ isFeed) (by decide +kernel)

theorem line_head : lineAfter l.head = l.line := by
  rw [head, lineAfter_append, List.count_eq_zero.mpr (notMem_of_isInlineBlank l.indent_isBlank)]
  rfl

theorem notMem_tail : '\n' ∉ l.tail := by
  refine List.not_mem_cons_of_ne_of_not_mem ?_ l.oneLine
  rintro isFeed
  have isBlank := l.blank_isBlank
  rw [← isFeed] at isBlank
  exact absurd isBlank (by decide +kernel)

theorem text_opening : l.opening.flatMap Segment.text = l.mark := by
  unfold opening mark
  cases l.gap <;> simp [Segment.text]

theorem wordText_append (w : Directive) (isRegion : w = .region ∨ w = .endregion) {blank : Char}
    (isBlank : Text.isBlank blank = true) (more : List Char) :
    Form.wordText (w.word.toList ++ blank :: more) = w.word.toList := by
  have stops : (blank :: more).takeWhile Text.isWordPart = [] :=
    List.takeWhile_cons_of_neg (Bool.eq_false_iff.mp (Text.isWordPart_of_isBlank isBlank))
  have written : ∃ c cs, w.word.toList = c :: cs ∧ Text.isWordStart c = true ∧
      ∀ d ∈ cs, Text.isWordPart d = true := by
    rcases isRegion with rfl | rfl
    · exact ⟨'r', ['e', 'g', 'i', 'o', 'n'], rfl, by decide +kernel,
        List.all_eq_true.mp (by decide +kernel)⟩
    · exact ⟨'e', ['n', 'd', 'r', 'e', 'g', 'i', 'o', 'n'], rfl, by decide +kernel,
        List.all_eq_true.mp (by decide +kernel)⟩
  obtain ⟨c, cs, isWord, isStart, areParts⟩ := written
  rw [isWord, List.cons_append, Form.wordText, if_pos isStart,
    List.takeWhile_append_of_pos areParts, stops, List.append_nil]

open Scan

variable {s : Scan} {xs : List Segment}

theorem recognize_word {more : List Char}
    (rest : s.rest = l.word.word.toList ++ l.blank :: more) :
    s.recognize .word =
      some { token := .directive l.word, text := l.word.word.toList } := by
  have text :=
    wordText_append l.word l.isRegion (Text.isBlank_of_isInlineBlank l.blank_isBlank) more
  rw [← rest] at text
  simp only [recognize, Form.recognize, Form.word?, text, String.ofList_toList]
  rcases l.isRegion with isWord | isWord <;> rw [isWord] <;> rfl

theorem takeWhile_gap (more : List Char) :
    (l.gap ++ (l.word.word.toList ++ more)).takeWhile Text.isBlank = l.gap := by
  have stops : (l.word.word.toList ++ more).takeWhile Text.isBlank = [] := by
    rcases l.isRegion with isWord | isWord <;> rw [isWord] <;>
      exact List.takeWhile_cons_of_neg (by decide +kernel)
  rw [List.takeWhile_append_of_pos fun c isChar =>
    Text.isBlank_of_isInlineBlank (l.gap_isBlank c isChar), stops, List.append_nil]

/-- The way over the `#` and the word. -/
theorem path_opening {more : List Char} (rest : s.rest = l.mark ++ l.blank :: more)
    (place : s.place = l.place) : Path s l.opening := by
  rw [mark, List.cons_append, List.append_assoc] at rest
  have hash : Takes s (.lexeme s.place { token := .operator .hash, text := ['#'] }) := by
    refine Takes.of_recognize (by decide) (by decide_cbv)
      (?_ : s.recognize (.operator .hash) = some _)
    simp only [recognize, rest]
    rfl
  have rest₁ := record_rest s (.lexeme s.place { token := .operator .hash, text := ['#'] })
  have place₁ := hash.place_record
  rw [rest] at rest₁
  rw [place] at hash rest₁ place₁
  simp only [Segment.text, List.length_singleton, List.drop_succ_cons, List.drop_zero]
    at rest₁ place₁
  refine .cons hash ?_
  generalize s.record _ = s₁ at rest₁ place₁
  cases isGap : l.gap with
  | nil =>
    rw [isGap] at rest₁
    have word := Takes.of_recognize (by decide) (by decide_cbv) (recognize_word rest₁)
    rw [place₁] at word
    exact .single word
  | cons c gap =>
    have isBlank := Text.isBlank_of_isInlineBlank
      (l.gap_isBlank c (isGap ▸ List.mem_cons_self))
    have isFirst : s₁.rest.head? = some c := by rw [rest₁, isGap]; rfl
    have blanks := Takes.whitespace isFirst isBlank
    rw [rest₁, takeWhile_gap, place₁] at blanks
    have rest₂ :=
      record_rest s₁ (.lexeme (l.place.after ['#']) { token := .whitespace, text := l.gap })
    have place₂ := blanks.place_record
    simp only [Segment.text, rest₁, List.drop_left, place₁, ← Place.after_append] at rest₂ place₂
    rw [isGap] at blanks rest₂ place₂
    refine .cons blanks ?_
    generalize s₁.record _ = s₂ at rest₂ place₂
    have word := Takes.of_recognize (by decide) (by decide_cbv) (recognize_word rest₂)
    rw [place₂] at word
    exact .single word

/-! ## Where the line begins -/

/-- What goes past the start of the line inside the indentation belongs to it. -/
theorem mem_indent_of_split {front back : List Char} (split : l.head = front ++ back)
    (later : l.before.length ≤ front.length) : ∀ c ∈ back, Text.isInlineBlank c = true := by
  intro c isChar
  refine l.indent_isBlank c ?_
  have isBack : back = l.head.drop front.length := by rw [split, List.drop_left]
  rw [isBack, head, List.drop_append, List.drop_of_length_le later, List.nil_append] at isChar
  exact List.mem_of_mem_drop isChar

/-- Where no token goes over the start of the line, a segment ends right before the `#`. -/
theorem exists_front (path : Path { rest := l.text } xs)
    (atEnd : (({ rest := l.text } : Scan).recordAll xs).rest = []) (apart : ¬Spans xs l.start) :
    ∃ front back, xs = front ++ back ∧ front.flatMap Segment.text = l.head := by
  have whole := path.rest_eq
  rw [atEnd, List.append_nil] at whole
  obtain ⟨front, back, rfl, exact | ⟨segment, more, left, right, rfl, leftSome, rightSome,
    isHead, isText, isBack⟩⟩ := exists_cut whole.symm
  · exact ⟨front, back, rfl, exact⟩
  obtain ⟨right, rfl⟩ : ∃ more, right = '#' :: more := by
    cases right with
    | nil => exact absurd rfl rightSome
    | cons c right => exact ⟨right, congrArg (· :: right) (List.cons.inj isBack).1.symm⟩
  have areBlank : ∀ c ∈ segment.text, Text.isBlank c = true := by
    by_cases earlier : (front.flatMap Segment.text).length < l.start
    · refine (path.spans_or_isBlank isText rightSome earlier ?_).resolve_left apart
      have size := congrArg List.length isHead
      simp only [head, List.length_append] at size
      simp only [RegionLine.start]
      omega
    · -- it begins in the indentation
      obtain ⟨c, left, rfl⟩ := List.exists_cons_of_ne_nil leftSome
      have isBlank := mem_indent_of_split isHead (Nat.not_lt.mp earlier) c List.mem_cons_self
      exact path.takes.isBlank_of_head isText (Text.isBlank_of_isInlineBlank isBlank)
  have isBlank := areBlank '#' (isText ▸ List.mem_append_cons_self)
  exact absurd isBlank (by decide +kernel)

/-- A text that ends on the line goes past its start. -/
theorem length_le_of_line {front back : List Char} (split : l.head = front ++ back)
    (onLine : lineAfter front = l.line) : l.before.length ≤ front.length := by
  rw [head] at split
  rcases List.append_eq_append_iff.mp split with ⟨more, isFront, -⟩ | ⟨more, isBefore, -⟩
  · rw [isFront, List.length_append]
    exact Nat.le_add_right _ _
  · rcases List.eq_nil_or_concat more with rfl | ⟨rest, c, rfl⟩
    · rw [isBefore, List.append_nil]
    · exfalso
      have isLast : c = '\n' := l.startsLine c (by rw [isBefore]; simp)
      subst isLast
      rw [line, isBefore, lineAfter_append] at onLine
      have isFeed : 0 < (rest.concat '\n').count '\n' := List.count_pos_iff.mpr (by simp)
      omega

/-- Only blanks start on the line before the `#`. -/
theorem isWhitespace_of_front (path : Path { rest := l.text } xs)
    (text_eq : xs.flatMap Segment.text = l.head) :
    ∀ segment ∈ xs, segment.start.line = l.line →
      ∃ start m, segment = .lexeme start m ∧ m.token.isWhitespace = true := by
  intro segment isSegment onLine
  obtain ⟨front, back, rfl⟩ := List.append_of_mem isSegment
  have takes := path.takes
  rw [takes.start_eq, path.of_append.1.place_eq, Place.after_eq] at onLine
  rw [List.flatMap_append, List.flatMap_cons] at text_eq
  have blank := mem_indent_of_split text_eq.symm (length_le_of_line text_eq.symm onLine)
  obtain ⟨c, cs, isText⟩ := List.exists_cons_of_ne_nil takes.text_ne_nil
  have isFirst := Opening.head?_of_isPrefix takes.isPrefix (isText ▸ List.head?_cons)
  have isBlank := blank c (List.mem_append_left _ (isText ▸ List.mem_cons_self))
  exact ⟨_, _, takes.eq_whitespace isFirst (Text.isBlank_of_isInlineBlank isBlank), rfl⟩

/-- Nothing is reported on the line before the `#`. -/
theorem line_ne_of_front (path : Path { rest := l.text } xs)
    (text_eq : xs.flatMap Segment.text = l.head) :
    ∀ segment ∈ xs, ∀ r ∈ segment.reports, r.line ≠ l.line := by
  intro segment isSegment r isReport onLine
  obtain ⟨before, after, rfl⟩ := List.append_of_mem isSegment
  have takes := path.takes
  rw [List.flatMap_append, List.flatMap_cons] at text_eq
  have line_eq : ∀ {front : List Char},
      r.position = ((({ rest := l.text } : Scan).recordAll before).place.after front).position →
      lineAfter (before.flatMap Segment.text ++ front) = l.line := by
    intro front stands
    rw [path.of_append.1.place_eq, ← Place.after_append, Place.after_eq] at stands
    exact (Prod.mk.inj (toLex.injective stands)).1.symm.trans onLine
  rcases takes.stands_or isReport with ⟨front, c, tail, isText, notBlank, stands⟩ | ⟨ends, stands⟩
  · rw [isText, List.append_assoc, ← List.append_assoc] at text_eq
    have blank := mem_indent_of_split text_eq.symm
      (length_le_of_line text_eq.symm (line_eq stands)) c (by simp)
    rw [Text.isBlank_of_isInlineBlank blank] at notBlank
    cases notBlank
  · -- what comes next is on the line too, so it does not end there
    rw [← List.append_assoc] at text_eq
    have blank := mem_indent_of_split text_eq.symm
      (length_le_of_line text_eq.symm (line_eq stands))
    have source := (path.of_append.1.append (.single takes)).rest_eq
    have ahead : l.text = (before ++ [segment]).flatMap Segment.text ++
        (after.flatMap Segment.text ++
          '#' :: (l.gap ++ l.word.word.toList ++ (l.tail ++ l.after))) := by
      rw [List.flatMap_append, List.flatMap_singleton, ← List.append_assoc, text_eq]
      rfl
    have next := List.append_cancel_left (ahead.symm.trans source)
    rw [recordAll_append] at next
    replace ends : EndsLine (after.flatMap Segment.text ++ _) := next.symm ▸ ends
    cases isAfter : after.flatMap Segment.text with
    | nil =>
      rw [isAfter] at ends
      exact absurd (ends '#' rfl) (by decide)
    | cons c cs =>
      rw [isAfter] at ends blank
      have isFeed := blank c List.mem_cons_self
      rw [ends c rfl] at isFeed
      exact absurd isFeed (by decide +kernel)

end RegionLine

end SharpFront
