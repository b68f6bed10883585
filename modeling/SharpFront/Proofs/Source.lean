import SharpFront.Diagnostic.Excerpt
import SharpFront.Form.Trivia
import SharpFront.Proofs.Place

/-!
# The line at a place

* `line?_lineAfter`: the line on which a text goes on after what comes before;
* `Shows`: the blanks in front of that line do not go past the place, so that an excerpt can show
  it;
* `shows_of_next`, `shows_of_before`: something else than such a blank stands at the place, or
  before it on the line;
* `IsShown`: a line and a column that an excerpt can show.
-/

namespace SharpFront

/-- What a text has of its last line. -/
def lastLine (front : List Char) : List Char := (front.reverse.takeWhile (· != '\n')).reverse

theorem columnAfter_eq (front : List Char) : columnAfter front = (lastLine front).length + 1 := by
  rw [columnAfter, lastLine, List.length_reverse, Nat.add_comm]

theorem lastLine_append (front : List Char) {more : List Char} (h : '\n' ∉ more) :
    lastLine (front ++ more) = lastLine front ++ more := by
  have noFeed : ∀ c ∈ more.reverse, (c != '\n') = true := by
    intro c isChar
    refine bne_iff_ne.mpr ?_
    rintro rfl
    exact h (List.mem_reverse.mp isChar)
  rw [lastLine, lastLine, List.reverse_append, List.takeWhile_append_of_pos noFeed,
    List.reverse_append, List.reverse_reverse]

theorem lastLine_of_notMem {front : List Char} (h : '\n' ∉ front) : lastLine front = front :=
  lastLine_append [] h

theorem mem_lastLine_append (front : List Char) {more : List Char} {c : Char}
    (h : c ∈ lastLine more) : c ∈ lastLine (front ++ more) := by
  rw [lastLine, List.mem_reverse] at h ⊢
  rw [List.reverse_append, List.takeWhile_append]
  split
  · exact List.mem_append_left _ ((List.takeWhile_prefix _).subset h)
  · exact h

/-- What comes before a line feed is not on the last line. -/
theorem lastLine_append_feed (front more : List Char) :
    lastLine (front ++ '\n' :: more) = lastLine more := by
  rw [lastLine, lastLine, List.reverse_append, List.reverse_cons, List.append_assoc,
    List.takeWhile_append]
  split
  · next noFeed =>
    have whole : more.reverse.takeWhile (· != '\n') = more.reverse :=
      (List.takeWhile_prefix _).eq_of_length noFeed
    rw [whole]
    exact congrArg List.reverse (List.append_nil _)
  · rfl

theorem splitLines_getElem? (front back : List Char) :
    (splitLines (front ++ back))[front.count '\n']? =
      some (lastLine front ++ Form.restOfLine back) := by
  induction front with
  | nil =>
    induction back with
    | nil => rfl
    | cons c back ih =>
      by_cases isFeed : c = '\n'
      · subst isFeed
        rfl
      · have taken : Form.restOfLine (c :: back) = c :: Form.restOfLine back :=
          List.takeWhile_cons_of_pos (bne_iff_ne.mpr isFeed)
        obtain ⟨line, more, isSplit⟩ := List.exists_cons_of_ne_nil (splitLines_ne_nil back)
        rw [List.nil_append, List.count_nil, isSplit] at ih
        have first : line = Form.restOfLine back := Option.some.inj ih
        rw [List.nil_append, splitLines, if_neg isFeed, isSplit, taken, first]
        rfl
  | cons c front ih =>
    rw [List.cons_append, splitLines]
    by_cases isFeed : c = '\n'
    · subst isFeed
      have others : lastLine ('\n' :: front) = lastLine front := lastLine_append_feed [] front
      rw [if_pos rfl, List.count_cons_self, List.getElem?_cons_succ, ih, others]
    · obtain ⟨line, more, isSplit⟩ := List.exists_cons_of_ne_nil (splitLines_ne_nil (front ++ back))
      rw [if_neg isFeed, List.count_cons_of_ne isFeed]
      rw [isSplit] at ih ⊢
      by_cases noFeed : '\n' ∈ front
      · obtain ⟨a, b, rfl⟩ := List.append_of_mem noFeed
        have others : lastLine (c :: (a ++ '\n' :: b)) = lastLine (a ++ '\n' :: b) := by
          rw [← List.cons_append, lastLine_append_feed, lastLine_append_feed]
        obtain ⟨n, isLater⟩ := Nat.exists_eq_succ_of_ne_zero
          (Nat.pos_iff_ne_zero.mp (List.count_pos_iff.mpr noFeed))
        rw [isLater] at ih ⊢
        rw [others]
        exact ih
      · have here : '\n' ∉ c :: front := List.not_mem_cons_of_ne_of_not_mem (Ne.symm isFeed) noFeed
        rw [List.count_eq_zero.mpr noFeed, lastLine_of_notMem noFeed] at ih
        rw [List.count_eq_zero.mpr noFeed, lastLine_of_notMem here]
        exact congrArg (Option.map (c :: ·)) ih

/-- The line of a source text at the place after its first characters. -/
theorem line?_lineAfter (front back : List Char) :
    (SourceText.mk (front ++ back)).line? (lineAfter front) =
      some (lastLine front ++ Form.restOfLine back) := by
  have positive : lineAfter front ≠ 0 := by
    unfold lineAfter
    omega
  rw [SourceText.line?, if_neg positive, lineAfter, Nat.add_sub_cancel_left]
  exact splitLines_getElem? front back

/-! ## What an excerpt shows -/

/-- The spaces and tabs in front of the line do not go past the place between the two texts. -/
def Shows (front back : List Char) : Prop :=
  Excerpt.indentation (lastLine front ++ Form.restOfLine back) ≤ (lastLine front).length

theorem shows_of_next {front back : List Char}
    (h : ∀ c ∈ back.head?, Excerpt.isIndent c = false) : Shows front back := by
  have stops : (Form.restOfLine back).takeWhile Excerpt.isIndent = [] := by
    cases back with
    | nil => rfl
    | cons c back =>
      rw [Form.restOfLine, List.takeWhile_cons]
      split
      · exact List.takeWhile_cons_of_neg (Bool.eq_false_iff.mp (h c rfl))
      · rfl
  have prefixLength := (List.takeWhile_prefix (l := lastLine front) Excerpt.isIndent).length_le
  rw [Shows, Excerpt.indentation, List.takeWhile_append, stops, List.append_nil]
  split
  · exact Nat.le_refl _
  · exact prefixLength

theorem shows_of_before {front back : List Char} {c : Char}
    (h : c ∈ lastLine front) (notIndent : Excerpt.isIndent c = false) : Shows front back := by
  obtain ⟨a, b, isSplit⟩ := List.append_of_mem h
  have stops : ((c :: b) ++ Form.restOfLine back).takeWhile Excerpt.isIndent = [] :=
    List.takeWhile_cons_of_neg (Bool.eq_false_iff.mp notIndent)
  have prefixLength := (List.takeWhile_prefix (l := a) Excerpt.isIndent).length_le
  rw [Shows, Excerpt.indentation, isSplit, List.append_assoc, List.takeWhile_append, stops,
    List.append_nil, List.length_append]
  split
  · exact Nat.le_add_right _ _
  · exact Nat.le_trans prefixLength (Nat.le_add_right _ _)

/-- The line and the column are those of a place that an excerpt can show. -/
def IsShown (source : List Char) (line column : Nat) : Prop :=
  ∃ front back, source = front ++ back ∧ line = lineAfter front ∧ column = columnAfter front ∧
    Shows front back

/-- A place that an excerpt can show is on a line of the text, past the blanks in front. -/
theorem IsShown.exists_line {source : List Char} {line column : Nat}
    (h : IsShown source line column) :
    ∃ chars, (SourceText.mk source).line? line = some chars ∧
      Excerpt.indentation chars < column ∧ column ≤ chars.length + 1 := by
  obtain ⟨front, back, rfl, rfl, rfl, shows⟩ := h
  refine ⟨_, line?_lineAfter front back, ?_, ?_⟩
  · rw [columnAfter_eq]
    exact Nat.lt_succ_of_le shows
  · rw [columnAfter_eq, List.length_append]
    omega

end SharpFront
