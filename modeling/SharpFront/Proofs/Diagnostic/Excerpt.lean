import SharpFront.Proofs.Source

/-!
# What an excerpt points at

The row below the line has as many characters before its caret as the row of the line has before
what stands at the column: the number with its bar, and the line up to the column without the blanks
in front.

* `HasExcerpt`: a text that ends in the row of a line and the row of its caret;
* `excerpt?_eq_none_iff`, `hasExcerpt_of_excerpt?`: when there is an excerpt, and what it points at.
-/

namespace SharpFront

namespace Excerpt

/-- The caret stands below what stands at the column of the line, or one past its end: the row of
the line is a label and the line without the blanks around it. -/
def PointsTo (line : List Char) (column : Nat) (row caret : List Char) : Prop :=
  ∃ label before left, line.dropWhile isIndent = before ++ line.drop (column - 1) ∧
    row = label ++ Text.trimEnd (before ++ line.drop (column - 1)) ∧
    caret = left ++ ['^'] ∧ '^' ∉ left ∧ left.length = (label ++ before).length

/-- The text ends in a row with the line and a row with a caret below the column. -/
def HasExcerpt (text : String) (line : List Char) (column : Nat) : Prop :=
  ∃ head row caret,
    text.toList = head ++ '\n' :: (row ++ '\n' :: (caret ++ ['\n'])) ∧
    PointsTo line column row caret

theorem dropWhile_eq_drop (line : List Char) :
    line.dropWhile isIndent = line.drop (indentation line) := by
  calc line.dropWhile isIndent
    _ = (line.takeWhile isIndent ++ line.dropWhile isIndent).drop (indentation line) :=
      List.drop_left.symm
    _ = line.drop (indentation line) := by rw [List.takeWhile_append_dropWhile]

/-- Past the blanks in front, what comes before a column loses as much as the caret moves. -/
theorem exists_before {line : List Char} {column : Nat} (visible : indentation line < column)
    (inside : column ≤ line.length + 1) :
    ∃ before, line.dropWhile isIndent = before ++ line.drop (column - 1) ∧
      before.length = caretColumn line column - 1 := by
  refine ⟨(line.drop (indentation line)).take (column - 1 - indentation line), ?_, ?_⟩
  · have whole := List.take_append_drop (column - 1 - indentation line)
      (line.drop (indentation line))
    have later : indentation line + (column - 1 - indentation line) = column - 1 := by omega
    rw [List.drop_drop, later] at whole
    rw [dropWhile_eq_drop, whole]
  · rw [List.length_take, List.length_drop, caretColumn]
    omega

theorem caretRow?_eq {line : List Char} {column : Nat} {caret : List Char}
    (h : caretRow? line column = some caret) :
    caret = List.replicate (caretColumn line column - 1) '-' ++ ['^'] := by
  simp only [caretRow?] at h
  split at h <;> cases h
  rfl

theorem notMem_bar (number : String) : '^' ∉ (bar number).toList := by
  simp [bar]

theorem length_bar (number : String) : (bar number).toList.length = number.toList.length + 2 := by
  simp [bar, String.length_toList]

end Excerpt

open Excerpt

variable {d : Diagnostic} {file : String} {source : SourceText} {line : List Char}

/-- An excerpt is missing only when its caret row would be too wide. -/
theorem excerpt?_eq_none_iff (isLine : source.line? d.line = some line)
    (visible : indentation line < d.column) :
    d.excerpt? file source = none ↔ widthLimit < d.column - indentation line := by
  have width : caretColumn line d.column = d.column - indentation line := by
    rw [caretColumn]
    omega
  simp only [Diagnostic.excerpt?, isLine, Option.map_eq_none_iff, caretRow?, width]
  split
  · simp only [reduceCtorEq, false_iff]
    omega
  · simp only [true_iff]
    omega

theorem hasExcerpt_of_excerpt? (isLine : source.line? d.line = some line)
    (visible : indentation line < d.column) (inside : d.column ≤ line.length + 1) {text : String}
    (h : d.excerpt? file source = some text) : HasExcerpt text line d.column := by
  simp only [Diagnostic.excerpt?, isLine] at h
  obtain ⟨caret, isCaret, rfl⟩ := Option.map_eq_some_iff.mp h
  obtain ⟨before, shown_eq, size⟩ := exists_before visible inside
  let number := toString d.line
  let cause := s!"{d.severity.name} {d.code}: {d.message}"
  let head := s!"{cause}\n-> {file}:{d.line}:{d.column}\n{bar number}"
  let label := (number ++ " | ").toList
  let left := (bar number ++ " ").toList ++ List.replicate (caretColumn line d.column - 1) '-'
  refine ⟨head.toList, label ++ shown line, left ++ ['^'], ?text, label, before, left, shown_eq,
    ?row, rfl, ?dashes, ?width⟩
  case text =>
    have same (s : String) : toString s = s := rfl
    have feed : "\n".toList = ['\n'] := rfl
    simp only [cause, head, label, left, number, caretRow?_eq isCaret, same, feed, String.toList_append,
      String.toList_ofList, List.append_assoc, List.cons_append, List.nil_append]
  case row => rw [shown, shown_eq]
  case dashes =>
    simp [left, notMem_bar]
  case width =>
    simp only [left, label, String.toList_append, List.length_append, length_bar,
      List.length_replicate, size]
    rfl

end SharpFront
