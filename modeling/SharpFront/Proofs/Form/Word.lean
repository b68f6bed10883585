import Mathlib.Data.List.TakeWhile
import SharpFront.Proofs.Form.Recognized

/-!
# Directive words

* `exists_word?`: the lexeme of a word without a message;
* `eq_word_of_directive?`, `word?_of_directive?`, `word?_of_wordText`: the lexeme of a directive
  word, with the rest of its line or alone;
* `directiveMessage_eq`: what such a lexeme makes of the rest of the line.
-/

namespace SharpFront

namespace Form

variable {form : Form} {followsHash : Nat → Bool} {place : Place} {text : List Char} {l : Lexeme}

theorem dropWhile_restOfLine (rest : List Char) :
    (restOfLine rest).dropWhile Text.isBlank =
      restOfLine (rest.drop (rest.takeWhile Text.isInlineBlank).length) := by
  induction rest with
  | nil => rfl
  | cons c rest ih =>
    by_cases isFeed : c = '\n'
    · subst isFeed
      rfl
    · have notFeed : (c != '\n') = true := bne_iff_ne.mpr isFeed
      have same : Text.isInlineBlank c = Text.isBlank c := by
        rw [Text.isInlineBlank, notFeed, Bool.true_and]
      have more : restOfLine (c :: rest) = c :: restOfLine rest :=
        List.takeWhile_cons_of_pos notFeed
      cases isBlank : Text.isBlank c with
      | true =>
        rw [isBlank] at same
        rw [more, List.takeWhile_cons_of_pos same, List.length_cons, List.drop_succ_cons, ← ih,
          List.dropWhile_cons_of_pos isBlank]
      | false =>
        rw [isBlank] at same
        rw [List.takeWhile_cons_of_neg (Bool.eq_false_iff.mp same), List.length_nil, List.drop_zero,
          more, List.dropWhile_cons_of_neg (Bool.eq_false_iff.mp isBlank)]

theorem takeWhile_restOfLine (rest : List Char) :
    (restOfLine rest).takeWhile Text.isBlank = rest.takeWhile Text.isInlineBlank := by
  rw [restOfLine, List.takeWhile_takeWhile]
  congr 1
  funext c
  simp only [Text.isInlineBlank, Bool.decide_and, Bool.decide_eq_true, Bool.and_comm]

/-- A message is the rest of the line without the blanks in front, which are covered with it. -/
theorem directiveMessage_eq (d : Directive) (place : Place) (word rest : List Char) :
    directiveMessage d place word rest =
      { token := .directiveMessage d (.ofChars
          (place.after (word ++ (restOfLine rest).takeWhile Text.isBlank)).offset
          ((restOfLine rest).dropWhile Text.isBlank))
        text := word ++ restOfLine rest } := by
  have whole := List.takeWhile_append_dropWhile (p := Text.isBlank) (l := restOfLine rest)
  rw [dropWhile_restOfLine, takeWhile_restOfLine] at whole
  rw [directiveMessage, takeWhile_restOfLine, dropWhile_restOfLine, List.append_assoc, whole]

/-- Only a word names a directive. -/
theorem eq_word_of_directive? (h : form.recognize followsHash place text = some l) {d : Directive}
    (names : l.token.directive? = some d) : form = .word := by
  cases recognized_of_recognize h with
  | message | directive | keyword | identifier => rfl
  | _ => cases names

theorem word_of_ofWord? {word : String} {d : Directive}
    (h : Reserved.ofWord? word = some (.directive d)) : d.word = word := by
  unfold Reserved.ofWord? at h
  split at h
  · next found =>
    cases h
    have isFirst : (Directive.all.find? (·.word == word)) = some d := found
    simpa using List.find?_some isFirst
  · split at h <;> cases h

/-- A word that takes no message covers itself alone. -/
theorem exists_word? (isWord : wordText text ≠ []) (noHash : followsHash place.line = false) :
    ∃ l, word? followsHash place text = some l ∧ l.text = wordText text := by
  have notEmpty : (wordText text).isEmpty = false := List.isEmpty_eq_false_iff.mpr isWord
  simp only [word?, notEmpty, noHash, Bool.and_false, Bool.false_eq_true, if_false]
  split <;> exact ⟨_, rfl, rfl⟩

/-- A word that names a directive spells it. -/
theorem wordText_of_directive? (h : word? followsHash place text = some l) {d : Directive}
    (names : l.token.directive? = some d) : wordText text = d.word.toList := by
  cases word?_recognized h with
  | message isWord isDirective | directive isWord isDirective =>
    cases names
    rw [word_of_ofWord? isDirective, String.toList_ofList]
  | keyword | identifier => cases names

/-- The word of a directive stands for it, and after a `#` may take the rest of its line. -/
theorem word?_of_wordText {d : Directive} (isWord : wordText text = d.word.toList) :
    word? followsHash place text =
      some (if d.takesMessage && followsHash place.line then
        directiveMessage d place d.word.toList (text.drop d.word.length)
      else { token := .directive d, text := d.word.toList }) := by
  have notEmpty : d.word.toList.isEmpty = false := by cases d <;> rfl
  have reserved : Reserved.ofWord? d.word = some (.directive d) := by cases d <;> rfl
  simp only [word?, isWord, notEmpty, String.ofList_toList, reserved, String.length_toList,
    Bool.false_eq_true, if_false]
  split <;> rfl

/-- A word that names a directive spells it, and after a `#` may take the rest of its line. -/
theorem word?_of_directive? (h : word? followsHash place text = some l) {d : Directive}
    (names : l.token.directive? = some d) :
    l = if d.takesMessage && followsHash place.line then
        directiveMessage d place d.word.toList (text.drop d.word.length)
      else { token := .directive d, text := d.word.toList } := by
  exact Option.some.inj (h.symm.trans (word?_of_wordText (wordText_of_directive? h names)))

end Form

end SharpFront
