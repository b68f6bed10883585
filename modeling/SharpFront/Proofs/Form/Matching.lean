import SharpFront.Proofs.Form.Covered

/-!
# Where forms match

Whether a form matches, and whether it then covers any text, is decided by the text alone: the place
and the tokens before show only in what is found.

* `isSome_recognize`: where a form matches;
* `findsEmpty_of_recognize`: where it matches without covering text, as only patterns can.
-/

namespace SharpFront.Form

/-- The form matches at the start of the text. -/
def finds (form : Form) (text : List Char) : Bool :=
  (form.recognize (fun _ => false) {} text).isSome

/-- The form matches at the start of the text and covers nothing of it. -/
def findsEmpty (form : Form) (text : List Char) : Bool :=
  (form.recognize (fun _ => false) {} text).any (·.text.isEmpty)

variable {form : Form} {followsHash : Nat → Bool} {place : Place} {text : List Char} {l : Lexeme}

theorem isSome_recognize (form : Form) (followsHash : Nat → Bool) (place : Place)
    (text : List Char) : (form.recognize followsHash place text).isSome = form.finds text := by
  cases form with
  | whitespace | operator o | brace b => rfl
  | lineComment =>
    simp only [finds, recognize, lineComment?]
    split <;> rfl
  | blockComment =>
    simp only [finds, recognize, blockComment?]
    split <;> rfl
  | word =>
    simp only [finds, recognize, word?]
    split
    · rfl
    · split
      · simp only [Bool.and_false, Bool.false_eq_true, if_false]
        split <;> rfl
      · rfl
      · rfl
  | number => simp only [finds, recognize, number?, Option.isSome_map]
  | char | string =>
    simp only [finds, recognize, quoted?]
    split
    · rfl
    · split <;> rfl
  | verbatimString =>
    simp only [finds, recognize, verbatimString?]
    split <;> rfl
  | pattern p => simp only [finds, recognize, pattern?, Option.isSome_map]

theorem findsEmpty_of_recognize (h : form.recognize followsHash place text = some l)
    (isEmpty : l.text = []) : form.findsEmpty text = true := by
  obtain ⟨p, rfl⟩ := exists_pattern_of_empty h isEmpty
  obtain ⟨found, isMatch, rfl⟩ := Option.map_eq_some_iff.mp h
  have coversNothing : text.take found.length = [] := isEmpty
  simp only [findsEmpty, recognize, pattern?, isMatch, coversNothing, Option.map_some,
    Option.any_some, List.isEmpty_nil]

end SharpFront.Form
