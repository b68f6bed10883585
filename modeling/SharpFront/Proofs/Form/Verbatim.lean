import SharpFront.Proofs.Form.Recognized

/-!
# The text of a verbatim string

Between `@"` and `"` quotes are written twice, so that a verbatim string has one text for each value.

* `verbatimText`: the text with a given value;
* `recognize_verbatimText`: a string reads as its value, unless a quote follows it;
* `text_of_verbatimString`: a string that is not reported covers the text of its value.
-/

namespace SharpFront.Form

/-- The text of the verbatim string with a value. -/
def verbatimText (value : List Char) : List Char := '@' :: '"' :: doubleQuotes value ++ ['"']

theorem doubleQuotes_cons_quote (value : List Char) :
    doubleQuotes ('"' :: value) = '"' :: '"' :: doubleQuotes value := rfl

theorem doubleQuotes_cons_of_ne {c : Char} (notQuote : c ≠ '"') (value : List Char) :
    doubleQuotes (c :: value) = c :: doubleQuotes value := by
  rw [doubleQuotes, List.flatMap_cons, if_neg notQuote]
  rfl

/-! ## Reading what was written -/

/-- Doubled quotes are read back, and what follows them is read as it would be alone. -/
theorem verbatimBody_doubleQuotes (value rest : List Char) :
    verbatimBody (doubleQuotes value ++ rest) =
      (value ++ (verbatimBody rest).1, (verbatimBody rest).2) := by
  induction value with
  | nil => rfl
  | cons c value ih =>
    by_cases isQuote : c = '"'
    · subst isQuote
      rw [doubleQuotes_cons_quote, List.cons_append, List.cons_append, verbatimBody, ih]
      rfl
    · rw [doubleQuotes_cons_of_ne isQuote, List.cons_append, verbatimBody, if_neg isQuote, ih]
      · rfl
      · exact fun rest isFirst _ => isQuote isFirst

/-- A quote that no other follows ends the string. -/
theorem verbatimBody_quote {rest : List Char} (alone : rest.head? ≠ some '"') :
    verbatimBody ('"' :: rest) = ([], true) := by
  rw [verbatimBody, if_pos rfl]
  rintro more - rfl
  exact alone rfl

/-- **A verbatim string reads as its value**, and ends at its quote unless another one follows. -/
theorem recognize_verbatimText (value : List Char) {rest : List Char}
    (alone : rest.head? ≠ some '"') (followsHash : Nat → Bool) (place : Place) :
    verbatimString.recognize followsHash place (verbatimText value ++ rest) =
      some { token := .verbatimString (String.ofList value), text := verbatimText value } := by
  have split : verbatimText value ++ rest = '@' :: '"' :: (doubleQuotes value ++ '"' :: rest) := by
    simp [verbatimText]
  have body : verbatimBody (doubleQuotes value ++ '"' :: rest) = (value, true) := by
    rw [verbatimBody_doubleQuotes, verbatimBody_quote alone, List.append_nil]
  rw [split, recognize, verbatimString?, body]
  rfl

/-! ## Writing what was read -/

variable {form : Form} {followsHash : Nat → Bool} {place : Place} {text : List Char} {l : Lexeme}

/-- A verbatim string covers the text of its value, or is reported where it begins. -/
theorem text_of_verbatimString {value : String}
    (h : form.recognize followsHash place text = some l)
    (isVerbatim : l.token = .verbatimString value) :
    l.text = verbatimText value.toList ∨
      l.reports = [⟨.unterminatedString, place.line, place.column, 2⟩] := by
  cases recognized_of_recognize h with
  | verbatimString =>
    cases isVerbatim
    rw [String.toList_ofList]
    exact .inl rfl
  | openVerbatim => exact .inr rfl
  | _ => cases isVerbatim

theorem plain_verbatimText {value : List Char} (h : ∀ c ∈ value, c ≠ '\r' ∧ c ≠ '\x00') :
    ∀ c ∈ verbatimText value, c ≠ '\r' ∧ c ≠ '\x00' := by
  have doubled : ∀ c ∈ doubleQuotes value, c ≠ '\r' ∧ c ≠ '\x00' := by
    intro c isChar
    obtain ⟨d, isValue, isPart⟩ := List.mem_flatMap.mp isChar
    split at isPart
    · next isQuote =>
      subst isQuote
      simp only [List.mem_cons, List.not_mem_nil, or_false, or_self] at isPart
      subst isPart
      decide
    · rw [List.mem_singleton.mp isPart]
      exact h d isValue
  simp only [verbatimText, List.mem_append, List.mem_cons, List.not_mem_nil, or_false]
  rintro c ((rfl | rfl | isChar) | rfl)
  · decide
  · decide
  · exact doubled c isChar
  · decide

end SharpFront.Form
