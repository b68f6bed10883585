import SharpFront.Proofs.Form.Number
import SharpFront.Proofs.Form.Sited

/-!
# The last line of a lexeme

Only blanks, block comments and verbatim strings go on over the end of a line. A comment or a string
that ends has its end on its last line, so only blanks leave a line blank.

* `notMem_feed_of_recognize`: the forms that stay on their line;
* `lastLine_or_eq_of_recognize`: every lexeme but a blank shows on its last line, or is the last of
  its text.
-/

namespace SharpFront.Form

/-- Lexemes of the form can go on over the end of a line. -/
def spansLines : Form → Bool
  | whitespace | blockComment | verbatimString | pattern _ => true
  | _ => false

variable {form : Form} {followsHash : Nat → Bool} {place : Place} {text : List Char} {l : Lexeme}

/-! ## Lexemes on one line -/

theorem notMem_takeWhile {p : Char → Bool} (h : p '\n' = false) (cs : List Char) :
    '\n' ∉ cs.takeWhile p := by
  intro isTaken
  have := List.all_eq_true.mp List.all_takeWhile _ isTaken
  rw [h] at this
  cases this

theorem notMem_restOfLine (text : List Char) : '\n' ∉ restOfLine text := notMem_takeWhile rfl text

theorem restOfLine_append {front : List Char} (h : '\n' ∉ front) (back : List Char) :
    restOfLine (front ++ back) = front ++ restOfLine back := by
  refine List.takeWhile_append_of_pos ?_
  intro c isChar
  refine bne_iff_ne.mpr ?_
  rintro rfl
  exact h isChar

theorem notMem_wordText (text : List Char) : '\n' ∉ wordText text := by
  have notPart : Text.isWordPart '\n' = false := by decide +kernel
  unfold wordText
  split
  · exact List.not_mem_nil
  · next c rest =>
    split
    · next isStart =>
      refine List.not_mem_cons_of_ne_of_not_mem ?_ (notMem_takeWhile notPart rest)
      rintro rfl
      rw [Text.isWordPart_of_isWordStart isStart] at notPart
      cases notPart
    · exact List.not_mem_nil

theorem Numeral.IsWritten.notMem_text {n : Numeral} (h : n.IsWritten) : '\n' ∉ n.text := by
  have noFeed {isDigit : Char → Bool} {digits : List Char} (notDigit : isDigit '\n' = false)
      (areDigits : ∀ c ∈ digits, isDigit c = true) : '\n' ∉ digits := by
    intro isChar
    rw [areDigits _ isChar] at notDigit
    cases notDigit
  cases h with
  | hex isMark areDigits | binary isMark areDigits =>
    have digits := noFeed rfl areDigits
    rcases isMark with rfl | rfl <;> simp [text, digits]
  | whole areDigits => exact noFeed rfl areDigits
  | fraction areDigits areDecimals => simp [text, noFeed rfl areDigits, noFeed rfl areDecimals]

theorem notMem_quotedLexeme {quote : Char} {token : String → Token} {rest : List Char}
    {pieces : List QuotedPiece} {closed : Bool} (notFeed : '\n' ≠ quote)
    (arePieces : quotedPieces quote rest = (pieces, closed)) :
    '\n' ∉ (quotedLexeme quote token place pieces closed).text := by
  have content := notMem_quotedPieces quote rest
  rw [arePieces] at content
  simp only [quotedLexeme, List.mem_append, List.mem_cons, not_or]
  refine ⟨⟨notFeed, content⟩, ?_⟩
  split <;> simp [notFeed]

theorem notMem_feed_of_recognize (h : form.recognize followsHash place text = some l)
    (oneLine : form.spansLines = false) : '\n' ∉ l.text := by
  cases recognized_of_recognize h with
  | lineComment => simp [notMem_restOfLine]
  | message =>
    simp only [directiveMessage, List.mem_append, not_or]
    exact ⟨⟨notMem_wordText text, notMem_takeWhile rfl _⟩, notMem_restOfLine _⟩
  | directive | keyword | identifier => exact notMem_wordText text
  | @operator o => cases o <;> decide
  | @brace b => rcases b with ⟨_ | _ | _ | _, _ | _⟩ <;> decide
  | number isNumeral => exact (Numeral.ofText?_isWritten isNumeral).notMem_text
  | char arePieces | string arePieces => exact notMem_quotedLexeme (by decide) arePieces
  | _ => cases oneLine

/-! ## Lexemes over several lines -/

theorem drop_takeWhile (p : Char → Bool) (cs : List Char) :
    cs.drop (cs.takeWhile p).length = cs.dropWhile p := by
  calc cs.drop (cs.takeWhile p).length
    _ = (cs.takeWhile p ++ cs.dropWhile p).drop (cs.takeWhile p).length := by
      rw [List.takeWhile_append_dropWhile]
    _ = cs.dropWhile p := List.drop_left

theorem endsLine_drop (text : List Char) : EndsLine (text.drop (restOfLine text).length) := by
  have stops := List.head?_dropWhile_not (p := (· != '\n')) (l := text)
  rw [restOfLine, drop_takeWhile]
  intro c isFirst
  rw [Option.mem_def.mp isFirst] at stops
  simpa using stops

/-- Blanks are taken whole. -/
theorem not_isBlank_after_whitespace (h : whitespace? text = some l) :
    ∀ c ∈ (text.drop l.text.length).head?, Text.isBlank c = false := by
  have stops := List.head?_dropWhile_not (p := Text.isBlank) (l := text)
  simp only [whitespace?] at h
  split at h <;> cases h
  rw [drop_takeWhile]
  intro c isFirst
  rw [Option.mem_def.mp isFirst] at stops
  exact stops

theorem commentBody_of_open (h : (commentBody text).2 = false) : (commentBody text).1 = text := by
  fun_induction commentBody text with
  | case1 => rfl
  | case2 rest => cases h
  | case3 c rest notEnd body closed read ih =>
    rw [read] at ih
    exact congrArg (c :: ·) (ih h)

theorem doubleQuotes_of_open (h : (verbatimBody text).2 = false) :
    doubleQuotes (verbatimBody text).1 = text := by
  fun_induction verbatimBody text with
  | case1 => rfl
  | case2 rest value closed read ih =>
    rw [read] at ih
    exact congrArg (['"', '"'] ++ ·) (ih h)
  | case3 rest notDouble => cases h
  | case4 c rest notDouble notQuote value closed read ih =>
    rw [read] at ih
    simp only [doubleQuotes, List.flatMap_cons, if_neg notQuote]
    exact congrArg (c :: ·) (ih h)

/-- Every lexeme but a blank shows on its last line, or is the last of its text. -/
theorem lastLine_or_eq_of_recognize (inCatalog : form ∈ defaultCatalog)
    (h : form.recognize followsHash place text = some l)
    (notWhitespace : l.token.isWhitespace = false) :
    (∃ c ∈ lastLine l.text, Text.isBlank c = false) ∨ l.text = text := by
  cases oneLine : form.spansLines with
  | false =>
    obtain ⟨c, isFirst, notBlank⟩ := exists_head_not_isBlank inCatalog h notWhitespace
    refine .inl ⟨c, ?_, notBlank⟩
    rw [lastLine_of_notMem (notMem_feed_of_recognize h oneLine)]
    exact List.mem_of_mem_head? isFirst
  | true =>
    cases recognized_of_recognize h with
    | whitespace => cases notWhitespace
    | blockComment => exact .inl ⟨'/', mem_lastLine_append _ (by decide), by decide +kernel⟩
    | @openComment rest body isBody =>
      have isOpen : (commentBody rest).2 = false := by rw [isBody]
      have whole := commentBody_of_open isOpen
      rw [isBody] at whole
      exact .inr (congrArg ('/' :: '*' :: ·) whole)
    | verbatimString => exact .inl ⟨'"', mem_lastLine_append _ (by decide), by decide +kernel⟩
    | @openVerbatim rest value isBody =>
      have isOpen : (verbatimBody rest).2 = false := by rw [isBody]
      have whole := doubleQuotes_of_open isOpen
      rw [isBody] at whole
      exact .inr (congrArg ('@' :: '"' :: ·) whole)
    | pattern => simp [defaultCatalog] at inCatalog
    | _ => cases oneLine

end SharpFront.Form
