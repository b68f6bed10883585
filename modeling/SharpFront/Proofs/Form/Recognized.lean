import SharpFront.Form.Recognize

/-!
# The lexemes of the forms

* `Recognized`: what a form finds at the start of a text, with a case for each way to find something;
* `recognized_of_recognize`: nothing else is found.
-/

namespace SharpFront.Form

/-- The lexeme of a literal with these pieces. -/
def quotedLexeme (quote : Char) (token : String → Token) (place : Place)
    (pieces : List QuotedPiece) (closed : Bool) : Lexeme :=
  let content := pieces.flatMap (·.text)
  let stop := place.after (quote :: content)
  {
    token := token (String.ofList (pieces.filterMap (·.value)))
    text := quote :: content ++ (if closed then [quote] else [])
    reports := escapeReports (place.step quote) pieces ++
      (if closed then [] else [⟨.newlineInConstant, stop.line, stop.column, 1⟩]) }

inductive Recognized (followsHash : Nat → Bool) (place : Place) :
    Form → List Char → Lexeme → Prop where
  | whitespace {text} (notEmpty : text.takeWhile Text.isBlank ≠ []) :
    Recognized followsHash place .whitespace text
      { token := .whitespace, text := text.takeWhile Text.isBlank }
  | lineComment {rest} :
    Recognized followsHash place .lineComment ('/' :: '/' :: rest)
      { token := .lineComment (.ofChars (place.offset + 2) (restOfLine rest))
        text := '/' :: '/' :: restOfLine rest }
  | blockComment {rest body} (isBody : commentBody rest = (body, true)) :
    Recognized followsHash place .blockComment ('/' :: '*' :: rest)
      { token := .blockComment (.ofChars (place.offset + 2) body)
        text := '/' :: '*' :: body ++ ['*', '/'] }
  | openComment {rest body} (isBody : commentBody rest = (body, false)) :
    Recognized followsHash place .blockComment ('/' :: '*' :: rest)
      { token := .blockComment (.ofChars (place.offset + 2) body)
        text := '/' :: '*' :: body
        reports := [⟨.unterminatedComment, place.line, place.column, 2⟩] }
  | message {text d} (isWord : wordText text ≠ [])
    (names : Reserved.ofWord? (String.ofList (wordText text)) = some (.directive d))
    (takesLine : (d.takesMessage && followsHash place.line) = true) :
    Recognized followsHash place .word text
      (directiveMessage d place (wordText text) (text.drop (wordText text).length))
  | directive {text d} (isWord : wordText text ≠ [])
    (names : Reserved.ofWord? (String.ofList (wordText text)) = some (.directive d))
    (alone : (d.takesMessage && followsHash place.line) = false) :
    Recognized followsHash place .word text { token := .directive d, text := wordText text }
  | keyword {text w} (isWord : wordText text ≠ [])
    (isKeyword : Reserved.ofWord? (String.ofList (wordText text)) = some (.keyword w)) :
    Recognized followsHash place .word text { token := .keyword w, text := wordText text }
  | identifier {text} (isWord : wordText text ≠ [])
    (notReserved : Reserved.ofWord? (String.ofList (wordText text)) = none) :
    Recognized followsHash place .word text
      { token := .identifier (.ofChars place.offset (wordText text)), text := wordText text }
  | operator {o text} (isPrefix : o.chars <+: text) :
    Recognized followsHash place (.operator o) text { token := .operator o, text := o.chars }
  | brace {b rest} :
    Recognized followsHash place (.brace b) (b.char :: rest) { token := .brace b, text := [b.char] }
  | number {text n} (isNumeral : Numeral.ofText? text = some n) :
    Recognized followsHash place .number text
      { token := .number ⟨n.value, n.base, n.isFraction, .ofChars place.offset n.text⟩
        text := n.text }
  | char {rest pieces closed} (arePieces : quotedPieces '\'' rest = (pieces, closed)) :
    Recognized followsHash place .char ('\'' :: rest) (quotedLexeme '\'' .char place pieces closed)
  | string {rest pieces closed} (arePieces : quotedPieces '"' rest = (pieces, closed)) :
    Recognized followsHash place .string ('"' :: rest) (quotedLexeme '"' .string place pieces closed)
  | verbatimString {rest value} (isBody : verbatimBody rest = (value, true)) :
    Recognized followsHash place .verbatimString ('@' :: '"' :: rest)
      { token := .verbatimString (String.ofList value)
        text := '@' :: '"' :: doubleQuotes value ++ ['"'] }
  | openVerbatim {rest value} (isBody : verbatimBody rest = (value, false)) :
    Recognized followsHash place .verbatimString ('@' :: '"' :: rest)
      { token := .verbatimString (String.ofList value)
        text := '@' :: '"' :: doubleQuotes value
        reports := [⟨.unterminatedString, place.line, place.column, 2⟩] }
  | pattern {p : NamedPattern} {text found} (isMatch : p.program.find? text = some found) :
    Recognized followsHash place (.pattern p) text
      { token := .custom p.name (.ofChars place.offset (text.take found.length))
        text := text.take found.length }

variable {form : Form} {followsHash : Nat → Bool} {place : Place} {text : List Char} {l : Lexeme}

theorem quoted?_eq_some {quote : Char} {token : String → Token}
    (h : quoted? quote token place text = some l) :
    ∃ rest pieces closed, text = quote :: rest ∧ quotedPieces quote rest = (pieces, closed) ∧
      l = quotedLexeme quote token place pieces closed := by
  unfold quoted? at h
  split at h
  · cases h
  · next c rest =>
    split at h
    · next isQuote =>
      subst isQuote
      exact ⟨rest, _, _, rfl, rfl, (Option.some.inj h).symm⟩
    · cases h

theorem word?_recognized (h : word? followsHash place text = some l) :
    Recognized followsHash place .word text l := by
  simp only [word?] at h
  split at h
  · cases h
  · next notEmpty =>
    have isWord : wordText text ≠ [] := mt List.isEmpty_iff.mpr notEmpty
    split at h
    · next d names =>
      split at h
      · next takesLine =>
        cases h
        exact .message isWord names takesLine
      · next alone =>
        cases h
        exact .directive isWord names (Bool.eq_false_iff.mpr alone)
    · next w isKeyword =>
      cases h
      exact .keyword isWord isKeyword
    · next notReserved =>
      cases h
      exact .identifier isWord notReserved

theorem recognized_of_recognize (h : form.recognize followsHash place text = some l) :
    Recognized followsHash place form text l := by
  cases form with
  | whitespace =>
    simp only [recognize, whitespace?] at h
    split at h
    · cases h
    · next notEmpty =>
      cases h
      exact .whitespace (mt List.isEmpty_iff.mpr notEmpty)
  | lineComment =>
    simp only [recognize, lineComment?] at h
    split at h <;> cases h
    exact .lineComment
  | blockComment =>
    simp only [recognize, blockComment?] at h
    split at h <;> cases h
    next rest =>
    cases read : commentBody rest with
    | mk body closed =>
      cases closed with
      | true => exact .blockComment read
      | false =>
        simp only [Bool.false_eq_true, if_false, List.append_nil]
        exact .openComment read
  | word => exact word?_recognized h
  | operator o =>
    simp only [recognize, operator?] at h
    split at h <;> cases h
    next isPrefix => exact .operator (List.isPrefixOf_iff_prefix.mp isPrefix)
  | brace b =>
    simp only [recognize, brace?] at h
    split at h <;> cases h
    next isFirst =>
    obtain ⟨rest, rfl⟩ := List.head?_eq_some_iff.mp isFirst
    exact .brace
  | number =>
    obtain ⟨n, isNumeral, rfl⟩ := Option.map_eq_some_iff.mp h
    exact .number isNumeral
  | char =>
    obtain ⟨rest, pieces, closed, rfl, arePieces, rfl⟩ := quoted?_eq_some h
    exact .char arePieces
  | string =>
    obtain ⟨rest, pieces, closed, rfl, arePieces, rfl⟩ := quoted?_eq_some h
    exact .string arePieces
  | verbatimString =>
    simp only [recognize, verbatimString?] at h
    split at h <;> cases h
    next rest =>
    cases read : verbatimBody rest with
    | mk value closed =>
      cases closed with
      | true => exact .verbatimString read
      | false =>
        simp only [Bool.false_eq_true, if_false, List.append_nil]
        exact .openVerbatim read
  | pattern p =>
    obtain ⟨found, isMatch, rfl⟩ := Option.map_eq_some_iff.mp h
    exact .pattern isMatch

end SharpFront.Form
