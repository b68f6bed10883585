import SharpFront.Pattern.Reader
import SharpFront.Proofs.Checked.Scan
import SharpFront.Proofs.Scan.Cursor
import SharpFront.Proofs.Scan.Handler

/-!
# Forms by hand

From where a cursor can stand the program of a form does not fail, and comes to what the form finds.

* `Lexer.past`: the lexer behind a text, with what was reported on the way;
* `recognize_eq`: a form by hand finds what the form finds, and leaves the same lexer;
* `stands_of_moves`: what can be said of the cursor after any moves.
-/

namespace SharpFront

/-! ## Behind a text -/

/-- The lexer behind a text, with reports about it. -/
def Lexer.past (l : Lexer) (text : List Char) (reports : List Report) : Lexer :=
  { l.advance text.length with diagnostics := l.diagnostics.reportAll reports }

/-- A token, if there is one, and the lexer behind it. -/
def Lexer.found (l : Lexer) : Option Lexeme → Option Token × Lexer
  | none => (none, l)
  | some m => (some m.token, l.past m.text m.reports)

namespace Lexer

variable {l : Lexer} {source : SourceText} {text rest : List Char}

theorem past_past (l : Lexer) (a b : List Char) (rs ss : List Report) :
    (l.past a rs).past b ss = l.past (a ++ b) (rs ++ ss) := by
  have place : (l.scan.place.after (l.scan.rest.take a.length)).after
      ((l.scan.rest.drop a.length).take b.length) =
      l.scan.place.after (l.scan.rest.take (a ++ b).length) := by
    rw [← Place.after_append, List.length_append, List.take_add]
  have remains : (l.scan.rest.drop a.length).drop b.length = l.scan.rest.drop (a ++ b).length := by
    rw [List.drop_drop, List.length_append]
  have told : (l.diagnostics.reportAll rs).reportAll ss = l.diagnostics.reportAll (rs ++ ss) :=
    List.foldl_append.symm
  simp only [past, Lexer.advance, Scan.advance, place, remains, told]

theorem rest_past (h : l.scan.rest = text ++ rest) (reports : List Report) :
    (l.past text reports).scan.rest = rest := by
  change l.scan.rest.drop text.length = rest
  rw [h, List.drop_left]

theorem place_past (h : l.scan.rest = text ++ rest) (reports : List Report) :
    (l.past text reports).scan.place = l.scan.place.after text := by
  change l.scan.place.after (l.scan.rest.take text.length) = _
  rw [h, List.take_left]

theorem Stands.past (h : Stands source l) (text : List Char) (reports : List Report) :
    Stands source (l.past text reports) :=
  ⟨h.isSource, (h.advance text.length).isAt⟩

end Lexer

namespace Handler

variable {l : Lexer} {source : SourceText} {rest text : List Char}

/-! ## Steps of a program -/

theorem bind_eq {α β : Type} {x : Handler α} {f : α → Handler β} {a : α} {l t : Lexer}
    (h : x l = .ok (a, t)) : (x >>= f) l = f a t := by
  change Except.bind (x l) _ = _
  rw [h]
  rfl

theorem source_eq (stands : l.Stands source) : Handler.source l = source.chars := by
  rw [Handler.source, stands.isSource]
  rfl

theorem remainder_eq (stands : l.Stands source) (h : l.scan.rest = rest) :
    remainder l = .ok (rest, l) := by
  rw [remainder, source_eq stands, stands.isAt.textFrom_eq, h]
  rfl

theorem place_eq (l : Lexer) : place l = .ok (l.scan.place, l) := rfl

theorem followsHash_eq (l : Lexer) (text : List Char) (reports : List Report) (line : Nat) :
    followsHash line (l.past text reports) =
      .ok (l.scan.followsHash line, l.past text reports) := rfl

theorem advance_move (stands : l.Stands source) (n : Nat) :
    advance n l = .ok ((), l.advance n) := by
  rw [advance, source_eq stands, stands.isAt.advanceBy_take, Checked.ok_bind,
    (stands.isAt.drop _).textFrom_eq]
  rfl

theorem advance_eq (stands : l.Stands source) (text : List Char) {n : Nat} (h : text.length = n) :
    advance n l = .ok ((), l.past text []) := by
  subst h
  exact advance_move stands text.length

theorem advance_one (stands : l.Stands source) (c : Char) :
    advance 1 l = .ok ((), l.past [c] []) := advance_eq stands [c] rfl

theorem advance_two (stands : l.Stands source) (c d : Char) :
    advance 2 l = .ok ((), l.past [c, d] []) := advance_eq stands [c, d] rfl

theorem report_eq (l : Lexer) (r : Report) : report r l = .ok ((), l.past [] [r]) := rfl

theorem eatWhile_eq (stands : l.Stands source) (isIn : Char → Bool) (h : l.scan.rest = rest) :
    eatWhile isIn l =
      .ok ((rest.takeWhile isIn).length, l.past (rest.takeWhile isIn) []) := by
  rw [eatWhile, bind_eq (remainder_eq stands h), bind_eq (advance_eq stands _ rfl)]
  rfl

theorem spanFrom_eq (stands : l.Stands source) (h : l.scan.rest = text ++ rest) {start : Nat}
    (isStart : start = l.scan.place.offset) (reports : List Report) :
    spanFrom start (l.past text reports) = .ok (.ofChars start text, l.past text reports) := by
  subst isStart
  have isSpan : (l.past text reports).spanFrom? l.scan.place.offset = _ := stands.spanFrom?_eq h
  rw [spanFrom, isSpan]
  rfl

theorem eatUntil_eq (stands : l.Stands source) (c : Char) (h : l.scan.rest = rest) :
    eatUntil c l = .ok (.ofChars l.scan.place.offset (rest.takeWhile (· != c)),
      l.past (rest.takeWhile (· != c)) []) := by
  have isSplit : l.scan.rest = rest.takeWhile (· != c) ++ rest.dropWhile (· != c) := by
    rw [List.takeWhile_append_dropWhile, h]
  rw [eatUntil, bind_eq (place_eq l), bind_eq (eatWhile_eq stands _ h),
    spanFrom_eq stands isSplit rfl]

/-! ## None of them leaves another lexer -/

theorem whitespace_eq (stands : l.Stands source) :
    whitespace l = .ok (l.found (Form.whitespace? l.scan.rest)) := by
  rw [whitespace, bind_eq (eatWhile_eq stands _ rfl)]
  cases isEaten : l.scan.rest.takeWhile Text.isBlank with
  | nil => simp only [Form.whitespace?, isEaten]; rfl
  | cons c blanks => simp only [Form.whitespace?, isEaten]; rfl

theorem lineComment_eq (stands : l.Stands source) :
    lineComment l = .ok (l.found (Form.lineComment? l.scan.place l.scan.rest)) := by
  generalize isText : l.scan.rest = text
  rw [lineComment, bind_eq (remainder_eq stands isText)]
  split
  · next rest =>
    have opened : l.scan.rest = ['/', '/'] ++ rest := isText
    have body := eatUntil_eq (stands.past _ _) '\n' (Lexer.rest_past opened [])
    rw [bind_eq (advance_two stands '/' '/'), bind_eq body, Lexer.past_past,
      Lexer.place_past opened, Checked.after_offset]
    rfl
  · simp only [Form.lineComment?]
    rfl

/-- Every step of the loop passes a character, so that it does not run out of steps. -/
theorem commentEnd_eq (rest : List Char) : ∀ fuel l, rest.length < fuel → l.Stands source →
    l.scan.rest = rest → commentEnd fuel l =
      .ok ((Form.commentBody rest).2, l.past (Form.commentBody rest).1 []) := by
  fun_induction Form.commentBody rest with
  | case1 =>
    rintro (_ | fuel) l enough stands isRest
    · cases enough
    rw [commentEnd, bind_eq (remainder_eq stands isRest)]
    rfl
  | case2 rest =>
    rintro (_ | fuel) l enough stands isRest
    · cases enough
    rw [commentEnd, bind_eq (remainder_eq stands isRest)]
    rfl
  | case3 c rest notEnd body closed read ih =>
    rintro (_ | fuel) l enough stands isRest
    · cases enough
    have passed : l.scan.rest = [c] ++ rest := isRest
    have shorter : rest.length < fuel := Nat.lt_of_succ_lt_succ enough
    generalize isText : c :: rest = text at isRest
    rw [commentEnd, bind_eq (remainder_eq stands isRest)]
    split
    · cases isText
    · next tail =>
      obtain ⟨isStar, isSlash⟩ := List.cons.inj isText
      exact (notEnd tail isStar isSlash).elim
    · rw [bind_eq (advance_one stands c),
        ih fuel _ shorter (stands.past _ _) (Lexer.rest_past passed []), read,
        Lexer.past_past]
      rfl

theorem blockComment_eq (stands : l.Stands source) :
    blockComment l = .ok (l.found (Form.blockComment? l.scan.place l.scan.rest)) := by
  generalize isText : l.scan.rest = text
  rw [blockComment, bind_eq (remainder_eq stands isText)]
  split
  · next rest =>
    have opened : l.scan.rest = ['/', '*'] ++ rest := isText
    have body := commentEnd_eq rest _ _ (Nat.lt_succ_self _) (stands.past _ _)
      (Lexer.rest_past opened [])
    obtain ⟨later, isRest⟩ := Form.commentBody_isPrefix rest
    have inside : (l.past ['/', '*'] []).scan.rest = (Form.commentBody rest).1 ++
        ((if (Form.commentBody rest).2 then ['*', '/'] else []) ++ later) := by
      rw [Lexer.rest_past opened, ← List.append_assoc, isRest]
    have span := spanFrom_eq (stands.past _ _) inside rfl []
    rw [bind_eq (place_eq l), bind_eq (advance_two stands '/' '*'), bind_eq (place_eq _),
      bind_eq body, bind_eq span, Lexer.past_past, Lexer.place_past opened, Checked.after_offset]
    cases isClosed : (Form.commentBody rest).2 with
    | true =>
      rw [if_pos rfl, bind_eq (advance_two (stands.past _ _) '*' '/'), Lexer.past_past]
      simp only [Form.blockComment?, isClosed]
      rfl
    | false =>
      rw [if_neg Bool.false_ne_true, bind_eq (report_eq _ _), Lexer.past_past]
      simp only [Form.blockComment?, isClosed]
      rfl
  · simp only [Form.blockComment?]
    rfl

theorem message_eq (d : Directive) (stands : l.Stands source)
    (behind : l.scan.rest = text ++ rest) :
    message d (l.past text []) =
      .ok (l.found (some (Form.directiveMessage d l.scan.place text rest))) := by
  have afterGap : l.scan.rest = (text ++ rest.takeWhile Text.isInlineBlank) ++
      rest.drop (rest.takeWhile Text.isInlineBlank).length := by
    rw [behind, List.append_assoc, List.prefix_iff_eq_append.mp (List.takeWhile_prefix _)]
  rw [message, bind_eq (eatWhile_eq (stands.past _ _) _ (Lexer.rest_past behind [])),
    Lexer.past_past, bind_eq (eatUntil_eq (stands.past _ _) '\n' (Lexer.rest_past afterGap _)),
    Lexer.past_past,
    Lexer.place_past afterGap]
  rfl

theorem word_eq (stands : l.Stands source) :
    word l = .ok (l.found (Form.word? l.scan.followsHash l.scan.place l.scan.rest)) := by
  generalize isText : l.scan.rest = text
  rw [word, bind_eq (place_eq l), bind_eq (remainder_eq stands isText)]
  cases text with
  | nil => rfl
  | cons c rest =>
    by_cases isStart : Text.isWordStart c = true
    · have isWord : Form.wordText (c :: rest) = c :: rest.takeWhile Text.isWordPart := by
        simp only [Form.wordText, isStart, if_true]
      have behind : l.scan.rest = (c :: rest.takeWhile Text.isWordPart) ++
          rest.drop (rest.takeWhile Text.isWordPart).length := by
        rw [isText, List.cons_append, List.prefix_iff_eq_append.mp (List.takeWhile_prefix _)]
      have passed : l.scan.rest = [c] ++ rest := isText
      have eaten := eatWhile_eq (stands.past _ _) Text.isWordPart (Lexer.rest_past passed [])
      simp only [isStart, Bool.not_true, Bool.false_eq_true, if_false]
      rw [bind_eq (advance_one stands c), bind_eq eaten, Lexer.past_past, List.singleton_append,
        bind_eq (spanFrom_eq stands behind rfl _)]
      simp only [Form.word?, isWord, List.isEmpty_cons, Bool.false_eq_true, if_false, Span.ofChars]
      cases Reserved.ofWord? (String.ofList (c :: rest.takeWhile Text.isWordPart)) with
      | none => rfl
      | some reserved =>
        cases reserved with
        | keyword w => rfl
        | directive d =>
          dsimp only
          rw [bind_eq (followsHash_eq l _ _ _)]
          split
          · exact message_eq d stands behind
          · rfl
    · have notWord : Form.wordText (c :: rest) = [] := by
        simp only [Form.wordText, isStart, Bool.false_eq_true, if_false]
      simp only [isStart, Bool.not_false, if_true, Form.word?, notWord, List.isEmpty_nil]
      rfl

theorem operator_eq (o : Operator) (stands : l.Stands source) :
    operator o l = .ok (l.found (Form.operator? o l.scan.rest)) := by
  generalize isText : l.scan.rest = text
  rw [operator, bind_eq (remainder_eq stands isText), Form.operator?]
  split
  · rw [bind_eq (advance_eq stands o.chars rfl)]
    rfl
  · rfl

theorem brace_eq (b : Brace) (stands : l.Stands source) :
    brace b l = .ok (l.found (Form.brace? b l.scan.rest)) := by
  generalize isText : l.scan.rest = text
  rw [brace, bind_eq (remainder_eq stands isText), Form.brace?]
  split
  · rw [bind_eq (advance_one stands b.char)]
    rfl
  · rfl

theorem number_eq (stands : l.Stands source) :
    number l = .ok (l.found (Form.number? l.scan.place l.scan.rest)) := by
  generalize isText : l.scan.rest = text
  rw [number, bind_eq (place_eq l), bind_eq (remainder_eq stands isText), Form.number?]
  cases isNumber : Form.Numeral.ofText? text with
  | none => rfl
  | some n =>
    have size := (Form.Numeral.ofText?_isWritten isNumber).byteSize_text
    obtain ⟨rest, rfl⟩ := (Form.Numeral.ofText?_text isNumber).1
    dsimp only
    rw [bind_eq (advance_eq stands n.text size.symm), bind_eq (spanFrom_eq stands isText rfl [])]
    rfl

theorem pattern_eq (p : NamedPattern) (stands : l.Stands source) :
    pattern p l = .ok (l.found (Form.pattern? p l.scan.place l.scan.rest)) := by
  generalize isText : l.scan.rest = text
  rw [pattern, bind_eq (place_eq l), bind_eq (remainder_eq stands isText), Form.pattern?]
  cases isMatch : p.program.find? text with
  | none => rfl
  | some found =>
    have length : (text.take found.length).length = found.length :=
      List.length_take_of_le (p.program.isInfix isMatch).length_le
    have isSplit : l.scan.rest = text.take found.length ++ text.drop found.length :=
      isText.trans (List.take_append_drop _ _).symm
    dsimp only
    rw [bind_eq (advance_eq stands _ length), bind_eq (spanFrom_eq stands isSplit rfl [])]
    rfl

theorem hexDigits_eq (n : Nat) (stands : l.Stands source) (isRest : l.scan.rest = rest) :
    hexDigits n l =
      .ok ((rest.take n).takeWhile Form.isHexDigit,
        l.past ((rest.take n).takeWhile Form.isHexDigit) []) := by
  induction n generalizing l rest with
  | zero => rfl
  | succ n ih =>
    rw [hexDigits, bind_eq (remainder_eq stands isRest)]
    cases rest with
    | nil => rfl
    | cons c rest =>
      have passed : l.scan.rest = [c] ++ rest := isRest
      rw [List.take_succ_cons]
      by_cases isDigit : Form.isHexDigit c = true
      · rw [List.takeWhile_cons_of_pos isDigit]
        simp only [isDigit, if_true]
        rw [bind_eq (advance_one stands c),
          bind_eq (ih (stands.past _ _) (Lexer.rest_past passed [])), Lexer.past_past]
        rfl
      · rw [List.takeWhile_cons_of_neg isDigit]
        simp only [isDigit]
        rfl

/-- What a literal reports about one of its pieces. -/
def pieceReports (start : Place) (piece : Form.QuotedPiece) : List Report :=
  if piece.known then []
  else [⟨.unrecognizedEscape, start.line, start.column, piece.text.length⟩]

/-- What is read of an escape behind its backslash. -/
theorem escape_eq (start : Place) (stands : l.Stands source) (isRest : l.scan.rest = rest) :
    escape start l =
      let piece := Form.QuotedPiece.escape rest
      .ok (piece.value, l.past piece.text.tail (pieceReports start piece)) := by
  rw [escape, bind_eq (remainder_eq stands isRest)]
  cases rest with
  | nil => rfl
  | cons c rest =>
    have passed : l.scan.rest = [c] ++ rest := isRest
    simp only [Form.QuotedPiece.escape]
    split
    · rfl
    rw [bind_eq (advance_one stands c)]
    split
    · next isCode =>
      subst isCode
      rw [bind_eq (hexDigits_eq 4 (stands.past _ _) (Lexer.rest_past passed [])), Lexer.past_past,
        Form.QuotedPiece.codeEscape]
      generalize (rest.take 4).takeWhile Form.isHexDigit = digits
      dsimp only
      cases (if digits.length = 4 then
          Form.QuotedPiece.scalar? (Form.Numeral.digitsValue 16 digits)
        else none) with
      | some value => rfl
      | none =>
        rw [if_pos Option.isNone_none, bind_eq (report_eq _ _), Lexer.past_past, List.append_nil]
        rfl
    · cases isEscape : Form.QuotedPiece.simpleEscape? c with
      | some value => rfl
      | none =>
        dsimp only
        rw [bind_eq (report_eq _ _), Lexer.past_past]
        rfl

theorem escapeReports_cons (start : Place) (piece : Form.QuotedPiece)
    (pieces : List Form.QuotedPiece) :
    Form.escapeReports start (piece :: pieces) =
      pieceReports start piece ++ Form.escapeReports (start.after piece.text) pieces := by
  rw [Form.escapeReports, pieceReports]
  split <;> rfl

theorem cons_tail_escape (rest : List Char) :
    '\\' :: (Form.QuotedPiece.escape rest).text.tail = (Form.QuotedPiece.escape rest).text := by
  cases rest with
  | nil => rfl
  | cons c rest =>
    simp only [Form.QuotedPiece.escape, Form.QuotedPiece.codeEscape]
    split
    · rfl
    · split
      · rfl
      · split <;> rfl

theorem piece_eq {c : Char} (stands : l.Stands source) (isRest : l.scan.rest = c :: rest) :
    piece l =
      let first := Form.QuotedPiece.first c rest
      .ok (first.value, l.past first.text (pieceReports l.scan.place first)) := by
  have passed : l.scan.rest = [c] ++ rest := isRest
  rw [piece, bind_eq (place_eq l), bind_eq (remainder_eq stands isRest)]
  dsimp only
  rw [bind_eq (advance_one stands c), Form.QuotedPiece.first]
  split
  · next isBackslash =>
    subst isBackslash
    have isText := cons_tail_escape rest
    rw [escape_eq _ (stands.past _ _) (Lexer.rest_past passed [])]
    simp only [Lexer.past_past, List.singleton_append, List.nil_append, isText]
  · rfl

theorem quotedBody_eq (quote : Char) (rest : List Char) : ∀ fuel l, rest.length < fuel →
    l.Stands source → l.scan.rest = rest →
    quotedBody quote fuel l =
      let pieces := (Form.quotedPieces quote rest).1
      let closed := (Form.quotedPieces quote rest).2
      let stop := l.scan.place.after (pieces.flatMap (·.text))
      .ok (pieces.filterMap (·.value),
        l.past (pieces.flatMap (·.text) ++ if closed then [quote] else [])
          (Form.escapeReports l.scan.place pieces ++
            if closed then [] else [⟨.newlineInConstant, stop.line, stop.column, 1⟩])) := by
  fun_induction Form.quotedPieces quote rest with
  | case1 =>
    rintro (_ | fuel) l enough stands isRest
    · cases enough
    rw [quotedBody, bind_eq (place_eq l), bind_eq (remainder_eq stands isRest)]
    rfl
  | case2 rest =>
    rintro (_ | fuel) l enough stands isRest
    · cases enough
    rw [quotedBody, bind_eq (place_eq l), bind_eq (remainder_eq stands isRest)]
    rfl
  | case3 rest notFeed =>
    rintro (_ | fuel) l enough stands isRest
    · cases enough
    rw [quotedBody, bind_eq (place_eq l), bind_eq (remainder_eq stands isRest)]
    simp only [if_neg notFeed, if_pos]
    rw [bind_eq (advance_one stands quote)]
    rfl
  | case4 c rest notFeed notQuote piece pieces closed read ih =>
    rintro (_ | fuel) l enough stands isRest
    · cases enough
    obtain ⟨later, isSplit⟩ := Form.QuotedPiece.first_isPrefix c rest
    have behind : l.scan.rest = piece.text ++ later := isRest.trans isSplit.symm
    have isLater : (c :: rest).drop piece.text.length = later := by
      rw [← isSplit, List.drop_left]
    have shorter : later.length < fuel := by
      have covers := List.length_pos_iff.mpr (Form.QuotedPiece.first_text_ne_nil c rest)
      have length := congrArg List.length isSplit
      rw [List.length_append] at length
      omega
    rw [isLater] at read ih
    rw [read] at ih
    rw [quotedBody, bind_eq (place_eq l), bind_eq (remainder_eq stands isRest)]
    simp only [if_neg notFeed, if_neg notQuote]
    rw [bind_eq (piece_eq stands isRest),
      bind_eq (ih fuel _ shorter (stands.past _ _) (Lexer.rest_past behind _)),
      Lexer.past_past]
    have values : piece.value.toList ++ pieces.filterMap (·.value) =
        (piece :: pieces).filterMap (·.value) := by
      rw [List.filterMap_cons]
      cases piece.value <;> rfl
    rw [← values, escapeReports_cons, List.flatMap_cons, Lexer.place_past behind,
      Place.after_append, List.append_assoc, List.append_assoc]
    rfl

theorem quoted_eq (quote : Char) (token : String → Token) (stands : l.Stands source) :
    quoted quote token l = .ok (l.found (Form.quoted? quote token l.scan.place l.scan.rest)) := by
  generalize isText : l.scan.rest = text
  rw [quoted, bind_eq (remainder_eq stands isText)]
  cases text with
  | nil => rfl
  | cons c rest =>
    dsimp only
    rw [Form.quoted?]
    split
    · next isQuote =>
      subst isQuote
      have passed : l.scan.rest = [c] ++ rest := isText
      have body := quotedBody_eq c rest _ _ (Nat.lt_succ_self _) (stands.past _ _)
        (Lexer.rest_past passed [])
      rw [bind_eq (advance_one stands c), bind_eq body, Lexer.past_past, Lexer.place_past passed]
      rfl
    · rfl

theorem verbatimBody_eq (opening : Place) (rest : List Char) : ∀ fuel l, rest.length < fuel →
    l.Stands source → l.scan.rest = rest →
    verbatimBody opening fuel l =
      let value := (Form.verbatimBody rest).1
      let closed := (Form.verbatimBody rest).2
      .ok (value,
        l.past (Form.doubleQuotes value ++ if closed then ['"'] else [])
          (if closed then [] else [⟨.unterminatedString, opening.line, opening.column, 2⟩])) := by
  fun_induction Form.verbatimBody rest with
  | case1 =>
    rintro (_ | fuel) l enough stands isRest
    · cases enough
    rw [verbatimBody, bind_eq (remainder_eq stands isRest)]
    rfl
  | case2 rest value closed read ih =>
    rintro (_ | fuel) l enough stands isRest
    · cases enough
    have passed : l.scan.rest = ['"'] ++ ('"' :: rest) := isRest
    have passedBoth : l.scan.rest = (['"'] ++ ['"']) ++ rest := isRest
    have shorter : rest.length < fuel := by
      simp only [List.length_cons] at enough
      omega
    rw [verbatimBody, bind_eq (remainder_eq stands isRest)]
    dsimp only
    rw [bind_eq (advance_one stands '"'), if_pos rfl,
      bind_eq (remainder_eq (stands.past _ _) (Lexer.rest_past passed [])),
      if_pos List.head?_cons, bind_eq (advance_one (stands.past _ _) '"'), Lexer.past_past,
      bind_eq (ih fuel _ shorter (stands.past _ _) (Lexer.rest_past passedBoth _)),
      Lexer.past_past, read]
    rfl
  | case3 rest notDouble =>
    rintro (_ | fuel) l enough stands isRest
    · cases enough
    have passed : l.scan.rest = ['"'] ++ rest := isRest
    have notQuote : rest.head? ≠ some '"' := by
      intro isQuote
      obtain ⟨tail, rfl⟩ := List.head?_eq_some_iff.mp isQuote
      exact notDouble tail rfl rfl
    rw [verbatimBody, bind_eq (remainder_eq stands isRest)]
    dsimp only
    rw [bind_eq (advance_one stands '"'), if_pos rfl,
      bind_eq (remainder_eq (stands.past _ _) (Lexer.rest_past passed [])), if_neg notQuote]
    rfl
  | case4 c rest notDouble notQuote value closed read ih =>
    rintro (_ | fuel) l enough stands isRest
    · cases enough
    have passed : l.scan.rest = [c] ++ rest := isRest
    rw [verbatimBody, bind_eq (remainder_eq stands isRest)]
    dsimp only
    rw [bind_eq (advance_one stands c), if_neg notQuote,
      bind_eq (ih fuel _ (Nat.lt_of_succ_lt_succ enough) (stands.past _ _)
        (Lexer.rest_past passed [])),
      Lexer.past_past, read]
    simp only [Form.doubleQuotes, List.flatMap_cons, if_neg notQuote]
    rfl

theorem verbatimString_eq (stands : l.Stands source) :
    verbatimString l = .ok (l.found (Form.verbatimString? l.scan.place l.scan.rest)) := by
  generalize isText : l.scan.rest = text
  rw [verbatimString, bind_eq (place_eq l), bind_eq (remainder_eq stands isText)]
  split
  · next rest =>
    have opened : l.scan.rest = ['@', '"'] ++ rest := isText
    have body := verbatimBody_eq l.scan.place rest _ _ (Nat.lt_succ_self _)
      (stands.past _ _) (Lexer.rest_past opened [])
    rw [bind_eq (advance_two stands '@' '"'), bind_eq body, Lexer.past_past]
    rfl
  · simp only [Form.verbatimString?]
    rfl

/-- By hand a form finds what it finds, and leaves the lexer that it leaves. -/
theorem recognize_eq (stands : l.Stands source) (form : Form) :
    recognize form l = .ok (l.recognize form).swap := by
  have found : (l.recognize form).swap = l.found (l.scan.recognize form) := by
    rw [Lexer.recognize]
    cases l.scan.recognize form <;> rfl
  rw [found]
  cases form with
  | whitespace => exact whitespace_eq stands
  | lineComment => exact lineComment_eq stands
  | blockComment => exact blockComment_eq stands
  | word => exact word_eq stands
  | operator o => exact operator_eq o stands
  | brace b => exact brace_eq b stands
  | number => exact number_eq stands
  | char => exact quoted_eq '\'' .char stands
  | string => exact quoted_eq '"' .string stands
  | verbatimString => exact verbatimString_eq stands
  | pattern p => exact pattern_eq p stands

end Handler

/-! ## Any moves -/

/-- A move as a program. A run has the faults of a scan whose cursor can fail. -/
def CursorMove.byHand : CursorMove → Handler Unit
  | .advance n => Handler.advance n
  | .eatBlanks => do let _ ← Handler.eatWhile Text.isBlank
  | .eatInlineBlanks => do let _ ← Handler.eatWhile Text.isInlineBlank
  | .eatUntil c => do let _ ← Handler.eatUntil c
  | .run => fun l => do
    let _ ← Checked.run l
    return ((), l.run.1)
  | .recognize form => do let _ ← Handler.recognize form

theorem CursorMove.byHand_eq {l : Lexer} {source : SourceText} (stands : l.Stands source)
    (move : CursorMove) : move.byHand l = .ok ((), l.perform move) := by
  cases move with
  | advance n => exact Handler.advance_move stands n
  | eatBlanks =>
    rw [byHand, Handler.bind_eq (Handler.eatWhile_eq stands _ rfl)]
    rfl
  | eatInlineBlanks =>
    rw [byHand, Handler.bind_eq (Handler.eatWhile_eq stands _ rfl)]
    rfl
  | eatUntil c =>
    rw [byHand, Handler.bind_eq (Handler.eatUntil_eq stands c rfl)]
    rfl
  | run =>
    simp only [byHand, Checked.run_eq stands.isSource stands.isAt.short, Checked.ok_bind]
    rfl
  | recognize form =>
    rw [byHand, Handler.bind_eq (Handler.recognize_eq stands form)]
    rfl

theorem Lexer.Stands.forM_byHand {l : Lexer} {source : SourceText} (stands : l.Stands source)
    (moves : List CursorMove) :
    forM moves CursorMove.byHand l = .ok ((), moves.foldl Lexer.perform l) := by
  induction moves generalizing l with
  | nil => rfl
  | cons move moves ih =>
    rw [List.forM_cons, Handler.bind_eq (CursorMove.byHand_eq stands move)]
    exact ih (stands.perform move)

/-- The cursor stands behind the text that it has seen, between two characters of the source, and
its counters are counts of that text. They fit in 32 bits. -/
structure Lexer.StandsBehind (source seen : List Char) (l : Lexer) : Prop where
  split_eq : splitBytes? l.scan.place.offset source = some (seen, l.remainder)
  offset_le : l.scan.place.offset ≤ byteSize source
  line_eq : l.scan.place.line = 1 + seen.count '\n'
  column_eq : l.scan.place.column = 1 + (seen.reverse.takeWhile (· != '\n')).length
  line_lt : l.scan.place.line < UInt32.size
  column_lt : l.scan.place.column < UInt32.size

theorem Lexer.Stands.exists_standsBehind {l : Lexer} {source : SourceText}
    (stands : l.Stands source) : ∃ seen, l.StandsBehind source.chars seen := by
  obtain ⟨seen, isSplit, isPlace⟩ := stands.place_eq
  refine ⟨seen, isSplit, ?_, ?_, ?_, stands.isAt.line_lt, ?_⟩
  · have size := congrArg byteSize (splitBytes?_eq_append isSplit)
    rw [byteSize_append] at size
    rw [isPlace]
    exact size ▸ Nat.le_add_right _ _
  · rw [isPlace, lineAfter]
  · rw [isPlace, columnAfter]
  · exact Nat.lt_of_le_of_lt (Nat.le_add_right _ _) stands.isAt.column_lt

/-- **Whatever is done with the cursor, it stands in the source text** and its counters count the
text before it. None of the moves has a fault, and a form that finds nothing leaves the lexer as it
was, though nothing that it did is taken back. -/
theorem stands_of_moves (l : Lexer) (file raw : String) (moves : List CursorMove)
    (short : raw.length < UInt32.size - 1) :
    ∃ t seen, forM moves CursorMove.byHand (l.setInput file raw) = .ok ((), t) ∧
      t = moves.foldl Lexer.perform (l.setInput file raw) ∧
      t.StandsBehind (normalize raw.toList) seen ∧
      ∀ form, Handler.recognize form t = .ok (t.recognize form).swap ∧
        ∀ u, Handler.recognize form t = .ok (none, u) → u = t := by
  have begins := Lexer.stands_setInput l file raw (normalize_short short)
  have stands := begins.foldl_perform moves
  obtain ⟨seen, behind⟩ := stands.exists_standsBehind
  refine ⟨_, seen, begins.forM_byHand moves, rfl, behind, ?_⟩
  intro form
  have same := Handler.recognize_eq stands form
  refine ⟨same, ?_⟩
  intro u notFound
  rw [same, Lexer.recognize] at notFound
  split at notFound
  · cases notFound
    rfl
  · cases notFound

/-- A word of two bytes, a line feed, a pattern, a form that finds nothing, a literal without an end
and a move past the end of the text. -/
theorem stands_of_moves_letters :
    let letters : NamedPattern :=
      { name := "letters", program := (Pattern.Program.ofText? "[a-z]+").get (by decide +kernel)
        trigger := none, priority := 0 }
    let moves : List CursorMove :=
      [.eatInlineBlanks, .recognize .word, .eatBlanks, .recognize (.pattern letters),
        .recognize .string, .recognize .char, .advance 3]
    let l := (Lexer.ofCatalog []).setInput "main.cs" "\té\r\nab'\\q"
    "\té\r\nab'\\q".length < UInt32.size - 1 ∧
      (moves.foldl Lexer.perform l).scan.place = ⟨9, 2, 6⟩ ∧
      ∃ t seen, forM moves CursorMove.byHand l = .ok ((), t) ∧
        t = moves.foldl Lexer.perform l ∧
        t.StandsBehind (normalize "\té\r\nab'\\q".toList) seen ∧
        ∀ form, Handler.recognize form t = .ok (t.recognize form).swap ∧
          ∀ u, Handler.recognize form t = .ok (none, u) → u = t :=
  ⟨by decide, by decide +kernel, stands_of_moves _ _ _ _ (by decide)⟩

end SharpFront
