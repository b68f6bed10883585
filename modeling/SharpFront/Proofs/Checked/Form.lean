import SharpFront.Proofs.Checked.Cursor
import SharpFront.Proofs.Form.Covered
import SharpFront.Proofs.Form.Number

/-!
# Forms on a cursor that can fail

Each form again as it moves the cursor: character by character, a number by its bytes, with its spans
cut out of the source text between two places of the cursor.

* `recognize_eq`: from where the cursor can stand no form fails, and each finds what it finds in the
  text that remains.
-/

namespace SharpFront

/-- What a form finds, and where the cursor stands then. -/
structure Hit where
  token : Token
  stop : Place
  reports : List Report := []
  deriving DecidableEq, Repr

def Lexeme.hit (l : Lexeme) (p : Place) : Hit := ⟨l.token, p.after l.text, l.reports⟩

namespace Checked

/-! ## The forms -/

section

variable (source : List Char) (p : Place)

def whitespace : Checked (Option Hit) := do
  let (stop, n) ← eatWhile source Text.isBlank p
  return if n = 0 then none else some { token := .whitespace, stop }

def lineComment : Checked (Option Hit) := do
  match ← textFrom p.offset source with
  | '/' :: '/' :: _ =>
    let start ← advanceBy source 2 p
    let (stop, _) ← eatWhile source (· != '\n') start
    return some { token := .lineComment (← cut source start.offset stop.offset), stop }
  | _ => return none

def blockComment : Checked (Option Hit) := do
  match ← textFrom p.offset source with
  | '/' :: '*' :: _ =>
    let start ← advanceBy source 2 p
    let (body, closed) := Form.commentBody (← textFrom start.offset source)
    let stop ← advanceBy source body.length start
    let text ← cut source start.offset stop.offset
    if closed then return some { token := .blockComment text, stop := ← advanceBy source 2 stop }
    else
      let unterminated := ⟨.unterminatedComment, p.line, p.column, 2⟩
      return some { token := .blockComment text, stop, reports := [unterminated] }
  | _ => return none

/-- The message after a directive word that ends at `p`. -/
def message (d : Directive) : Checked (Option Hit) := do
  let (start, _) ← eatWhile source Text.isInlineBlank p
  let (stop, _) ← eatWhile source (· != '\n') start
  return some { token := .directiveMessage d (← cut source start.offset stop.offset), stop }

def word (followsHash : Nat → Bool) : Checked (Option Hit) := do
  match ← textFrom p.offset source with
  | [] => return none
  | c :: _ =>
    if !Text.isWordStart c then return none
    else
      let (stop, _) ← eatWhile source Text.isWordPart (← advance source p)
      let word ← cut source p.offset stop.offset
      match Reserved.ofWord? word.text with
      | some (.directive d) =>
        if d.takesMessage && followsHash p.line then message source stop d
        else return some { token := .directive d, stop }
      | some (.keyword w) => return some { token := .keyword w, stop }
      | none => return some { token := .identifier word, stop }

def operator (o : Operator) : Checked (Option Hit) := do
  if o.chars.isPrefixOf (← textFrom p.offset source) then
    return some { token := .operator o, stop := ← advanceBy source o.chars.length p }
  else return none

def brace (b : Brace) : Checked (Option Hit) := do
  if (← textFrom p.offset source).head? = some b.char then
    return some { token := .brace b, stop := ← advance source p }
  else return none

/-- The cursor moves by as many characters as the number has bytes. The zero in front of an octal
number is cut off as a byte. -/
def number : Checked (Option Hit) := do
  match Form.Numeral.ofText? (← textFrom p.offset source) with
  | none => return none
  | some n =>
    let stop ← advanceBy source (byteSize n.text) p
    let text ← cut source p.offset stop.offset
    let _ ← if n.base = 8 then textFrom 1 n.text else pure n.text
    return some { token := .number ⟨n.value, n.base, n.isFraction, text⟩, stop }

/-- The pieces of a literal, with the unknown escapes among them. -/
def quotedPieces : List Form.QuotedPiece → Place → Checked (Place × List Report)
  | [], p => return (p, [])
  | piece :: pieces, p => do
    let (stop, later) ← quotedPieces pieces (← advanceBy source piece.text.length p)
    if piece.known then return (stop, later)
    else return (stop, ⟨.unrecognizedEscape, p.line, p.column, piece.text.length⟩ :: later)

def quoted (quote : Char) (token : String → Token) : Checked (Option Hit) := do
  if (← textFrom p.offset source).head? = some quote then
    let start ← advance source p
    let (pieces, closed) := Form.quotedPieces quote (← textFrom start.offset source)
    let (stop, reports) ← quotedPieces source pieces start
    let token := token (String.ofList (pieces.filterMap (·.value)))
    if closed then return some { token, stop := ← advance source stop, reports }
    else
      let unended := ⟨.newlineInConstant, stop.line, stop.column, 1⟩
      return some { token, stop, reports := reports ++ [unended] }
  else return none

def verbatimString : Checked (Option Hit) := do
  match ← textFrom p.offset source with
  | '@' :: '"' :: _ =>
    let start ← advanceBy source 2 p
    let (value, closed) := Form.verbatimBody (← textFrom start.offset source)
    let stop ← advanceBy source (Form.doubleQuotes value).length start
    let token := .verbatimString (String.ofList value)
    if closed then return some { token, stop := ← advance source stop }
    else
      let unterminated := ⟨.unterminatedString, p.line, p.column, 2⟩
      return some { token, stop, reports := [unterminated] }
  | _ => return none

def pattern (n : NamedPattern) : Checked (Option Hit) := do
  match n.program.find? (← textFrom p.offset source) with
  | none => return none
  | some found =>
    let stop ← advanceBy source found.length p
    return some { token := .custom n.name (← cut source p.offset stop.offset), stop }

def recognize (followsHash : Nat → Bool) : Form → Checked (Option Hit)
  | .whitespace => whitespace source p
  | .lineComment => lineComment source p
  | .blockComment => blockComment source p
  | .word => word source p followsHash
  | .operator o => operator source p o
  | .brace b => brace source p b
  | .number => number source p
  | .char => quoted source p '\'' .char
  | .string => quoted source p '"' .string
  | .verbatimString => verbatimString source p
  | .pattern n => pattern source p n

end

/-! ## None of them fails -/

variable {source rest : List Char} {p : Place}

theorem whitespace_eq (h : At source p rest) :
    whitespace source p = .ok ((Form.whitespace? rest).map (·.hit p)) := by
  simp only [whitespace, Form.whitespace?, h.eatWhile_eq, ok_bind, pure_eq_ok]
  by_cases isEmpty : rest.takeWhile Text.isBlank = []
  · simp only [isEmpty, List.length_nil, List.isEmpty_nil, if_true, Option.map_none]
  · have length : (rest.takeWhile Text.isBlank).length ≠ 0 := fun h =>
      isEmpty (List.length_eq_zero_iff.mp h)
    have notEmpty := List.isEmpty_eq_false_iff.mpr isEmpty
    simp only [length, notEmpty, Bool.false_eq_true, if_false, Option.map_some, Lexeme.hit]

/-- What the cursor passes by eating can be cut out. -/
theorem At.eaten (isIn : Char → Bool) (h : At source p rest) :
    At source p (rest.takeWhile isIn ++ rest.drop (rest.takeWhile isIn).length) := by
  rwa [List.prefix_iff_eq_append.mp (List.takeWhile_prefix isIn)]

theorem lineComment_eq (h : At source p rest) :
    lineComment source p = .ok ((Form.lineComment? p rest).map (·.hit p)) := by
  simp only [lineComment, h.textFrom_eq, ok_bind]
  split
  · next rest =>
    have marked : At source p (['/', '/'] ++ rest) := h
    have start : advanceBy source 2 p = .ok (p.after ['/', '/']) := marked.advanceBy_eq
    have offset : (p.after ['/', '/']).offset = p.offset + 2 := after_offset p ['/', '/']
    have body := (marked.after.eaten (· != '\n')).cut_eq
    rw [offset] at body
    simp only [start, ok_bind, marked.after.eatWhile_eq, offset, body]
    rfl
  · have notFound : Form.lineComment? p rest = none := by simp only [Form.lineComment?]
    rw [notFound]
    rfl

theorem blockComment_eq (h : At source p rest) :
    blockComment source p = .ok ((Form.blockComment? p rest).map (·.hit p)) := by
  simp only [blockComment, h.textFrom_eq, ok_bind]
  split
  · next rest =>
    have marked : At source p (['/', '*'] ++ rest) := h
    have start : advanceBy source 2 p = .ok (p.after ['/', '*']) := marked.advanceBy_eq
    have offset : (p.after ['/', '*']).offset = p.offset + 2 := after_offset p ['/', '*']
    obtain ⟨later, isRest⟩ := Form.commentBody_isPrefix rest
    have inside := marked.after
    rw [← isRest, List.append_assoc] at inside
    have isInside := marked.after.textFrom_eq
    have text := inside.cut_eq
    rw [offset] at isInside text
    simp only [start, ok_bind, offset, isInside, inside.advanceBy_eq, text, Form.blockComment?]
    cases isClosed : (Form.commentBody rest).2 with
    | true =>
      rw [isClosed] at inside
      have stop : advanceBy source 2 ((p.after ['/', '*']).after (Form.commentBody rest).1) =
          .ok (((p.after ['/', '*']).after (Form.commentBody rest).1).after ['*', '/']) :=
        inside.after.advanceBy_eq
      simp only [Place.after_cons, Place.after_nil] at stop
      simp only [if_true, stop, ok_bind, pure_eq_ok, Option.map_some, Lexeme.hit,
        Place.after_append, Place.after_cons, Place.after_nil]
    | false =>
      simp only [Bool.false_eq_true, if_false, pure_eq_ok, Option.map_some, Lexeme.hit,
        List.append_nil, Place.after_cons, Place.after_nil]
  · have notFound : Form.blockComment? p rest = none := by simp only [Form.blockComment?]
    rw [notFound]
    rfl

theorem message_eq (d : Directive) (h : At source p rest) :
    message source p d =
      let gap := rest.takeWhile Text.isInlineBlank
      let text := Form.restOfLine (rest.drop gap.length)
      .ok (some {
        token := .directiveMessage d (.ofChars (p.after gap).offset text)
        stop := (p.after gap).after text }) := by
  have afterGap := (h.eaten Text.isInlineBlank).after
  have text := (afterGap.eaten (· != '\n')).cut_eq
  simp only [message, h.eatWhile_eq, afterGap.eatWhile_eq, ok_bind, text]
  rfl

theorem word_eq (followsHash : Nat → Bool) (h : At source p rest) :
    word source p followsHash = .ok ((Form.word? followsHash p rest).map (·.hit p)) := by
  simp only [word, Form.word?, h.textFrom_eq, ok_bind]
  cases rest with
  | nil => rfl
  | cons c rest =>
    by_cases isStart : Text.isWordStart c = true
    · have isWord : Form.wordText (c :: rest) = c :: rest.takeWhile Text.isWordPart := by
        simp only [Form.wordText, isStart, if_true]
      have next : At source (p.step c) rest := At.after (show At source p ([c] ++ rest) from h)
      have covered : At source p (c :: rest.takeWhile Text.isWordPart ++
          rest.drop (rest.takeWhile Text.isWordPart).length) := by
        rwa [List.cons_append, List.prefix_iff_eq_append.mp (List.takeWhile_prefix _)]
      have cut := covered.cut_eq
      rw [Place.after_cons] at cut
      simp only [isStart, Bool.not_true, Bool.false_eq_true, if_false, h.advance_eq, ok_bind,
        next.eatWhile_eq, cut, isWord, Span.ofChars, List.isEmpty_cons]
      cases Reserved.ofWord? (String.ofList (c :: rest.takeWhile Text.isWordPart)) with
      | none => rfl
      | some reserved =>
        cases reserved with
        | keyword w => rfl
        | directive d =>
          have found := message_eq d covered.after
          rw [Place.after_cons] at found
          simp only [found]
          split
          · simp only [Option.map_some, Lexeme.hit, Form.directiveMessage, Place.after_append,
              Place.after_cons, List.length_cons, List.drop_succ_cons]
          · rfl
    · have notWord : Form.wordText (c :: rest) = [] := by
        simp only [Form.wordText, isStart, Bool.false_eq_true, if_false]
      simp only [isStart, Bool.not_false, if_true, notWord, List.isEmpty_nil, pure_eq_ok,
        Option.map_none]

theorem operator_eq (o : Operator) (h : At source p rest) :
    operator source p o = .ok ((Form.operator? o rest).map (·.hit p)) := by
  simp only [operator, Form.operator?, h.textFrom_eq, ok_bind]
  split
  · next isPrefix =>
    obtain ⟨rest, rfl⟩ := List.isPrefixOf_iff_prefix.mp isPrefix
    simp only [h.advanceBy_eq, ok_bind, pure_eq_ok, Option.map_some, Lexeme.hit]
  · rfl

theorem brace_eq (b : Brace) (h : At source p rest) :
    brace source p b = .ok ((Form.brace? b rest).map (·.hit p)) := by
  simp only [brace, Form.brace?, h.textFrom_eq, ok_bind]
  split
  · next isFirst =>
    obtain ⟨rest, rfl⟩ := List.head?_eq_some_iff.mp isFirst
    simp only [h.advance_eq, ok_bind, pure_eq_ok, Option.map_some, Lexeme.hit, Place.after_cons,
      Place.after_nil]
  · rfl

theorem number_eq (h : At source p rest) :
    number source p = .ok ((Form.number? p rest).map (·.hit p)) := by
  simp only [number, Form.number?, h.textFrom_eq, ok_bind]
  cases isNumber : Form.Numeral.ofText? rest with
  | none => rfl
  | some n =>
    have isWritten := Form.Numeral.ofText?_isWritten isNumber
    obtain ⟨rest, rfl⟩ := (Form.Numeral.ofText?_text isNumber).1
    simp only [isWritten.byteSize_text, h.advanceBy_eq, h.cut_eq, ok_bind]
    split
    · next isOctal =>
      obtain ⟨digits, isText⟩ := isWritten.exists_of_octal isOctal
      have isSplit : splitBytes? 1 ('0' :: digits) = some (['0'], digits) :=
        splitBytes?_byteSize ['0'] digits
      have noZero : textFrom 1 n.text = .ok digits := by rw [isText, textFrom, isSplit]
      simp only [noZero, ok_bind, pure_eq_ok, Option.map_some, Lexeme.hit]
    · simp only [ok_bind, pure_eq_ok, Option.map_some, Lexeme.hit]

theorem pattern_eq (n : NamedPattern) (h : At source p rest) :
    pattern source p n = .ok ((Form.pattern? n p rest).map (·.hit p)) := by
  simp only [pattern, Form.pattern?, h.textFrom_eq, ok_bind]
  cases isMatch : n.program.find? rest with
  | none => rfl
  | some found =>
    -- the match is no longer than the text in which it is found
    have length : (rest.take found.length).length = found.length :=
      List.length_take_of_le (n.program.isInfix isMatch).length_le
    rw [← List.take_append_drop found.length rest] at h
    have stop := h.advanceBy_eq
    rw [length] at stop
    simp only [stop, h.cut_eq, ok_bind, pure_eq_ok, Option.map_some, Lexeme.hit]

theorem quotedPieces_eq {pieces : List Form.QuotedPiece}
    (h : At source p (pieces.flatMap (·.text) ++ rest)) :
    quotedPieces source pieces p =
      .ok (p.after (pieces.flatMap (·.text)), Form.escapeReports p pieces) := by
  induction pieces generalizing p with
  | nil => rfl
  | cons piece pieces ih =>
    rw [List.flatMap_cons, List.append_assoc] at h
    simp only [quotedPieces, h.advanceBy_eq, ih h.after, ok_bind, List.flatMap_cons,
      Place.after_append, Form.escapeReports]
    split <;> rfl

theorem quoted_eq (quote : Char) (token : String → Token) (h : At source p rest) :
    quoted source p quote token = .ok ((Form.quoted? quote token p rest).map (·.hit p)) := by
  simp only [quoted, h.textFrom_eq, ok_bind]
  cases rest with
  | nil => rfl
  | cons c rest =>
    by_cases isQuote : c = quote
    · subst isQuote
      have start : At source (p.step c) rest := At.after (show At source p ([c] ++ rest) from h)
      obtain ⟨later, isRest⟩ := Form.quotedPieces_isPrefix c rest
      have inside := start
      rw [← isRest, List.append_assoc] at inside
      simp only [List.head?_cons, if_true, h.advance_eq, ok_bind, start.textFrom_eq,
        quotedPieces_eq inside, Form.quoted?, Option.map_some, Lexeme.hit, Place.after_append,
        Place.after_cons]
      cases isClosed : (Form.quotedPieces c rest).2 with
      | true =>
        rw [isClosed] at inside
        have stop := At.advance_eq inside.after
        simp only [if_true, stop, ok_bind, pure_eq_ok, List.append_nil, Place.after_cons,
          Place.after_nil]
      | false =>
        simp only [Bool.false_eq_true, if_false, pure_eq_ok, Place.after_nil]
    · have notFirst : ¬ (c :: rest).head? = some quote := fun h => isQuote (Option.some.inj h)
      simp only [notFirst, if_false, Form.quoted?, isQuote, pure_eq_ok, Option.map_none]

theorem verbatimString_eq (h : At source p rest) :
    verbatimString source p = .ok ((Form.verbatimString? p rest).map (·.hit p)) := by
  simp only [verbatimString, h.textFrom_eq, ok_bind]
  split
  · next rest =>
    have marked : At source p (['@', '"'] ++ rest) := h
    have start : advanceBy source 2 p = .ok (p.after ['@', '"']) := marked.advanceBy_eq
    obtain ⟨later, isRest⟩ := Form.verbatimBody_isPrefix rest
    have inside := marked.after
    rw [← isRest, List.append_assoc] at inside
    simp only [start, ok_bind, marked.after.textFrom_eq, inside.advanceBy_eq, Form.verbatimString?]
    cases isClosed : (Form.verbatimBody rest).2 with
    | true =>
      rw [isClosed] at inside
      have stop := At.advance_eq inside.after
      simp only [Place.after_cons, Place.after_nil] at stop
      simp only [if_true, stop, ok_bind, pure_eq_ok, Option.map_some, Lexeme.hit,
        Place.after_append, Place.after_cons, Place.after_nil]
    | false =>
      simp only [Bool.false_eq_true, if_false, pure_eq_ok, Option.map_some, Lexeme.hit,
        List.append_nil, Place.after_cons, Place.after_nil]
  · have notFound : Form.verbatimString? p rest = none := by simp only [Form.verbatimString?]
    rw [notFound]
    rfl

theorem recognize_eq (followsHash : Nat → Bool) (form : Form) (h : At source p rest) :
    recognize source p followsHash form =
      .ok ((form.recognize followsHash p rest).map (·.hit p)) := by
  cases form with
  | whitespace => exact whitespace_eq h
  | lineComment => exact lineComment_eq h
  | blockComment => exact blockComment_eq h
  | word => exact word_eq followsHash h
  | operator o => exact operator_eq o h
  | brace b => exact brace_eq b h
  | number => exact number_eq h
  | char => exact quoted_eq '\'' .char h
  | string => exact quoted_eq '"' .string h
  | verbatimString => exact verbatimString_eq h
  | pattern n => exact pattern_eq n h

end Checked

end SharpFront
