import Mathlib.Data.List.Forall2
import Mathlib.Data.List.TakeWhile
import SharpFront.Form.Recognize
import SharpFront.Proofs.Form.Number

/-!
# Spellings between quotes

Between quotes a character can be written as itself, by its escape if it has one, or by its code.
However the characters of a text are written, a quoted literal reads the text, reports nothing and
ends at its quote.

* `Spelling`: the ways to write a character;
* `Spelling.first_eq`: what is read of one spelling does not depend on what follows it;
* `recognize_of_spellings`: what is read of a whole literal.
-/

namespace SharpFront

/-- The quotes of literals on one line. -/
inductive Quote where
  | single
  | double
  deriving DecidableEq, Repr

namespace Quote

def mark : Quote → Char
  | single => '\''
  | double => '"'

def form : Quote → Form
  | single => .char
  | double => .string

def token : Quote → String → Token
  | single => .char
  | double => .string

/-- The text between two of the quotes. -/
def enclose (quote : Quote) (text : List Char) : List Char := quote.mark :: text ++ [quote.mark]

end Quote

namespace Form

/-- What stands after the backslash of an escape, and the character that the escape stands for. -/
def escapeMarks : List (Char × Char) := [
  ('n', '\n'), ('r', '\r'), ('t', '\t'), ('f', '\x0c'), ('0', '\x00'), ('\\', '\\'), ('"', '"'),
  ('\'', '\'')]

/-- The digits of base 16, each at its value. -/
def hexDigits : List Char :=
  ['0', '1', '2', '3', '4', '5', '6', '7', '8', '9', 'a', 'b', 'c', 'd', 'e', 'f']

/-- The digit has the value, in either case. -/
def IsHexDigitOf (value : Nat) (digit : Char) : Prop :=
  hexDigits[value]? = some digit ∨ (hexDigits.map Char.toUpper)[value]? = some digit

/-- The text is a way to write the character between two of the quotes. -/
inductive Spelling (quote : Quote) : Char → List Char → Prop where
  | itself {c : Char} (allowed : c ∉ [quote.mark, '\\', '\n', '\r', '\x00']) : Spelling quote c [c]
  | escape {mark c : Char} (isMark : (mark, c) ∈ escapeMarks) : Spelling quote c ['\\', mark]
  | code {c : Char} {values : List Nat} {digits : List Char} (four : digits.length = 4)
    (areDigits : List.Forall₂ IsHexDigitOf values digits)
    (isCode : values.foldl (fun code value => code * 16 + value) 0 = c.toNat) :
    Spelling quote c ('\\' :: 'u' :: digits)

/-! ## Digits and codes -/

theorem IsHexDigitOf.digit {value : Nat} {digit : Char} (h : IsHexDigitOf value digit) :
    isHexDigit digit = true ∧ digitValue digit = value := by
  have lower : ∀ entry ∈ hexDigits.zipIdx,
      isHexDigit entry.1 = true ∧ digitValue entry.1 = entry.2 := by decide
  have upper : ∀ entry ∈ (hexDigits.map Char.toUpper).zipIdx,
      isHexDigit entry.1 = true ∧ digitValue entry.1 = entry.2 := by decide
  rcases h with isDigit | isDigit
  · exact lower _ (List.mk_mem_zipIdx_iff_getElem?.mpr isDigit)
  · exact upper _ (List.mk_mem_zipIdx_iff_getElem?.mpr isDigit)

section
variable {values : List Nat} {digits : List Char}

theorem isHexDigit_of_areDigits (h : List.Forall₂ IsHexDigitOf values digits) :
    ∀ digit ∈ digits, isHexDigit digit = true := by
  induction h with
  | nil => exact List.forall_mem_nil _
  | cons isDigit _ ih => exact List.forall_mem_cons.mpr ⟨isDigit.digit.1, ih⟩

theorem digitsValue_of_areDigits (h : List.Forall₂ IsHexDigitOf values digits) :
    Numeral.digitsValue 16 digits = values.foldl (fun code value => code * 16 + value) 0 := by
  have values_eq : digits.map digitValue = values := by
    induction h with
    | nil => rfl
    | cons isDigit _ ih => rw [List.map_cons, isDigit.digit.2, ih]
  rw [Numeral.digitsValue, ← values_eq, List.foldl_map]

end

theorem QuotedPiece.scalar?_toNat (c : Char) : scalar? c.toNat = some c := by
  have valid : c.toNat.isValidChar := c.valid
  rw [scalar?, dif_pos valid]
  rfl

/-! ## One spelling -/

variable {quote : Quote} {c : Char} {text : List Char}

/-- What is read of a spelling, whatever follows it. -/
theorem Spelling.first_eq (h : Spelling quote c text) (rest : List Char) :
    ∃ d tail, text = d :: tail ∧ d ≠ '\n' ∧ d ≠ quote.mark ∧
      QuotedPiece.first d (tail ++ rest) = ⟨text, some c, true⟩ := by
  have notQuote : '\\' ≠ quote.mark := by cases quote <;> decide
  cases h with
  | itself allowed =>
    simp only [List.mem_cons, List.not_mem_nil, or_false, not_or] at allowed
    obtain ⟨notQuote, notEscape, notFeed, -, -⟩ := allowed
    exact ⟨c, [], rfl, notFeed, notQuote, if_neg notEscape⟩
  | @escape mark c isMark =>
    have read : ∀ entry ∈ escapeMarks,
        entry.1 ≠ '\n' ∧ entry.1 ≠ 'u' ∧ QuotedPiece.simpleEscape? entry.1 = some entry.2 := by
      decide
    obtain ⟨notFeed, notCode, isEscape⟩ := read _ isMark
    refine ⟨'\\', [mark], rfl, by decide, notQuote, ?_⟩
    simp only [QuotedPiece.first, QuotedPiece.escape, List.singleton_append, if_true,
      if_neg notFeed, if_neg notCode, isEscape]
  | @code c values digits four areDigits isCode =>
    have areHex := isHexDigit_of_areDigits areDigits
    have taken : ((digits ++ rest).take 4).takeWhile isHexDigit = digits := by
      rw [← four, List.take_left, List.takeWhile_eq_self_iff.mpr areHex]
    refine ⟨'\\', 'u' :: digits, rfl, by decide, notQuote, ?_⟩
    have notFeed : 'u' ≠ '\n' := by decide
    simp only [QuotedPiece.first, QuotedPiece.escape, QuotedPiece.codeEscape, List.cons_append,
      if_true, if_neg notFeed, taken, four, digitsValue_of_areDigits areDigits, isCode,
      QuotedPiece.scalar?_toNat, Option.isSome_some]

/-- A spelling holds nothing that a source text cannot hold. -/
theorem Spelling.plain (h : Spelling quote c text) : ∀ d ∈ text, d ≠ '\r' ∧ d ≠ '\x00' := by
  cases h with
  | itself allowed =>
    simp only [List.mem_cons, List.not_mem_nil, or_false, not_or] at allowed
    exact List.forall_mem_singleton.mpr allowed.2.2.2
  | @escape mark c isMark =>
    have plain : ∀ entry ∈ escapeMarks, entry.1 ≠ '\r' ∧ entry.1 ≠ '\x00' := by decide
    exact List.forall_mem_cons.mpr ⟨by decide, List.forall_mem_singleton.mpr (plain _ isMark)⟩
  | @code c values digits four areDigits isCode =>
    refine List.forall_mem_cons.mpr ⟨by decide, List.forall_mem_cons.mpr ⟨by decide, ?_⟩⟩
    intro d isChar
    have isHex := isHexDigit_of_areDigits areDigits d isChar
    constructor
    · rintro rfl
      exact absurd isHex (by decide)
    · rintro rfl
      exact absurd isHex (by decide)

/-! ## All spellings of a literal -/

theorem quotedPieces_spelling (h : Spelling quote c text) (rest : List Char) :
    quotedPieces quote.mark (text ++ rest) =
      (⟨text, some c, true⟩ :: (quotedPieces quote.mark rest).1,
        (quotedPieces quote.mark rest).2) := by
  obtain ⟨d, tail, rfl, notFeed, notQuote, first⟩ := h.first_eq rest
  rw [List.cons_append, quotedPieces, if_neg notFeed, if_neg notQuote, first, ← List.cons_append]
  simp only [List.drop_left]

theorem quotedPieces_quote (rest : List Char) :
    quotedPieces quote.mark (quote.mark :: rest) = ([], true) := by
  have notFeed : quote.mark ≠ '\n' := by cases quote <;> decide
  rw [quotedPieces, if_neg notFeed, if_pos rfl]

/-- The pieces of a literal are the spellings of its characters, each known. -/
theorem quotedPieces_of_spellings {value : List Char} {words : List (List Char)}
    (h : List.Forall₂ (Spelling quote) value words) (rest : List Char) :
    ∃ pieces, quotedPieces quote.mark (words.flatten ++ quote.mark :: rest) = (pieces, true) ∧
      pieces.flatMap (·.text) = words.flatten ∧ pieces.filterMap (·.value) = value ∧
      ∀ piece ∈ pieces, piece.known = true := by
  induction h with
  | nil => exact ⟨[], quotedPieces_quote rest, rfl, rfl, List.forall_mem_nil _⟩
  | @cons c text value words spelled _ ih =>
    obtain ⟨pieces, read, texts, values, known⟩ := ih
    refine ⟨⟨text, some c, true⟩ :: pieces, ?_, ?_, ?_, ?_⟩
    · rw [List.flatten_cons, List.append_assoc, quotedPieces_spelling spelled, read]
    · rw [List.flatMap_cons, texts, List.flatten_cons]
    · exact congrArg (c :: ·) values
    · exact List.forall_mem_cons.mpr ⟨rfl, known⟩

theorem escapeReports_of_known {place : Place} {pieces : List QuotedPiece}
    (known : ∀ piece ∈ pieces, piece.known = true) : escapeReports place pieces = [] := by
  induction pieces generalizing place with
  | nil => rfl
  | cons piece pieces ih =>
    obtain ⟨here, others⟩ := List.forall_mem_cons.mp known
    rw [escapeReports, here, if_pos rfl, ih others]

theorem recognize_quote (quote : Quote) (followsHash : Nat → Bool) (place : Place)
    (text : List Char) :
    quote.form.recognize followsHash place text = quoted? quote.mark quote.token place text := by
  cases quote <;> rfl

/-- **However its characters are written, a literal reads as its text**, and ends at its quote. -/
theorem recognize_of_spellings {value : List Char} {words : List (List Char)}
    (h : List.Forall₂ (Spelling quote) value words) (followsHash : Nat → Bool) (place : Place)
    (rest : List Char) :
    quote.form.recognize followsHash place (quote.enclose words.flatten ++ rest) =
      some {
        token := quote.token (String.ofList value)
        text := quote.enclose words.flatten } := by
  have split : quote.enclose words.flatten ++ rest =
      quote.mark :: (words.flatten ++ quote.mark :: rest) := by simp [Quote.enclose]
  obtain ⟨pieces, read, texts, values, known⟩ := quotedPieces_of_spellings h rest
  rw [split, recognize_quote, quoted?, if_pos rfl, read]
  simp only [texts, values, escapeReports_of_known known, if_true, List.append_nil, Quote.enclose]

theorem plain_of_spellings {value : List Char} {words : List (List Char)}
    (h : List.Forall₂ (Spelling quote) value words) :
    ∀ d ∈ quote.enclose words.flatten, d ≠ '\r' ∧ d ≠ '\x00' := by
  have plainMark : quote.mark ≠ '\r' ∧ quote.mark ≠ '\x00' := by cases quote <;> decide
  have plainWords : ∀ d ∈ words.flatten, d ≠ '\r' ∧ d ≠ '\x00' := by
    induction h with
    | nil => exact List.forall_mem_nil _
    | cons spelled _ ih => exact List.forall_mem_append.mpr ⟨spelled.plain, ih⟩
  exact List.forall_mem_append.mpr
    ⟨List.forall_mem_cons.mpr ⟨plainMark, plainWords⟩, List.forall_mem_singleton.mpr plainMark⟩

end Form

end SharpFront
