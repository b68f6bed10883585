import SharpFront.Form.Number

/-!
# Quoted literals

A literal between two equal quotes, on one line. A backslash and what follows it stand for one
character; an escape that is not known is reported, and stands for the character after the
backslash. A literal that meets the end of its line before its quote is reported there.
-/

namespace SharpFront.Form

/-- A stretch of a literal and the character it stands for. -/
structure QuotedPiece where
  text : List Char
  value : Option Char
  known : Bool := true
  deriving DecidableEq, Repr

namespace QuotedPiece

def simpleEscape? : Char → Option Char
  | 'n' => some '\n'
  | 'r' => some '\r'
  | 't' => some '\t'
  | 'f' => some '\x0c'
  | '0' => some '\x00'
  | '\\' => some '\\'
  | '"' => some '"'
  | '\'' => some '\''
  | _ => none

/-- The character with a code; the codes of surrogates have none. -/
def scalar? (code : Nat) : Option Char :=
  if h : code.isValidChar then some (Char.ofNatAux code h) else none

/-- `\u` takes up to four digits and needs all of them. -/
def codeEscape (rest : List Char) : QuotedPiece :=
  let digits := (rest.take 4).takeWhile isHexDigit
  let value := if digits.length = 4 then scalar? (Numeral.digitsValue 16 digits) else none
  ⟨'\\' :: 'u' :: digits, value, value.isSome⟩

/-- The piece that starts with a backslash, given what follows it. At the end of the line the
backslash stands alone, and for nothing. -/
def escape : List Char → QuotedPiece
  | [] => ⟨['\\'], none, true⟩
  | c :: rest =>
    if c = '\n' then ⟨['\\'], none, true⟩
    else if c = 'u' then codeEscape rest
    else match simpleEscape? c with
      | some value => ⟨['\\', c], some value, true⟩
      | none => ⟨['\\', c], some c, false⟩

/-- The piece that a text starts with. -/
def first (c : Char) (rest : List Char) : QuotedPiece :=
  if c = '\\' then escape rest else ⟨[c], some c, true⟩

theorem first_text_ne_nil (c : Char) (rest : List Char) : (first c rest).text ≠ [] := by
  unfold first
  split
  · cases rest with
    | nil => simp [escape]
    | cons d rest =>
      simp only [escape, codeEscape]
      split
      · simp
      · split
        · simp
        · split <;> simp
  · simp

end QuotedPiece

/-- The pieces up to the quote or the end of the line, and whether the quote is there. -/
def quotedPieces (quote : Char) (text : List Char) : List QuotedPiece × Bool :=
  match text with
  | [] => ([], false)
  | c :: rest =>
    if c = '\n' then ([], false)
    else if c = quote then ([], true)
    else
      let piece := QuotedPiece.first c rest
      let (pieces, closed) := quotedPieces quote ((c :: rest).drop piece.text.length)
      (piece :: pieces, closed)
termination_by text.length
decreasing_by
  have := List.length_pos_iff.2 (QuotedPiece.first_text_ne_nil c rest)
  simp only [List.length_drop, List.length_cons]
  omega

/-- The unknown escapes among the pieces, each where it starts. -/
def escapeReports (place : Place) : List QuotedPiece → List Report
  | [] => []
  | p :: pieces =>
    let later := escapeReports (place.after p.text) pieces
    if p.known then later
    else ⟨.unrecognizedEscape, place.line, place.column, p.text.length⟩ :: later

def quoted? (quote : Char) (token : String → Token) (place : Place) (text : List Char) :
    Option Lexeme :=
  match text with
  | [] => none
  | c :: rest =>
    if c = quote then
      let (pieces, closed) := quotedPieces quote rest
      let content := pieces.flatMap (·.text)
      let stop := place.after (quote :: content)
      some {
        token := token (String.ofList (pieces.filterMap (·.value)))
        text := quote :: content ++ (if closed then [quote] else [])
        reports := escapeReports (place.step quote) pieces ++
          (if closed then [] else [⟨.newlineInConstant, stop.line, stop.column, 1⟩]) }
    else none

end SharpFront.Form
