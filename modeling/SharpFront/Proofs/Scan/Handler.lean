import SharpFront.Lexer
import SharpFront.Proofs.Checked.Cursor

/-!
# Handlers

Each form once more as a program on a lexer, in the calls that a caller has: it looks at the text
that remains, moves the cursor, cuts out what it has passed and reports. Nothing takes a move back.

* `Handler`: such a program; it has a fault where a text would be cut inside a character, where a
  line or a column would outgrow 32 bits, and where its steps run out;
* `Handler.recognize`: the program of every form.
-/

namespace SharpFront

abbrev Handler := StateT Lexer Checked

namespace Handler

/-! ## The calls -/

/-- The source text, if there is one. -/
def source (l : Lexer) : List Char := (l.source?.map SourceText.chars).getD []

/-- The text from the offset of the cursor on. -/
def remainder : Handler (List Char) := fun l => do
  return (← Checked.textFrom l.scan.place.offset (source l), l)

def place : Handler Place := fun l => return (l.scan.place, l)

def followsHash (line : Nat) : Handler Bool := fun l => return (l.scan.followsHash line, l)

/-- Moves character by character, and counts each of them. -/
def advance (n : Nat) : Handler Unit := fun l => do
  let place ← Checked.advanceBy (source l) n l.scan.place
  let rest ← Checked.textFrom place.offset (source l)
  return ((), { l with scan := { l.scan with place, rest } })

/-- Moves past the characters of a class, and counts them. -/
def eatWhile (isIn : Char → Bool) : Handler Nat := do
  let n := ((← remainder).takeWhile isIn).length
  advance n
  return n

/-- The text from a byte offset up to the cursor. -/
def spanFrom (start : Nat) : Handler Span := fun l =>
  match l.spanFrom? start with
  | some span => return (span, l)
  | none => throw .slice

/-- Moves up to the next `c`, or to the end, and gives the text passed. -/
def eatUntil (c : Char) : Handler Span := do
  let start ← place
  let _ ← eatWhile (· != c)
  spanFrom start.offset

def report (r : Report) : Handler Unit := fun l => return ((), l.report r)

/-! ## The forms -/

def whitespace : Handler (Option Token) := do
  let n ← eatWhile Text.isBlank
  return if n = 0 then none else some .whitespace

def lineComment : Handler (Option Token) := do
  match ← remainder with
  | '/' :: '/' :: _ =>
    advance 2
    return some (.lineComment (← eatUntil '\n'))
  | _ => return none

/-- Moves up to the end of a comment, and says whether it is there. -/
def commentEnd : Nat → Handler Bool
  | 0 => throw .endless
  | fuel + 1 => do
    match ← remainder with
    | [] => return false
    | '*' :: '/' :: _ => return true
    | _ :: _ =>
      advance 1
      commentEnd fuel

def blockComment : Handler (Option Token) := do
  match ← remainder with
  | '/' :: '*' :: rest =>
    let opening ← place
    advance 2
    let start ← place
    let closed ← commentEnd (rest.length + 1)
    let body ← spanFrom start.offset
    if closed then advance 2
    else report ⟨.unterminatedComment, opening.line, opening.column, 2⟩
    return some (.blockComment body)
  | _ => return none

/-- The message after a directive word. -/
def message (d : Directive) : Handler (Option Token) := do
  let _ ← eatWhile Text.isInlineBlank
  return some (.directiveMessage d (← eatUntil '\n'))

def word : Handler (Option Token) := do
  let start ← place
  match ← remainder with
  | [] => return none
  | c :: _ =>
    if !Text.isWordStart c then return none
    else
      advance 1
      let _ ← eatWhile Text.isWordPart
      let word ← spanFrom start.offset
      match Reserved.ofWord? word.text with
      | some (.directive d) =>
        if d.takesMessage && (← followsHash start.line) then
          message d
        else return some (.directive d)
      | some (.keyword w) => return some (.keyword w)
      | none => return some (.identifier word)

def operator (o : Operator) : Handler (Option Token) := do
  if o.chars.isPrefixOf (← remainder) then
    advance o.chars.length
    return some (.operator o)
  else return none

def brace (b : Brace) : Handler (Option Token) := do
  if (← remainder).head? = some b.char then
    advance 1
    return some (.brace b)
  else return none

/-- The cursor moves by as many characters as the number has bytes. -/
def number : Handler (Option Token) := do
  let start ← place
  match Form.Numeral.ofText? (← remainder) with
  | none => return none
  | some n =>
    advance (byteSize n.text)
    return some (.number ⟨n.value, n.base, n.isFraction, ← spanFrom start.offset⟩)

/-- Moves past digits of base 16, up to a number of them. -/
def hexDigits : Nat → Handler (List Char)
  | 0 => return []
  | n + 1 => do
    match ← remainder with
    | [] => return []
    | c :: _ =>
      if Form.isHexDigit c then
        advance 1
        return c :: (← hexDigits n)
      else return []

/-- What an escape stands for, when its backslash, which was at `start`, has been passed. -/
def escape (start : Place) : Handler (Option Char) := do
  match ← remainder with
  | [] => return none
  | c :: _ =>
    if c = '\n' then return none
    else
      advance 1
      if c = 'u' then
        let digits ← hexDigits 4
        let value :=
          if digits.length = 4 then Form.QuotedPiece.scalar? (Form.Numeral.digitsValue 16 digits)
          else none
        if value.isNone then
          report ⟨.unrecognizedEscape, start.line, start.column, digits.length + 2⟩
        return value
      else
        match Form.QuotedPiece.simpleEscape? c with
        | some value => return some value
        | none =>
          report ⟨.unrecognizedEscape, start.line, start.column, 2⟩
          return some c

/-- What the next character of a literal stands for, or the escape that begins with it. -/
def piece : Handler (Option Char) := do
  let start ← place
  match ← remainder with
  | [] => return none
  | c :: _ =>
    advance 1
    if c = '\\' then escape start else return some c

/-- The value of a literal from here on, up to its quote or the end of the line. -/
def quotedBody (quote : Char) : Nat → Handler (List Char)
  | 0 => throw .endless
  | fuel + 1 => do
    let here ← place
    let missing := ⟨.newlineInConstant, here.line, here.column, 1⟩
    match ← remainder with
    | [] =>
      report missing
      return []
    | c :: _ =>
      if c = '\n' then
        report missing
        return []
      else if c = quote then
        advance 1
        return []
      else
        let value ← piece
        return value.toList ++ (← quotedBody quote fuel)

def quoted (quote : Char) (token : String → Token) : Handler (Option Token) := do
  match ← remainder with
  | [] => return none
  | c :: rest =>
    if c = quote then
      advance 1
      let value ← quotedBody quote (rest.length + 1)
      return some (token (String.ofList value))
    else return none

/-- The value of a verbatim string, which was opened at a place, from here on. -/
def verbatimBody (opening : Place) : Nat → Handler (List Char)
  | 0 => throw .endless
  | fuel + 1 => do
    match ← remainder with
    | [] =>
      report ⟨.unterminatedString, opening.line, opening.column, 2⟩
      return []
    | c :: _ =>
      advance 1
      if c = '"' then
        if (← remainder).head? = some '"' then
          advance 1
          return '"' :: (← verbatimBody opening fuel)
        else return []
      else return c :: (← verbatimBody opening fuel)

def verbatimString : Handler (Option Token) := do
  let opening ← place
  match ← remainder with
  | '@' :: '"' :: rest =>
    advance 2
    let value ← verbatimBody opening (rest.length + 1)
    return some (.verbatimString (String.ofList value))
  | _ => return none

def pattern (p : NamedPattern) : Handler (Option Token) := do
  let start ← place
  match p.program.find? (← remainder) with
  | none => return none
  | some found =>
    advance found.length
    return some (.custom p.name (← spanFrom start.offset))

def recognize : Form → Handler (Option Token)
  | .whitespace => whitespace
  | .lineComment => lineComment
  | .blockComment => blockComment
  | .word => word
  | .operator o => operator o
  | .brace b => brace b
  | .number => number
  | .char => quoted '\'' .char
  | .string => quoted '"' .string
  | .verbatimString => verbatimString
  | .pattern p => pattern p

end Handler

end SharpFront
