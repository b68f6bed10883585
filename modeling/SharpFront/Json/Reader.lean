import SharpFront.Form.Number

/-!
# Reading JSON

Values of known shape are read straight from a JSON text. A text is refused for one of three causes,
and the first one met counts: it is not JSON, its values have the wrong shape, or it ends too early.
-/

namespace SharpFront.Json

inductive Error where
  | malformed
  | mismatch
  | truncated
  deriving DecidableEq, Repr

def Error.message : Error → String
  | malformed => "not a JSON text"
  | mismatch => "a value of the wrong shape"
  | truncated => "the JSON text ends too early"

abbrev Reader (α : Type) := StateT (List Char) (Except Error) α

def isSpace (c : Char) : Bool := c == ' ' || c == '\n' || c == '\t' || c == '\r'

namespace Reader

/-- The next character, taken. -/
def next? : Reader (Option Char) := modifyGet fun cs => (cs.head?, cs.tail)

/-- The next character, left in place. -/
def look? : Reader (Option Char) := do return (← get).head?

/-- The next character that is no blank, left in place. -/
def peek? : Reader (Option Char) := do
  modify (·.dropWhile isSpace)
  look?

def skip : Reader Unit := modify List.tail

/-- The rest of a literal name, character by character. -/
def literal (rest : List Char) : Reader Unit :=
  rest.forM fun c => do
    match ← next? with
    | none => throw .truncated
    | some d => if c = d then pure () else throw .malformed

/-- The decimal digits that follow. -/
def digits : Reader (List Char) :=
  modifyGet fun cs =>
    let ds := cs.takeWhile Char.isDigit
    (ds, cs.drop ds.length)

/-! ## Strings -/

def fourHexDigits? : List Char → Option (Nat × List Char)
  | a :: b :: c :: d :: rest =>
    if [a, b, c, d].all Form.isHexDigit then
      some (Form.Numeral.digitsValue 16 [a, b, c, d], rest)
    else none
  | _ => none

/-- The code after `\u`. Four bytes have to be left for it. -/
def hexCode : Reader Nat := do
  let text ← get
  if byteSize text < 4 then throw .truncated
  match fourHexDigits? text with
  | some (code, rest) => set rest; return code
  | none => throw .malformed

def isHighSurrogate (code : Nat) : Bool := 0xD800 ≤ code && code ≤ 0xDBFF

def isLowSurrogate (code : Nat) : Bool := 0xDC00 ≤ code && code ≤ 0xDFFF

/-- The character of a `\u` escape: of two escapes, where the first is half of a pair. -/
def codeEscape : Reader Char := do
  let code ← hexCode
  if isLowSurrogate code then throw .malformed
  if isHighSurrogate code then
    for c in ['\\', 'u'] do
      match ← look? with
      | none => throw .truncated
      | some d => if c = d then skip else throw .malformed
    let low ← hexCode
    if isLowSurrogate low then
      return Char.ofNat (0x10000 + (code - 0xD800) * 0x400 + (low - 0xDC00))
    throw .malformed
  return Char.ofNat code

/-- The character of an escape, after the backslash. -/
def escape : Reader Char := do
  match ← next? with
  | none => throw .truncated
  | some '"' => return '"'
  | some '\\' => return '\\'
  | some '/' => return '/'
  | some 'b' => return '\x08'
  | some 'f' => return '\x0c'
  | some 'n' => return '\n'
  | some 'r' => return '\r'
  | some 't' => return '\t'
  | some 'u' => codeEscape
  | some _ => throw .malformed

/-- An escape whose character does not matter: halves of pairs are let through. -/
def ignoredEscape : Reader Char := do
  match ← look? with
  | some 'u' =>
    skip
    let _ ← hexCode
    return 'u'
  | _ => escape

/-- The characters up to the closing quote. -/
def stringRest (escape : Reader Char) : Nat → List Char → Reader (List Char)
  | 0, _ => throw .truncated
  | fuel + 1, read => do
    match ← next? with
    | none => throw .truncated
    | some '"' => return read.reverse
    | some '\\' => stringRest escape fuel ((← escape) :: read)
    | some c => if c.toNat < 0x20 then throw .malformed else stringRest escape fuel (c :: read)

/-- A string, after the opening quote. -/
def stringBody : Reader String := do
  return String.ofList (← stringRest escape ((← get).length + 1) [])

def ignoredStringBody : Reader Unit := do
  let _ ← stringRest ignoredEscape ((← get).length + 1) []

/-! ## Numbers -/

inductive Number where
  | natural (n : Nat)
  | negative
  /-- Written with a point or an exponent, or a negative zero. -/
  | float
  deriving DecidableEq, Repr

/-- Digits of a float are gathered in a significand of 64 bits. Gives the significand and the digits
from the first one on that does not fit. -/
def gather : Nat → List Char → Nat × List Char
  | n, [] => (n, [])
  | n, d :: ds =>
    let next := n * 10 + Form.digitValue d
    if next < UInt64.size then gather next ds else (n, d :: ds)

/-- The significand of a float, and the power of ten to take it by, before its exponent. A digit
before the point that does not fit counts as a zero; behind the point, the digits that do not fit
are dropped. -/
def significand (whole decimals : List Char) : Nat × Int :=
  let (n, beyond) := gather 0 whole
  let (n, dropped) := gather n decimals
  (n, beyond.length - (decimals.length - dropped.length : Nat))

/-- `n * 10 ^ exponent`, with both factors and the product rounded, is beyond the greatest
double. -/
def isOutOfRange (n : Nat) (exponent : Int) : Bool :=
  if n = 0 || exponent < 0 then false
  else if 308 < exponent then true
  else
    match Binary64.ofNat n, Binary64.ofNat (Nat.pow 10 exponent.toNat) with
    | .finite a _, .finite b _ => Binary64.ofNat (a * b) == .infinity
    | _, _ => true

/-- The digits that have to follow here. -/
def someDigits : Reader (List Char) := do
  let ds ← digits
  if ds.isEmpty then
    match ← look? with
    | none => throw .truncated
    | some _ => throw .malformed
  return ds

/-- The digits before the point: a zero stands alone. -/
def wholeDigits : Reader (List Char) := do
  let ds ← someDigits
  if ds.head? = some '0' && 1 < ds.length then throw .malformed
  return ds

/-- The exponent, if there is one. -/
def exponent? : Reader (Option Int) := do
  match ← look? with
  | some 'e' | some 'E' =>
    skip
    let negative ← do
      match ← look? with
      | some '-' => skip; pure true
      | some '+' => skip; pure false
      | _ => pure false
    let n : Int := Form.Numeral.digitsValue 10 (← someDigits)
    return some (if negative then -n else n)
  | _ => return none

/-- The digits after the point, if there is one. -/
def fraction? : Reader (Option (List Char)) := do
  match ← look? with
  | some '.' =>
    skip
    return some (← someDigits)
  | _ => return none

/-- A number after its sign. A float that a double cannot hold is refused as malformed. -/
def number (negative : Bool) : Reader Number := do
  let whole ← wholeDigits
  let fraction ← fraction?
  let exponent ← exponent?
  let (n, shift) := significand whole (fraction.getD [])
  if isOutOfRange n (shift + exponent.getD 0) then throw .malformed
  if fraction.isSome || exponent.isSome || 0 < shift then return .float
  if negative then return if n = 0 then .float else .negative
  return .natural n

/-- A number whose value does not matter, after its sign. It has no range, and where it breaks off
it is malformed. -/
def ignoredNumber : Reader Unit := do
  let read : Reader Unit := do
    let _ ← wholeDigits
    let _ ← fraction?
    let _ ← exponent?
  match read.run (← get) with
  | .ok (_, rest) => set rest
  | .error _ => throw .malformed

/-! ## Values of the wrong shape -/

/-- Refuses the value that follows. What is wrong with its notation counts before its shape. -/
def wrongShape {α : Type} : Reader α := do
  match ← look? with
  | some 'n' => skip; literal ['u', 'l', 'l']
  | some 't' => skip; literal ['r', 'u', 'e']
  | some 'f' => skip; literal ['a', 'l', 's', 'e']
  | some '-' =>
    skip
    let _ ← number true
  | some '"' =>
    skip
    let _ ← stringBody
  | some '[' | some '{' => pure ()
  | some c =>
    if c.isDigit then
      let _ ← number false
    else throw .malformed
  | none => throw .malformed
  throw .mismatch

/-- Looks at the value that follows, which has to be there. -/
def peek : Reader Char := do
  match ← peek? with
  | none => throw .truncated
  | some c => return c

/-! ## Values -/

def string : Reader String := do
  if (← peek) = '"' then
    skip
    stringBody
  else wrongShape

def boolean : Reader Bool := do
  match ← peek with
  | 't' => skip; literal ['r', 'u', 'e']; return true
  | 'f' => skip; literal ['a', 'l', 's', 'e']; return false
  | _ => wrongShape

/-- A whole number below `bound`. -/
def natural (bound : Nat) : Reader Nat := do
  let c ← peek
  let n ←
    if c = '-' then do skip; number true
    else if c.isDigit then number false
    else wrongShape
  match n with
  | .natural n => if n < bound then return n else throw .mismatch
  | _ => throw .mismatch

def null : Reader Unit := do
  if (← peek) = 'n' then
    skip
    literal ['u', 'l', 'l']
  else wrongShape

/-- `null` for none. -/
def optional {α : Type} (value : Reader α) : Reader (Option α) := do
  if (← peek?) = some 'n' then
    skip
    literal ['u', 'l', 'l']
    return none
  return some (← value)

/-- Whether a sequence goes on with another element, given whether it would be the first. -/
def moreElements (first : Bool) : Reader Bool := do
  match ← peek? with
  | none => throw .truncated
  | some ']' => return false
  | some c =>
    if first then return true
    if c ≠ ',' then throw .malformed
    skip
    match ← peek? with
    | none => throw .truncated
    | some ']' => throw .malformed
    | some _ => return true

/-- The end of a sequence of which enough has been read. -/
def sequenceEnd : Reader Unit := do
  match ← peek? with
  | none => throw .truncated
  | some ']' => skip
  | some _ => throw .malformed

def elements {α : Type} (value : Reader α) : Nat → List α → Reader (List α)
  | 0, _ => throw .truncated
  | fuel + 1, read => do
    if ← moreElements read.isEmpty then elements value fuel ((← value) :: read)
    else return read.reverse

def sequence {α : Type} (value : Reader α) : Reader (List α) := do
  if (← peek) = '[' then
    skip
    let values ← elements value ((← get).length + 1) []
    sequenceEnd
    return values
  else wrongShape

def colon : Reader Unit := do
  match ← peek? with
  | none => throw .truncated
  | some ':' => skip
  | some _ => throw .malformed

/-- Whether an object goes on with another key, whose opening quote is then taken. -/
def moreKeys (first : Bool) : Reader Bool := do
  match ← peek? with
  | none => throw .truncated
  | some '}' => return false
  | some c =>
    let c ←
      if first then pure c
      else if c = ',' then do skip; peek
      else throw .malformed
    if c ≠ '"' then throw .malformed
    skip
    return true

/-- Passes over a value of any shape. Of the steps given, each character needs at most two. -/
def ignored : Nat → Reader Unit
  | 0 => throw .truncated
  | fuel + 1 => do
    match ← peek with
    | 'n' => skip; literal ['u', 'l', 'l']
    | 't' => skip; literal ['r', 'u', 'e']
    | 'f' => skip; literal ['a', 'l', 's', 'e']
    | '-' => skip; ignoredNumber
    | '"' => skip; ignoredStringBody
    | '[' => skip; ignoredElements fuel true
    | '{' => skip; ignoredMembers fuel true
    | c => if c.isDigit then ignoredNumber else throw .malformed
where
  ignoredElements : Nat → Bool → Reader Unit
    | 0, _ => throw .truncated
    | fuel + 1, first => do
      if ← moreElements first then
        ignored fuel
        ignoredElements fuel false
      else skip
  ignoredMembers : Nat → Bool → Reader Unit
    | 0, _ => throw .truncated
    | fuel + 1, first => do
      if ← moreKeys first then
        ignoredStringBody
        colon
        ignored fuel
        ignoredMembers fuel false
      else skip

/-! ## Records -/

/-- A field of a record of type `σ`, and how its value goes into the record. -/
structure Field (σ : Type) where
  name : String
  required : Bool
  read : σ → Reader σ

/-- The members of an object up to its end. A field may stand only once; other members are passed
over. -/
def members {σ : Type} (fields : List (Field σ)) : Nat → Bool → List String → σ → Reader σ
  | 0, _, _, _ => throw .truncated
  | fuel + 1, first, seen, record => do
    if ← moreKeys first then
      let key ← stringBody
      match fields.find? (·.name == key) with
      | some field =>
        if seen.contains key then throw .mismatch
        colon
        members fields fuel false (key :: seen) (← field.read record)
      | none =>
        colon
        ignored (2 * (← get).length + 2)
        members fields fuel false seen record
    else
      skip
      if fields.any fun field => field.required && !seen.contains field.name then throw .mismatch
      return record

/-- The fields of a record in order, as the elements of a sequence. -/
def positional {σ : Type} : List (Field σ) → Bool → σ → Reader σ
  | [], _, record => return record
  | field :: fields, first, record => do
    if ← moreElements first then positional fields false (← field.read record)
    else if (field :: fields).any (·.required) then throw .mismatch
    else return record

/-- A record, written as an object or as a sequence of its fields. -/
def record {σ : Type} (fields : List (Field σ)) (initial : σ) : Reader σ := do
  match ← peek with
  | '{' =>
    skip
    members fields ((← get).length + 1) true [] initial
  | '[' =>
    skip
    let record ← positional fields true initial
    sequenceEnd
    return record
  | _ => wrongShape

/-- A text that holds one value and nothing else. -/
def whole {α : Type} (value : Reader α) (text : String) : Except Error α := do
  let (result, rest) ← value.run text.toList
  if (rest.dropWhile isSpace).isEmpty then return result else throw .malformed

end Reader

end SharpFront.Json
