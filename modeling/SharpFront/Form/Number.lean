import SharpFront.Form

/-!
# Numbers

`0x` and `0b` introduce hexadecimal and binary numbers when a digit follows. A run of digits is
decimal, with a fraction when a point and a digit follow it; a leading zero makes a longer run octal
if every digit is one. A decimal run with an 8 or a 9 stays decimal.
-/

namespace SharpFront.Form

/-- The value of a digit, up to base 16. -/
def digitValue (c : Char) : Nat :=
  if c.isDigit then c.toNat - '0'.toNat
  else if 'a'.toNat ≤ c.toNat then c.toNat - 'a'.toNat + 10
  else c.toNat - 'A'.toNat + 10

def isHexDigit (c : Char) : Bool :=
  c.isDigit || ('a'.toNat ≤ c.toNat && c.toNat ≤ 'f'.toNat) ||
    ('A'.toNat ≤ c.toNat && c.toNat ≤ 'F'.toNat)

def isBinaryDigit (c : Char) : Bool := c == '0' || c == '1'

def isOctalDigit (c : Char) : Bool := '0'.toNat ≤ c.toNat && c.toNat ≤ '7'.toNat

/-- A number as it is written. -/
inductive Numeral where
  /-- The mark after the zero, and the digits. -/
  | prefixed (base : Nat) (mark : Char) (digits : List Char)
  | whole (digits : List Char)
  | fraction (integral decimals : List Char)
  deriving DecidableEq, Repr

namespace Numeral

def text : Numeral → List Char
  | prefixed _ mark digits => '0' :: mark :: digits
  | whole digits => digits
  | fraction integral decimals => integral ++ '.' :: decimals

/-- The digits after a mark, if there are any. -/
def marked? (base : Nat) (mark : Char) (isDigit : Char → Bool) (rest : List Char) :
    Option Numeral :=
  let digits := rest.takeWhile isDigit
  if digits.isEmpty then none else some (prefixed base mark digits)

/-- A run of decimal digits and the fraction after it. -/
def decimal? (text : List Char) : Option Numeral :=
  let digits := text.takeWhile Char.isDigit
  if digits.isEmpty then none
  else
    match text.drop digits.length with
    | '.' :: rest =>
      let decimals := rest.takeWhile Char.isDigit
      some (if decimals.isEmpty then whole digits else fraction digits decimals)
    | _ => some (whole digits)

/-- The number that a text starts with. -/
def ofText? (text : List Char) : Option Numeral :=
  let special := match text with
    | '0' :: mark :: rest =>
      if mark = 'x' || mark = 'X' then marked? 16 mark isHexDigit rest
      else if mark = 'b' || mark = 'B' then marked? 2 mark isBinaryDigit rest
      else none
    | _ => none
  match special with
  | some n => some n
  | none => decimal? text

def base : Numeral → Nat
  | prefixed base _ _ => base
  | whole digits =>
    if 1 < digits.length && digits.head? == some '0' && digits.all isOctalDigit then 8 else 10
  | fraction .. => 10

/-- The whole number that digits denote. -/
def digitsValue (base : Nat) (digits : List Char) : Nat :=
  digits.foldl (fun total c => total * base + digitValue c) 0

/-- A whole number is read digit by digit, a fraction is rounded once. -/
def value (n : Numeral) : Binary64 :=
  match n with
  | prefixed base _ digits => .ofDigits base (digits.map digitValue)
  | whole digits => .ofDigits n.base (digits.map digitValue)
  | fraction integral decimals =>
    .ofRatio (digitsValue 10 (integral ++ decimals)) (Nat.pow 10 decimals.length)

def isFraction : Numeral → Bool
  | fraction .. => true
  | _ => false

end Numeral

def number? (place : Place) (text : List Char) : Option Lexeme :=
  (Numeral.ofText? text).map fun n =>
    {
      token := .number ⟨n.value, n.base, n.isFraction, .ofChars place.offset n.text⟩
      text := n.text }

end SharpFront.Form
