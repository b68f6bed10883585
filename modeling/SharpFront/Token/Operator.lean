/-!
# Operators

The operators of the language, of one or two characters.
-/

namespace SharpFront

inductive Operator where
  | dot
  | semicolon
  | colon
  | comma
  | minus
  | plus
  | slash
  | backslash
  | atSign
  | assign
  | tilde
  | ampersand
  | pipe
  | percent
  | star
  | caret
  | bang
  | question
  | less
  | greater
  | hash
  | and
  | or
  | equality
  | increment
  | decrement
  | arrow
  | notEqual
  | greaterEqual
  | lessEqual
  deriving DecidableEq, Repr

namespace Operator

def chars : Operator → List Char
  | dot => ['.']
  | semicolon => [';']
  | colon => [':']
  | comma => [',']
  | minus => ['-']
  | plus => ['+']
  | slash => ['/']
  | backslash => ['\\']
  | atSign => ['@']
  | assign => ['=']
  | tilde => ['~']
  | ampersand => ['&']
  | pipe => ['|']
  | percent => ['%']
  | star => ['*']
  | caret => ['^']
  | bang => ['!']
  | question => ['?']
  | less => ['<']
  | greater => ['>']
  | hash => ['#']
  | and => ['&', '&']
  | or => ['|', '|']
  | equality => ['=', '=']
  | increment => ['+', '+']
  | decrement => ['-', '-']
  | arrow => ['-', '>']
  | notEqual => ['!', '=']
  | greaterEqual => ['>', '=']
  | lessEqual => ['<', '=']

def text (o : Operator) : String := String.ofList o.chars

theorem chars_ne_nil (o : Operator) : o.chars ≠ [] := by cases o <;> simp [chars]

def firstChar (o : Operator) : Char := o.chars.head o.chars_ne_nil

/-- Two characters outrank one. `->` stands above `--`, which begins with the same character. -/
def priority (o : Operator) : Int :=
  if o = arrow then 2 else if o.chars.length = 2 then 1 else 0

def singles : List Operator := [
  dot, semicolon, colon, comma, minus, plus, slash, backslash, atSign, assign, tilde, ampersand,
  pipe, percent, star, caret, bang, question, less, greater, hash]

def doubles : List Operator := [
  and, or, equality, increment, decrement, arrow, notEqual, greaterEqual, lessEqual]

def ofText? (text : String) : Option Operator := (doubles ++ singles).find? (·.text == text)

end Operator

end SharpFront
