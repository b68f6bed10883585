import SharpFront.Text.CharClass

/-!
# Quoted texts

A text in double quotes, on one line and legible: the quote and the backslash are escaped, NUL,
tab, line feed and carriage return have short escapes, and any other unprintable character and any
extending mark stands as its code point in hexadecimal.
-/

namespace SharpFront.Text

/-- `\u` and the code point in braces, in lower-case hexadecimal without leading zeros. -/
def codePointEscape (c : Char) : List Char :=
  ['\\', 'u', '{'] ++ Nat.toDigits 16 c.toNat ++ ['}']

def quoteChar (c : Char) : List Char :=
  match c with
  | '\x00' => ['\\', '0']
  | '\t' => ['\\', 't']
  | '\r' => ['\\', 'r']
  | '\n' => ['\\', 'n']
  | '\\' => ['\\', '\\']
  | '"' => ['\\', '"']
  | c => if isExtending c || isUnprintable c then codePointEscape c else [c]

def quote (s : String) : String :=
  String.ofList ('"' :: s.toList.flatMap quoteChar ++ ['"'])

end SharpFront.Text
