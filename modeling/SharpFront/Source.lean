/-!
# Source texts

A source text has one kind of line end, the line feed, and holds no NUL. Its lines are numbered
from 1.
-/

namespace SharpFront

/-- A carriage return becomes a line feed, together with a line feed right after it; NUL is
dropped. -/
def normalize : List Char → List Char
  | [] => []
  | '\r' :: '\n' :: rest => '\n' :: normalize rest
  | c :: rest =>
    if c = '\r' then '\n' :: normalize rest
    else if c = '\x00' then normalize rest
    else c :: normalize rest

/-- The parts between line feeds, one more than there are line feeds. -/
def splitLines : List Char → List (List Char)
  | [] => [[]]
  | c :: rest =>
    if c = '\n' then [] :: splitLines rest
    else match splitLines rest with
      | [] => [[c]]
      | line :: more => (c :: line) :: more

structure SourceText where
  chars : List Char
  deriving DecidableEq, Repr

namespace SourceText

def ofRaw (raw : String) : SourceText := ⟨normalize raw.toList⟩

def text (s : SourceText) : String := String.ofList s.chars

def byteSize (s : SourceText) : Nat := s.text.utf8ByteSize

def isEmpty (s : SourceText) : Bool := s.chars.isEmpty

def lines (s : SourceText) : List (List Char) := splitLines s.chars

/-- The line with the given number, without its line feed. There is no line 0. -/
def line? (s : SourceText) (number : Nat) : Option (List Char) :=
  if number = 0 then none else s.lines[number - 1]?

end SourceText

theorem splitLines_ne_nil (cs : List Char) : splitLines cs ≠ [] := by
  induction cs with
  | nil => simp [splitLines]
  | cons c rest _ =>
    unfold splitLines
    split
    · simp
    · split <;> simp

end SharpFront
