/-!
# Places

A place in a source text is a byte offset, a line and a column. Lines and columns count from 1,
columns count characters.

Counts have no bound here. In a text of fewer than 2^32 - 1 characters 32 bits are enough for them
(`Checked.At.line_lt`, `Checked.At.column_lt`): runs, scanning and preprocessing give the same with
counters of that size (`Checked.run_eq`, `Checked.tokenize_eq_ok`, `Checked.preprocess_eq_ok`), so
what is proved of them without a bound holds there too.
-/

namespace SharpFront

structure Place where
  offset : Nat := 0
  line : Nat := 1
  column : Nat := 1
  deriving DecidableEq, Repr, Inhabited

namespace Place

def step (p : Place) (c : Char) : Place :=
  if c = '\n' then ⟨p.offset + c.utf8Size, p.line + 1, 1⟩
  else ⟨p.offset + c.utf8Size, p.line, p.column + 1⟩

/-- Where a text that starts at `p` ends. -/
def after (p : Place) (text : List Char) : Place := text.foldl step p

@[simp] theorem after_nil (p : Place) : p.after [] = p := rfl

@[simp] theorem after_cons (p : Place) (c : Char) (cs : List Char) :
    p.after (c :: cs) = (p.step c).after cs := rfl

theorem after_append (p : Place) (a b : List Char) : p.after (a ++ b) = (p.after a).after b :=
  List.foldl_append

end Place

/-- A line and a column of a named file, as a failure names it. -/
structure Location where
  file : String
  line : Nat
  column : Nat
  deriving DecidableEq, Repr

namespace Location

def startOf (file : String) : Location := ⟨file, 1, 1⟩

/-- The location of what belongs to no file. -/
def nowhere : Location := ⟨"<null>", 0, 0⟩

def render (l : Location) : String := s!"{l.file}:{l.line}:{l.column}"

end Location

end SharpFront
