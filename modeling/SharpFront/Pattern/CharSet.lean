import SharpFront.Text.CharClass

/-!
# Sets of characters

A set of characters is held as ranges of code points in one form: ascending, disjoint, and joined
where no character lies between two of them. Sets of the same characters are equal.
-/

namespace SharpFront

structure CharSet where
  ranges : Text.Ranges
  deriving DecidableEq, Repr

namespace CharSet

/-- The code point of the character after. Surrogates are no characters. -/
def codeAfter (n : Nat) : Nat := if n = 0xD7FF then 0xE000 else n + 1

/-- The code point of the character before. -/
def codeBefore (n : Nat) : Nat := if n = 0xE000 then 0xD7FF else n - 1

/-- Adds a range, joined with the ranges that it meets. -/
def insertRange (lo hi : Nat) : Text.Ranges → Text.Ranges
  | [] => [(lo, hi)]
  | (a, b) :: rest =>
    if codeAfter hi < a then (lo, hi) :: (a, b) :: rest
    else if codeAfter b < lo then (a, b) :: insertRange lo hi rest
    else insertRange (min lo a) (max hi b) rest

/-- The ranges between the given ones, from a code point on. -/
def gaps (first : Nat) : Text.Ranges → Text.Ranges
  | [] => if first ≤ 0x10FFFF then [(first, 0x10FFFF)] else []
  | (lo, hi) :: rest =>
    let after := gaps (codeAfter hi) rest
    if first < lo then (first, codeBefore lo) :: after else after

def empty : CharSet := ⟨[]⟩

def range (lo hi : Char) : CharSet := ⟨[(lo.toNat, hi.toNat)]⟩

def single (c : Char) : CharSet := range c c

def blanks : CharSet := ⟨Text.blanks⟩

def contains (s : CharSet) (c : Char) : Bool := s.ranges.contains c.toNat

def union (s t : CharSet) : CharSet :=
  ⟨t.ranges.foldl (fun ranges (lo, hi) => insertRange lo hi ranges) s.ranges⟩

def complement (s : CharSet) : CharSet := ⟨gaps 0 s.ranges⟩

def inter (s t : CharSet) : CharSet := (s.complement.union t.complement).complement

def diff (s t : CharSet) : CharSet := s.inter t.complement

/-- The characters of one of the sets alone. -/
def symmDiff (s t : CharSet) : CharSet := (s.diff t).union (t.diff s)

/-- Anything but a line feed. -/
def dot : CharSet := (single '\n').complement

/-- The only character of the set, if it has just one. -/
def single? (s : CharSet) : Option Char :=
  match s.ranges with
  | [(lo, hi)] => if lo = hi then some (Char.ofNat lo) else none
  | _ => none

def isAscii (s : CharSet) : Bool := s.ranges.all fun (_, hi) => hi < 0x80

end CharSet

end SharpFront
