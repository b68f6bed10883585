import SharpFront.Token

/-!
# Apparent positions

Where tokens appear to come from: a shift of the line, another file, and whether debuggers see them.
-/

namespace SharpFront

structure ApparentPosition where
  /-- Added to the physical line. -/
  lineShift : Int := 0
  /-- The file to name instead of the one that was read. -/
  file? : Option String := none
  hidden : Bool := false
  deriving DecidableEq, Repr

namespace ApparentPosition

/-- Makes a line appear as another, and the lines after it with it. -/
def setLine (p : ApparentPosition) (physical apparent : Nat) : ApparentPosition :=
  { p with lineShift := (apparent : Int) - (physical : Int) }

/-- The shifted line, within the words of 32 bits. -/
def apparentLine (p : ApparentPosition) (physical : Nat) : Nat :=
  min ((physical : Int) + p.lineShift).toNat (UInt32.size - 1)

/-- The token as it appears. -/
def place (p : ApparentPosition) (t : PositionedToken) : PositionedToken :=
  { t with
    line := p.apparentLine t.line
    file := p.file?.getD t.file
    hidden := p.hidden }

end ApparentPosition

end SharpFront
