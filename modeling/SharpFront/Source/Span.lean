import SharpFront.Source
import SharpFront.Text.Quoted

/-!
# Spans

A range of bytes of a text written in UTF-8, and the text it covers. A range that begins or ends
inside a character, or past the end, covers nothing.
-/

namespace SharpFront

def byteSize : List Char → Nat
  | [] => 0
  | c :: cs => c.utf8Size + byteSize cs

structure ByteRange where
  start : Nat
  size : Nat
  deriving DecidableEq, Repr

namespace ByteRange

/-- Narrows the range at both ends. The front never moves past the end of the range. Amounts that do
not add up within a machine word of 64 bits are refused. -/
def trim? (r : ByteRange) (front back : Nat) : Option ByteRange :=
  if front + back < UInt64.size then some ⟨r.start + min front r.size, r.size - (front + back)⟩
  else none

def stop (r : ByteRange) : Nat := r.start + r.size

end ByteRange

/-- Splits a text after its first `n` bytes, if a character ends there. -/
def splitBytes? : Nat → List Char → Option (List Char × List Char)
  | 0, cs => some ([], cs)
  | _ + 1, [] => none
  | n + 1, c :: cs =>
    if c.utf8Size ≤ n + 1 then
      (splitBytes? (n + 1 - c.utf8Size) cs).map fun (front, back) => (c :: front, back)
    else none

/-- The text that the range covers. -/
def ByteRange.view? (r : ByteRange) (cs : List Char) : Option (List Char) := do
  let (_, rest) ← splitBytes? r.start cs
  let (covered, _) ← splitBytes? r.size rest
  return covered

theorem splitBytes?_eq_append {n : Nat} {cs front back : List Char}
    (h : splitBytes? n cs = some (front, back)) : front ++ back = cs := by
  induction cs generalizing n front with
  | nil => cases n <;> simp_all [splitBytes?]
  | cons c cs ih =>
    cases n with
    | zero => simp_all [splitBytes?]
    | succ n =>
      simp only [splitBytes?] at h
      split at h
      · simp only [Option.map_eq_some_iff, Prod.mk.injEq, Prod.exists] at h
        obtain ⟨a, b, hab, rfl, rfl⟩ := h
        simp [ih hab]
      · simp at h

/-- A covered text and the byte at which it starts. Two spans say the same when their texts are
equal, wherever they start. -/
structure Span where
  start : Nat
  text : String
  deriving DecidableEq, Repr

namespace Span

def ofChars (start : Nat) (cs : List Char) : Span := ⟨start, String.ofList cs⟩

/-- The span of a range of a source text. -/
def cut? (s : SourceText) (r : ByteRange) : Option Span :=
  (r.view? s.chars).map (ofChars r.start)

def sameText (a b : Span) : Bool := a.text == b.text

/-- The quoted text and, after `@`, the start. -/
def describe (s : Span) : String := Text.quote s.text ++ "@" ++ toString s.start

end Span

end SharpFront
