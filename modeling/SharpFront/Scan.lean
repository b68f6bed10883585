import SharpFront.Catalog
import SharpFront.Catalog.Tiers
import SharpFront.Form.Recognize

/-!
# Scanning

A scan goes through a source text from its start and divides it into segments: lexemes, blanks that
no form asked for, and characters that no form knows. It gets stuck where a form matches without
covering text.
-/

namespace SharpFront

inductive Segment where
  | lexeme (start : Place) (lexeme : Lexeme)
  | skipped (start : Place) (blanks : List Char)
  | rejected (start : Place) (c : Char)
  deriving DecidableEq, Repr

namespace Segment

def text : Segment → List Char
  | lexeme _ l => l.text
  | skipped _ blanks => blanks
  | rejected _ c => [c]

def start : Segment → Place
  | lexeme start _ => start
  | skipped start _ => start
  | rejected start _ => start

def token? (file : String) : Segment → Option PositionedToken
  | lexeme start l =>
    some {
      token := l.token
      file := file
      line := start.line
      column := start.column
      length := l.text.length }
  | _ => none

def reports : Segment → List Report
  | lexeme _ l => l.reports
  | skipped .. => []
  | rejected start c => [⟨.unexpectedCharacter c, start.line, start.column, 1⟩]

/-- The token of the segment, unless it is a blank. -/
def solid? : Segment → Option (Token × Nat)
  | lexeme start l => if l.token.isWhitespace then none else some (l.token, start.line)
  | _ => none

end Segment

/-- The segments so far, newest first, the place reached and the text that remains. -/
structure Scan where
  segments : List Segment := []
  place : Place := {}
  rest : List Char

namespace Scan

/-- The last token, blanks aside, is a `#` on the given line. -/
def followsHash (s : Scan) (line : Nat) : Bool :=
  match s.segments.findSome? Segment.solid? with
  | some (token, tokenLine) => tokenLine == line && token.isOperator .hash
  | none => false

/-- Moves past the first `n` characters of the rest. -/
def advance (s : Scan) (n : Nat) : Scan :=
  { s with place := s.place.after (s.rest.take n), rest := s.rest.drop n }

/-- Moves past a segment and records it. -/
def record (s : Scan) (segment : Segment) : Scan :=
  { s.advance segment.text.length with segments := segment :: s.segments }

def skipBlanks (s : Scan) : Scan :=
  let blanks := s.rest.takeWhile Text.isBlank
  if blanks.isEmpty then s else s.record (.skipped s.place blanks)

def recognize (s : Scan) (form : Form) : Option Lexeme :=
  form.recognize s.followsHash s.place s.rest

/-- What the first form that matches finds. -/
def firstMatch (s : Scan) (forms : List Form) : Option Lexeme := forms.findSome? s.recognize

inductive Step where
  | moved (s : Scan)
  | stuck (s : Scan) (token : Token)

def accept (s : Scan) (l : Lexeme) : Step :=
  if l.text.isEmpty then .stuck s l.token else .moved (s.record (.lexeme s.place l))

/-- One step: a lexeme, or a character that no form knows, or the end after blanks. -/
def step (tiers : Tiers) (s : Scan) : Step :=
  match s.firstMatch tiers.seeBlanks with
  | some l => s.accept l
  | none =>
    let s := s.skipBlanks
    match s.firstMatch (tiers.candidates s.rest.head?) with
    | some l => s.accept l
    | none =>
      match s.rest with
      | [] => .moved s
      | c :: _ => .moved (s.record (.rejected s.place c))

@[simp] theorem record_rest (s : Scan) (segment : Segment) :
    (s.record segment).rest = s.rest.drop segment.text.length := rfl

theorem rest_length_skipBlanks_le (s : Scan) : s.skipBlanks.rest.length ≤ s.rest.length := by
  unfold skipBlanks
  simp only
  split <;> simp

theorem accept_shorter {s t : Scan} {l : Lexeme} (hs : s.rest ≠ []) (h : s.accept l = .moved t) :
    t.rest.length < s.rest.length := by
  unfold accept at h
  split at h
  · exact Step.noConfusion h
  · next hl =>
    obtain rfl := Step.moved.inj h
    have h₁ := List.length_pos_iff.2 hs
    have h₂ : l.text.length ≠ 0 := by simpa using hl
    simp only [record_rest, Segment.text, List.length_drop]
    omega

/-- A step that ends elsewhere has moved on. -/
theorem step_shorter {tiers : Tiers} {s t : Scan} (hs : s.rest ≠ [])
    (h : s.step tiers = .moved t) : t.rest.length < s.rest.length := by
  have hpos := List.length_pos_iff.2 hs
  unfold step at h
  split at h
  · exact accept_shorter hs h
  · have hle := rest_length_skipBlanks_le s
    by_cases hrest : s.skipBlanks.rest = []
    · have hzero : s.skipBlanks.rest.length = 0 := by simp [hrest]
      simp only at h
      split at h
      · unfold accept at h
        split at h
        · exact Step.noConfusion h
        · obtain rfl := Step.moved.inj h
          simp only [record_rest, List.length_drop]
          omega
      · split at h
        · obtain rfl := Step.moved.inj h
          omega
        · next hcons => simp [hrest] at hcons
    · simp only at h
      split at h
      · exact Nat.lt_of_lt_of_le (accept_shorter hrest h) hle
      · split at h
        · next hnil => exact absurd hnil hrest
        · next hcons =>
          obtain rfl := Step.moved.inj h
          have := List.length_pos_iff.2 hrest
          simp only [record_rest, Segment.text, List.length_drop, List.length_singleton]
          omega

/-- Steps until nothing remains. The token, if any, is the one the scan got stuck on. -/
def run (tiers : Tiers) (s : Scan) : Scan × Option Token :=
  if _hs : s.rest = [] then (s, none)
  else
    match _h : s.step tiers with
    | .stuck s token => (s, some token)
    | .moved t => run tiers t
termination_by s.rest.length
decreasing_by exact step_shorter _hs _h

def tokens (s : Scan) (file : String) : List PositionedToken :=
  s.segments.reverse.filterMap (·.token? file)

def reports (s : Scan) : List Report := s.segments.reverse.flatMap Segment.reports

end Scan

end SharpFront
