import SharpFront.Place
import SharpFront.Text.Quoted

/-!
# Failures

What keeps a stage from running to its end. Nothing in a source text does: a failure is a mistake
in how the stages were set up.
-/

namespace SharpFront

inductive FailureCause where
  | noInput (stage : String)
  | noRecognizers
  /-- A recognizer matched without covering any text. -/
  | zeroLengthMatch (kind : String)
  deriving DecidableEq, Repr

namespace FailureCause

def name : FailureCause → String
  | noInput _ => "NoInput"
  | noRecognizers => "NoRecognizers"
  | zeroLengthMatch _ => "ZeroLengthMatch"

def message : FailureCause → String
  | noInput stage => s!"no input set for the {stage}"
  | noRecognizers => "no recognizers registered"
  | zeroLengthMatch kind => s!"zero-length match for token {Text.quote kind}"

end FailureCause

/-- Advice to whoever set the stages up. -/
inductive Tip where
  | none
  | suggestion (text : String)
  deriving DecidableEq, Repr

def Tip.text : Tip → String
  | none => ""
  | suggestion text => text

def FailureCause.tip : FailureCause → Tip
  | noInput stage => .suggestion s!"Call `set_input` on the {stage} before `run`"
  | noRecognizers =>
    .suggestion "Register at least one recognizer, or start from `default_catalog()`"
  | zeroLengthMatch kind =>
    .suggestion s!"The recognizer for `{kind}` matched without consuming any input"

structure Failure where
  cause : FailureCause
  location : Location
  deriving DecidableEq, Repr

namespace Failure

def message (f : Failure) : String := s!"{f.cause.message} at {f.location.render}"

/-- The failure with its tip, for display. -/
def display (f : Failure) : String :=
  let head := match f.cause.tip with
    | .none => s!"Error: {f.cause.name}"
    | .suggestion text => s!"Error: {f.cause.name} ({text})"
  s!"{head}\n-> {f.location.render}\n   {f.message}\n"

end Failure

end SharpFront
