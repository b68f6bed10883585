import SharpFront.Diagnostic.Kind
import SharpFront.Diagnostic.Policy

/-!
# Diagnostics

A report says what is wrong where. The sink gives it a severity by the policy in force at that
moment and keeps it, or counts it as suppressed.
-/

namespace SharpFront

structure Report where
  kind : DiagnosticKind
  line : Nat
  column : Nat
  length : Nat
  deriving DecidableEq, Repr

structure Diagnostic where
  kind : DiagnosticKind
  severity : Severity
  line : Nat
  column : Nat
  length : Nat
  deriving DecidableEq, Repr

namespace Diagnostic

def code (d : Diagnostic) : Nat := d.kind.code

def message (d : Diagnostic) : String := d.kind.message

def isError (d : Diagnostic) : Bool := d.severity == .error

/-- The column after the last character, if it is a number of 32 bits. -/
def stopColumn? (d : Diagnostic) : Option Nat :=
  if d.column + d.length < UInt32.size then some (d.column + d.length) else none

/-- Where, how severe, the code and the message; `none` when the diagnostic ends past the last
column. -/
def render? (d : Diagnostic) : Option String :=
  d.stopColumn?.map fun stop =>
    s!"({d.line},{d.column},{d.line},{stop}): {d.severity.name} {d.code}: {d.message}"

def renderIn? (d : Diagnostic) (file : String) : Option String := d.render?.map (file ++ ·)

end Diagnostic

/-- The severity of a report under a policy; `none` when the policy suppresses it. Only warnings
are subject to the policy. -/
def WarningPolicy.severity? (p : WarningPolicy) (r : Report) : Option Severity :=
  match r.kind.severity with
  | .warning =>
    match p.level r.line r.kind.overrideCodes with
    | .disabled => none
    | .error => some .error
    | .normal => some .warning
  | severity => some severity

structure Diagnostics where
  /-- In the order in which they were reported. -/
  entries : Array Diagnostic := #[]
  policy : WarningPolicy := {}
  /-- How many reports the policy held back. -/
  suppressed : Nat := 0

namespace Diagnostics

def report (s : Diagnostics) (r : Report) : Diagnostics :=
  match s.policy.severity? r with
  | none => { s with suppressed := s.suppressed + 1 }
  | some severity =>
    { s with entries := s.entries.push ⟨r.kind, severity, r.line, r.column, r.length⟩ }

def reportAll (s : Diagnostics) (rs : List Report) : Diagnostics := rs.foldl report s

/-- Appends what an earlier stage resolved, as it stands. -/
def extend (s other : Diagnostics) : Diagnostics :=
  { s with
    entries := s.entries ++ other.entries
    suppressed := s.suppressed + other.suppressed }

def size (s : Diagnostics) : Nat := s.entries.size

def toList (s : Diagnostics) : List Diagnostic := s.entries.toList

def errors (s : Diagnostics) : List Diagnostic := s.toList.filter (·.severity == .error)

def warnings (s : Diagnostics) : List Diagnostic := s.toList.filter (·.severity == .warning)

/-- No diagnostic ended up as an error. -/
def success (s : Diagnostics) : Bool := s.errors.isEmpty

end Diagnostics

end SharpFront
