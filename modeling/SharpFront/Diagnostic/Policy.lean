import Std.Data.TreeSet

/-!
# Warning policies

Which warnings are reported, and how severely, depends on the line. Two sets of codes give the base
level; the entries of a source text switch warnings off and back to their base level from a line
on.
-/

namespace SharpFront

abbrev CodeSet := Std.TreeSet Nat

inductive WarningLevel where
  | error
  | normal
  | disabled
  deriving DecidableEq, Repr

inductive WarningAction where
  | disable
  | restore
  deriving DecidableEq, Repr

/-- An entry without a code is about every warning. -/
structure PolicyEntry where
  fromLine : Nat
  code? : Option Nat
  action : WarningAction
  deriving DecidableEq, Repr

/-- The entry is about a diagnostic at the line that answers to the codes. -/
def PolicyEntry.covers (e : PolicyEntry) (line : Nat) (codes : List Nat) : Bool :=
  e.fromLine ≤ line && match e.code? with
    | none => true
    | some code => codes.contains code

structure WarningPolicy where
  disabled : CodeSet := ∅
  asErrors : CodeSet := ∅
  /-- In the order in which they were made. -/
  entries : List PolicyEntry := []

namespace WarningPolicy

def apply (p : WarningPolicy) (fromLine : Nat) (code? : Option Nat) (action : WarningAction) :
    WarningPolicy :=
  { p with entries := p.entries ++ [⟨fromLine, code?, action⟩] }

/-- The level of a diagnostic that answers to any of the codes, entries aside. -/
def baseLevel (p : WarningPolicy) (codes : List Nat) : WarningLevel :=
  if codes.any p.disabled.contains then .disabled
  else if codes.any p.asErrors.contains then .error
  else .normal

/-- The last entry that covers the diagnostic decides; without one, or when it restores, the base
level holds. -/
def level (p : WarningPolicy) (line : Nat) (codes : List Nat) : WarningLevel :=
  match p.entries.reverse.find? (·.covers line codes) with
  | some ⟨_, _, .disable⟩ => .disabled
  | _ => p.baseLevel codes

end WarningPolicy

end SharpFront
