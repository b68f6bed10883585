import SharpFront.Diagnostic.Policy

/-!
# Settings

What a caller chooses before a source text is preprocessed.
-/

namespace SharpFront

abbrev SymbolSet := Std.TreeSet String

structure Settings where
  /-- Symbols defined before the first line. -/
  defines : SymbolSet := ∅
  /-- Codes of warnings that are off unless the source text turns them on. -/
  disabledWarnings : CodeSet := ∅
  /-- Codes of warnings that count as errors. -/
  warningsAsErrors : CodeSet := ∅
  keepWhitespace : Bool := false
  keepComments : Bool := false

namespace Settings

def withDefines (defines : List String) : Settings := { defines := .ofList defines }

/-- The policy that a source text starts with. -/
def policy (s : Settings) : WarningPolicy :=
  { disabled := s.disabledWarnings, asErrors := s.warningsAsErrors }

end Settings

end SharpFront
