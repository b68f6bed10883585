import SharpFront.Diagnostic.Excerpt
import SharpFront.Lexer
import SharpFront.Preprocess.Run

/-!
# From a source text to tokens

Scanning by the default catalog, then preprocessing.
-/

namespace SharpFront

structure Output where
  tokens : List PositionedToken
  /-- Those of scanning, then those of preprocessing. -/
  diagnostics : Diagnostics
  /-- The symbols defined at the end. -/
  symbols : SymbolSet
  policy : WarningPolicy
  source : SourceText

def Output.success (o : Output) : Bool := o.diagnostics.success

def preprocess (file raw : String) (settings : Settings) : Except Failure Output := do
  let (tokens, scanned) ← tokenize raw file
  let (p, result) := ((Preprocessor.ofSettings settings).setInput tokens).run
  let tokens ← result
  let found := p.state.diagnostics
  return {
    tokens
    diagnostics := (({ policy := found.policy } : Diagnostics).extend scanned).extend found
    symbols := p.state.symbols
    policy := found.policy
    source := .ofRaw raw }

end SharpFront
