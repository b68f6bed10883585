import SharpFront.Failure
import SharpFront.Scan

/-!
# Lexers

A lexer holds a catalog of forms and a cursor in a source text. A run goes through the text from its
start; between runs the cursor can be moved by hand and single forms can be tried at it.
-/

namespace SharpFront

structure Lexer where
  catalog : List Form := []
  source? : Option SourceText := none
  file : String := "shell"
  /-- The cursor, and the segments of a run that got stuck. -/
  scan : Scan := { rest := [] }
  diagnostics : Diagnostics := {}

namespace Lexer

def ofCatalog (catalog : List Form) : Lexer := { catalog }

def add (l : Lexer) (form : Form) : Lexer := { l with catalog := l.catalog ++ [form] }

/-- Puts the cursor at the start and forgets what was found. -/
def reset (l : Lexer) : Lexer :=
  { l with
    scan := { rest := (l.source?.map SourceText.chars).getD [] }
    diagnostics := {} }

def setInput (l : Lexer) (file : String) (raw : String) : Lexer :=
  { l with source? := some (.ofRaw raw), file }.reset

/-- Goes through the whole text. A run that gets stuck leaves the cursor where it is. -/
def run (l : Lexer) : Lexer × Except Failure (List PositionedToken) :=
  if l.source?.isNone then (l, .error ⟨.noInput "lexer", .startOf l.file⟩)
  else if l.catalog.isEmpty then (l, .error ⟨.noRecognizers, .startOf l.file⟩)
  else
    let l := l.reset
    let (scan, stuck) := l.scan.run (.build l.catalog)
    let diagnostics := l.diagnostics.reportAll scan.reports
    match stuck with
    | some token =>
      ({ l with scan, diagnostics },
        .error ⟨.zeroLengthMatch token.kindName, ⟨l.file, scan.place.line, scan.place.column⟩⟩)
    | none =>
      ({ l with scan := { scan with segments := [] }, diagnostics }, .ok (scan.tokens l.file))

def remainder (l : Lexer) : List Char := l.scan.rest

def current? (l : Lexer) : Option Char := l.scan.rest.head?

def atEnd (l : Lexer) : Bool := l.scan.rest.isEmpty

def advance (l : Lexer) (n : Nat) : Lexer := { l with scan := l.scan.advance n }

/-- Moves past the characters of a class, and counts them. -/
def eatWhile (l : Lexer) (p : Char → Bool) : Lexer × Nat :=
  let n := (l.scan.rest.takeWhile p).length
  (l.advance n, n)

/-- Moves past blanks, line feeds included. -/
def eatBlanks (l : Lexer) : Lexer × Nat := l.eatWhile Text.isBlank

/-- Moves past blanks up to the end of the line. -/
def eatInlineBlanks (l : Lexer) : Lexer × Nat := l.eatWhile Text.isInlineBlank

/-- The text from a byte offset up to the cursor, if it starts at a character. -/
def spanFrom? (l : Lexer) (start : Nat) : Option Span :=
  match l.source? with
  | none => some ⟨0, ""⟩
  | some source =>
    if start ≤ l.scan.place.offset then Span.cut? source ⟨start, l.scan.place.offset - start⟩
    else none

/-- Moves up to the next `c`, or to the end, and gives the text passed. -/
def eatUntil (l : Lexer) (c : Char) : Lexer × Span :=
  let passed := l.scan.rest.takeWhile (· != c)
  (l.advance passed.length, .ofChars l.scan.place.offset passed)

def report (l : Lexer) (r : Report) : Lexer := { l with diagnostics := l.diagnostics.report r }

/-- Tries one form at the cursor and moves past what it finds. -/
def recognize (l : Lexer) (form : Form) : Lexer × Option Token :=
  match l.scan.recognize form with
  | none => (l, none)
  | some found =>
    ({ l.advance found.text.length with diagnostics := l.diagnostics.reportAll found.reports },
      some found.token)

def takeDiagnostics (l : Lexer) : Lexer × Diagnostics :=
  ({ l with diagnostics := {} }, l.diagnostics)

end Lexer

/-- The tokens of a source text by the default catalog, and what is wrong with it. -/
def tokenize (raw : String) (file : String := "shell") :
    Except Failure (List PositionedToken × Diagnostics) :=
  let (lexer, result) := ((Lexer.ofCatalog defaultCatalog).setInput file raw).run
  result.map fun tokens => (tokens, lexer.diagnostics)

end SharpFront
