import SharpFront.Diagnostic.Sink
import SharpFront.Token

/-!
# Conditions

A condition is made of words, `&&`, `||` and parentheses. `true` and `false` are constants, any
other word is true when it is a defined symbol. `&&` and `||` have one precedence: the terms of a
group are taken from left to right, so `a || b && c` is `(a || b) && c`.

A condition that is not well formed is reported and false, at least from the group on that is at
fault.
-/

namespace SharpFront

/-- A report about a whole token. -/
def PositionedToken.report (t : PositionedToken) (kind : DiagnosticKind) : Report :=
  ⟨kind, t.line, t.column, t.length⟩

/-- A report about what is missing right after a token. -/
def PositionedToken.reportAfter (t : PositionedToken) (kind : DiagnosticKind) : Report :=
  ⟨kind, t.line, t.stopColumn, 1⟩

namespace Condition

inductive Connective where
  | conj
  | disj
  deriving DecidableEq, Repr

def Connective.apply : Connective → Bool → Bool → Bool
  | conj, a, b => a && b
  | disj, a, b => a || b

inductive Term where
  | value (b : Bool)
  | connective (o : Connective)
  deriving DecidableEq, Repr

/-- What a token stands for in a condition, parentheses aside. -/
def term? (defined : String → Bool) (t : Token) : Option Term :=
  match t with
  | .operator .and => some (.connective .conj)
  | .operator .or => some (.connective .disj)
  | .keyword "true" => some (.value true)
  | .keyword "false" => some (.value false)
  | t => t.word?.map fun word => .value (defined word)

/-- A term and the token that a report about it points at. -/
abbrev PlacedTerm := Term × PositionedToken

/-- How far the terms of a group have been taken together. -/
inductive Partial where
  | start
  | value (b : Bool)
  /-- A value and the connective after it, with its token. -/
  | pending (b : Bool) (o : Connective) (t : PositionedToken)
  deriving DecidableEq, Repr

/-- Takes the terms of a group together. Stops at the first term that does not fit. -/
def foldTerms : Partial → List PlacedTerm → Bool × List Report
  | .start, [] => (false, [])
  | .value b, [] => (b, [])
  | .pending _ _ t, [] => (false, [t.report .invalidExpression])
  | .start, (.value b, _) :: terms => foldTerms (.value b) terms
  | .start, (.connective _, t) :: _ => (false, [t.report .invalidExpression])
  | .value _, (.value _, t) :: _ => (false, [t.report .endOfLineExpected])
  | .value b, (.connective o, t) :: terms => foldTerms (.pending b o t) terms
  | .pending b o _, (.value c, _) :: terms => foldTerms (.value (o.apply b c)) terms
  | .pending _ _ _, (.connective _, t) :: _ => (false, [t.report .invalidExpression])

/-- A group being read: the `(` that opened it with its index, none for the whole condition, and its
terms, newest first. -/
structure Group where
  opener : Option (Nat × PositionedToken) := none
  terms : List PlacedTerm := []
  deriving DecidableEq, Repr

def Group.add (g : Group) (term : PlacedTerm) : Group := { g with terms := term :: g.terms }

/-- The groups being read, the innermost apart, and the reports so far, newest first. -/
structure Reading where
  group : Group := {}
  outer : List Group := []
  reports : List Report := []

namespace Reading

def report (r : Reading) (report : Report) : Reading := { r with reports := report :: r.reports }

/-- The value of a group that ends at index `index`. A group of no tokens is reported at its `(`. -/
def closeGroup (g : Group) (index : Nat) : Bool × List Report :=
  match g.opener with
  | some (start, t) =>
    if start + 1 = index then (false, [t.reportAfter .invalidExpression])
    else foldTerms .start g.terms.reverse
  | none => foldTerms .start g.terms.reverse

/-- Reads the token at an index. -/
def step (defined : String → Bool) (r : Reading) (entry : PositionedToken × Nat) : Reading :=
  let (t, index) := entry
  if t.token.isBrace .parenOpen then
    { r with group := { opener := some (index, t) }, outer := r.group :: r.outer }
  else if t.token.isBrace .parenClose then
    match r.outer with
    | [] => r.report (t.report .invalidExpression)
    | parent :: outer =>
      let (value, reports) := closeGroup r.group index
      { group := parent.add (.value value, t), outer, reports := reports.reverse ++ r.reports }
  else
    match term? defined t.token with
    | some term => { r with group := r.group.add (term, t) }
    | none => r.report (t.report .invalidExpression)

def read (defined : String → Bool) (tokens : List PositionedToken) : Reading :=
  tokens.zipIdx.foldl (step defined) {}

end Reading

/-- The depth of open parentheses, and the index of the outermost one while there is one. -/
def trackDepth (state : Nat × Nat) (entry : PositionedToken × Nat) : Nat × Nat :=
  let (depth, start) := state
  let (t, index) := entry
  if t.token.isBrace .parenOpen then (depth + 1, if depth = 0 then index else start)
  else if t.token.isBrace .parenClose then (depth - 1, start)
  else (depth, start)

/-- The index of the outermost `(` that is never closed. -/
def unclosed? (tokens : List PositionedToken) : Option Nat :=
  let (depth, start) := tokens.zipIdx.foldl trackDepth (0, 0)
  if 0 < depth then some start else none

/-- The value of a condition and what is wrong with it. `anchor` is the token before the condition.
A group that is never closed takes the rest of the condition with it. -/
def evaluate (defined : String → Bool) (tokens : List PositionedToken)
    (anchor : PositionedToken) : Bool × List Report :=
  if tokens.isEmpty then (false, [anchor.reportAfter .invalidExpression])
  else
    match unclosed? tokens with
    | some start =>
      let reading := Reading.read defined (tokens.take start)
      let reports := (tokens[start]?.map (·.report .invalidExpression)).toList
      (false, reading.reports.reverse ++ reports)
    | none =>
      let reading := Reading.read defined tokens
      let (value, reports) := foldTerms .start reading.group.terms.reverse
      (value, reading.reports.reverse ++ reports)

end Condition

end SharpFront
