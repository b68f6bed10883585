import SharpFront.Pattern.CharSet

/-!
# Patterns

A pattern describes texts. Where it can match in several ways, the ways are ordered: an earlier
alternative before a later one, and more repetitions before fewer, or the other way round where a
repetition is lazy. The first way counts, whatever its length.

Patterns are built by `concat`, `choice`, `repeated` and `ofSet`, which bring them into one form:
nothing empty stands in a sequence, characters next to each other are one literal, and what all
alternatives begin with stands before the choice. The last rule can change which way comes first:
the ways of the common start are then ordered before those of what follows it.
-/

namespace SharpFront

inductive Pattern where
  | empty
  | literal (text : List Char)
  | oneOf (set : CharSet)
  | textStart
  | textEnd
  /-- A numbered group. It stays apart from what stands beside it. -/
  | group (number : Nat) (p : Pattern)
  /-- Without `most`, any number of repetitions from `least` on. -/
  | repetition (p : Pattern) (least : Nat) (most : Option Nat) (greedy : Bool)
  | sequence (a b : Pattern)
  | either (a b : Pattern)
  deriving DecidableEq, Repr

namespace Pattern

/-- Matches without covering text. -/
def canBeEmpty : Pattern → Bool
  | empty | textStart | textEnd => true
  | literal text => text.isEmpty
  | oneOf _ => false
  | group _ p => canBeEmpty p
  | repetition p least _ _ => least == 0 || canBeEmpty p
  | sequence a b => canBeEmpty a && canBeEmpty b
  | either a b => canBeEmpty a || canBeEmpty b

/-- Never covers text. -/
def isPoint : Pattern → Bool
  | empty | textStart | textEnd => true
  | literal text => text.isEmpty
  | oneOf _ => false
  | group _ p => isPoint p
  | repetition p _ most _ => most.isSome && isPoint p
  | sequence a b | either a b => isPoint a && isPoint b

/-- Matches at the start of the text alone. -/
def startsText : Pattern → Bool
  | textStart => true
  | group _ p => startsText p
  | repetition p least _ _ => least != 0 && startsText p
  | sequence a _ => startsText a
  | either a b => startsText a && startsText b
  | empty | literal _ | oneOf _ | textEnd => false

/-! ## Sequences -/

/-- The parts of a sequence. -/
def parts : Pattern → List Pattern
  | empty => []
  | sequence a b => a :: parts b
  | p => [p]

/-- Puts a part in front of others. Literals that meet become one. -/
def addPart : Pattern → List Pattern → List Pattern
  | literal a, literal b :: rest => literal (a ++ b) :: rest
  | p, rest => p :: rest

def ofParts : List Pattern → Pattern
  | [] => empty
  | [p] => p
  | p :: rest => sequence p (ofParts rest)

/-- One pattern after the other. -/
def concat (ps : List Pattern) : Pattern := ofParts ((ps.flatMap parts).foldr addPart [])

/-! ## Alternatives -/

/-- A set of one character is a literal. -/
def ofSet (s : CharSet) : Pattern :=
  match s.single? with
  | some c => literal [c]
  | none => oneOf s

def alternatives : Pattern → List Pattern
  | either a b => a :: alternatives b
  | p => [p]

def ofAlternatives : List Pattern → Pattern
  | [] => oneOf .empty
  | [p] => p
  | p :: rest => either p (ofAlternatives rest)

def literalChar? : Pattern → Option CharSet
  | literal [c] => some (.single c)
  | _ => none

def set? : Pattern → Option CharSet
  | oneOf s => some s
  | _ => none

/-- The set of characters that single characters, or sets, stand for together. -/
def mergedSet? (ps : List Pattern) : Option CharSet :=
  ((ps.mapM literalChar?).or (ps.mapM set?)).map (·.foldl CharSet.union .empty)

/-- Choices among the alternatives are choices of the whole. -/
def flatChoice (ps : List Pattern) : Pattern :=
  let ps := ps.flatMap alternatives
  match ps, mergedSet? ps with
  | [p], _ => p
  | _, some s => ofSet s
  | _, none => ofAlternatives ps

/-- The parts that both lists begin with. -/
def sharedStart : List Pattern → List Pattern → List Pattern
  | a :: as, b :: bs => if a = b then a :: sharedStart as bs else []
  | _, _ => []

def isSequence : Pattern → Bool
  | sequence _ _ => true
  | _ => false

/-- The parts that all alternatives begin with. They have to be sequences, or share nothing. -/
def commonStart : List Pattern → List Pattern
  | [] => []
  | p :: ps =>
    if (p :: ps).all isSequence then ps.foldl (fun start q => sharedStart start q.parts) p.parts
    else []

/-- One of several patterns, the first before the others. -/
def choice (ps : List Pattern) : Pattern :=
  match flatChoice ps with
  | either a b =>
    let ps := alternatives (either a b)
    let start := commonStart ps
    if start.isEmpty then either a b
    else concat (start ++ [flatChoice (ps.map fun p => ofParts (p.parts.drop start.length))])
  | p => p

/-! ## Repetitions -/

/-- What covers no text is not repeated. -/
def repeated (p : Pattern) (least : Nat) (most : Option Nat) (greedy : Bool) : Pattern :=
  let (least, most) :=
    if p.isPoint then (min least 1, some (min (most.getD 1) 1)) else (least, most)
  match least, most with
  | _, some 0 => empty
  | 1, some 1 => p
  | _, _ => repetition p least most greedy

end Pattern

end SharpFront
