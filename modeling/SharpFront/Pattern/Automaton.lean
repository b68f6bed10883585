import SharpFront.Pattern
import SharpFront.Source.Span

/-!
# Automata

An automaton is a list of instructions, each of which names the ones to go on with. A pattern
becomes a fragment: given where to go on, it adds its instructions and says where to start.
Instruction 0 is the end of every match.
-/

namespace SharpFront.Pattern

inductive Instruction where
  | accept
  | take (set : CharSet) (next : Nat)
  /-- Goes on in two ways, the first before the second. -/
  | fork (first second : Nat)
  | textStart (next : Nat)
  | textEnd (next : Nat)
  deriving DecidableEq, Repr

abbrev Code := Array Instruction

abbrev Fragment := Nat → Code → Nat × Code

namespace Fragment

def emit (i : Instruction) (code : Code) : Nat × Code := (code.size, code.push i)

/-- The two ways of a repetition: another round, or no more. -/
def chance (greedy : Bool) (round next : Nat) : Instruction :=
  if greedy then .fork round next else .fork next round

/-- A number of rounds. -/
def copies (f : Fragment) : Nat → Fragment
  | 0, next, code => (next, code)
  | n + 1, next, code =>
    let (entry, code) := f next code
    copies f n entry code

/-- Up to a number of rounds. Before each of them there is a way to `stop`. -/
def upTo (f : Fragment) (greedy : Bool) (stop : Nat) : Nat → Fragment
  | 0, next, code => (next, code)
  | n + 1, next, code =>
    let (entry, code) := f next code
    let (choice, code) := emit (chance greedy entry stop) code
    upTo f greedy stop n choice code

/-- A round with a choice behind it that leads back. Gives the starts of both. -/
def loop (f : Fragment) (greedy : Bool) (next : Nat) (code : Code) : Nat × Nat × Code :=
  let (choice, code) := emit .accept code
  let (entry, code) := f choice code
  (entry, choice, code.setIfInBounds choice (chance greedy entry next))

def atLeastOnce (f : Fragment) (greedy : Bool) : Fragment := fun next code =>
  let (entry, _, code) := loop f greedy next code
  (entry, code)

/-- Any number of rounds. A round that can be empty gets a choice of its own to start with, so that
after an empty round the choice behind it is still to be made and leads on from there. -/
def anyNumber (f : Fragment) (greedy canBeEmpty : Bool) : Fragment := fun next code =>
  let (entry, choice, code) := loop f greedy next code
  if canBeEmpty then emit (chance greedy entry next) code else (choice, code)

def repetition (f : Fragment) (canBeEmpty : Bool) (least : Nat) (most : Option Nat)
    (greedy : Bool) : Fragment := fun next code =>
  match least, most with
  | 0, none => anyNumber f greedy canBeEmpty next code
  | n + 1, none =>
    let (entry, code) := atLeastOnce f greedy next code
    copies f n entry code
  | n, some m =>
    let (entry, code) := upTo f greedy next (m - n) next code
    copies f n entry code

def literal (text : List Char) : Fragment := fun next code =>
  text.foldr (fun c (next, code) => emit (.take (.single c) next) code) (next, code)

/-- The instructions of a pattern. -/
def ofPattern : Pattern → Fragment
  | .empty, next, code => (next, code)
  | .literal text, next, code => literal text next code
  | .oneOf s, next, code => emit (.take s next) code
  | .textStart, next, code => emit (.textStart next) code
  | .textEnd, next, code => emit (.textEnd next) code
  | .group _ p, next, code => ofPattern p next code
  | .repetition p least most greedy, next, code =>
    repetition (fun next code => ofPattern p next code) p.canBeEmpty least most greedy next code
  | .sequence a b, next, code =>
    let (entry, code) := ofPattern b next code
    ofPattern a entry code
  | .either a b, next, code =>
    let (second, code) := ofPattern b next code
    let (first, code) := ofPattern a next code
    emit (.fork first second) code

end Fragment

/-! ## Weights -/

/-- What a set of characters weighs. Beyond ASCII a character takes more than one byte, and a set of
them many states. -/
def setWeight (s : CharSet) : Nat := if s.isAscii then 64 + 8 * s.ranges.length else 1000

/-- How large the automaton of a pattern is: a state weighs 32, and each way on from a choice 4. -/
def weight : Pattern → Nat
  | empty | textStart | textEnd => 32
  | literal text => 32 * byteSize text
  | oneOf s => setWeight s
  | group _ p => weight p + 64
  | sequence a b => weight a + weight b
  | either a b =>
    let last := match b with
      | either _ _ => 0
      | _ => 68
    weight a + weight b + 4 + last
  | repetition p least most _ =>
    match least, most with
    | 0, none => if canBeEmpty p then weight p + 112 else weight p + 40
    | n, none => n * weight p + 40
    | 0, some 1 => weight p + 72
    | n, some m => n * weight p + (m - n) * (weight p + 40) + (if n = m then 0 else 32)

/-- No automaton is larger. -/
def weightLimit : Nat := 10 <<< 20

/-- What an automaton weighs besides its pattern. -/
def frameWeight : Nat := 144

structure Automaton where
  code : Code
  /-- The instruction to start with. -/
  entry : Nat
  /-- A match can only start where the text starts. -/
  startOnly : Bool
  deriving DecidableEq, Repr

/-- The automaton of a pattern, unless it is too large. -/
def automaton? (p : Pattern) : Option Automaton :=
  if weightLimit < p.weight + frameWeight then none
  else
    let (entry, code) := Fragment.ofPattern p 0 #[.accept]
    some { code, entry, startOnly := p.startsText }

end SharpFront.Pattern
