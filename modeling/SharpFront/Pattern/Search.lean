import SharpFront.Pattern.Automaton
import SharpFront.Pattern.Program

/-!
# Matching

An automaton runs through a text with a list of threads, each waiting at an instruction that takes a
character, and ordered as the ways to match are. A thread that arrives at an instruction where one
before it has been at the same place in the text is given up: the one before decides all that could
follow. So a round of a repetition that covers nothing does not lead to another.
-/

namespace SharpFront.Pattern

/-- The threads at one place in the text, the last first, and the instructions reached there. -/
structure Frontier where
  reached : Array Bool
  threads : List Nat := []

namespace Automaton

def frontier (a : Automaton) : Frontier := { reached := Array.replicate a.code.size false }

/-- Follows the instructions that take no character. Each of them is followed once and leads to at
most two, so `2 * size + 2` steps are enough. -/
def follow (a : Automaton) (atStart atEnd : Bool) : Nat → List Nat → Frontier → Frontier
  | 0, _, f => f
  | _, [], f => f
  | fuel + 1, i :: stack, f =>
    if f.reached[i]? != some false then follow a atStart atEnd fuel stack f
    else
      let f := { f with reached := f.reached.setIfInBounds i true }
      match a.code[i]? with
      | some (.fork first second) => follow a atStart atEnd fuel (first :: second :: stack) f
      | some (.textStart next) =>
        follow a atStart atEnd fuel (if atStart then next :: stack else stack) f
      | some (.textEnd next) =>
        follow a atStart atEnd fuel (if atEnd then next :: stack else stack) f
      | _ => follow a atStart atEnd fuel stack { f with threads := i :: f.threads }

/-- Adds what can be reached from an instruction. -/
def arrive (a : Automaton) (atStart atEnd : Bool) (f : Frontier) (i : Nat) : Frontier :=
  a.follow atStart atEnd (2 * a.code.size + 2) [i] f

/-- The threads that go on past a character. -/
def advance (a : Automaton) (c : Char) (atEnd : Bool) (threads : List Nat) : List Nat :=
  let f := threads.foldl (fun f i =>
    match a.code[i]? with
    | some (.take set next) => if set.contains c then a.arrive false atEnd f next else f
    | _ => f) a.frontier
  f.threads.reverse

/-- How long the match is, given the threads after the first `n` characters and the match so far.
A thread that has matched ends those after it. -/
def lengthFrom (a : Automaton) : List Char → List Nat → Nat → Option Nat → Option Nat
  | text, threads, n, best =>
    let best := if threads.contains 0 then some n else best
    let threads := threads.takeWhile (· != 0)
    match text with
    | [] => best
    | c :: rest =>
      if threads.isEmpty then best
      else lengthFrom a rest (a.advance c rest.isEmpty threads) (n + 1) best

/-- The match that starts with the text. -/
def matchHere? (a : Automaton) (atStart : Bool) (text : List Char) : Option (List Char) :=
  let f := a.arrive atStart text.isEmpty a.frontier a.entry
  (a.lengthFrom text f.threads.reverse 0 none).map text.take

/-- The first match that starts after the first character. -/
def matchLater? (a : Automaton) : List Char → Option (List Char)
  | [] => none
  | _ :: rest =>
    match a.matchHere? false rest with
    | some found => some found
    | none => matchLater? a rest

/-- The first match in a text. -/
def find? (a : Automaton) (text : List Char) : Option (List Char) :=
  match a.matchHere? true text with
  | some found => some found
  | none => if a.startOnly then none else a.matchLater? text

variable {a : Automaton} {atStart : Bool} {text found : List Char}

theorem isPrefix_of_matchHere? (h : a.matchHere? atStart text = some found) : found <+: text := by
  obtain ⟨n, -, rfl⟩ := Option.map_eq_some_iff.mp h
  exact List.take_prefix n text

theorem isInfix_of_matchLater? (h : a.matchLater? text = some found) : found <:+: text := by
  induction text with
  | nil => cases h
  | cons c rest ih =>
    rw [matchLater?] at h
    split at h
    · next found here =>
      cases h
      exact (isPrefix_of_matchHere? here).isInfix.trans (List.suffix_cons c rest).isInfix
    · exact (ih h).trans (List.suffix_cons c rest).isInfix

/-- The search as a program. -/
def program (a : Automaton) : Program where
  find? := a.find?
  isInfix h := by
    rw [find?] at h
    split at h
    · next here =>
      cases h
      exact (isPrefix_of_matchHere? here).isInfix
    · split at h
      · cases h
      · exact isInfix_of_matchLater? h

end Automaton

end SharpFront.Pattern
