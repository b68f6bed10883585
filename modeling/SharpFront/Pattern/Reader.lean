import SharpFront.Pattern.ClassReader
import SharpFront.Pattern.Search

/-!
# The notation of patterns

Characters stand for themselves, `\` before punctuation takes away its meaning. `.` is any
character but a line feed, `[...]` a class, `\s` a blank, `^` the start and `$` the end of the text.
`|` separates alternatives, `(?:...)` and `(...)` group, and `*`, `+`, `?`, `{n}`, `{n,}` and
`{n,m}` repeat what stands before them, lazily when a `?` follows. Of the escapes for several
characters only `\s` is read, and none for places in the text.
-/

namespace SharpFront.Pattern

/-- Constructs are nested no deeper. -/
def depthLimit : Nat := 250

namespace Reader

/-- The digits at the start of a text as a number of 32 bits, if there are any. Blanks around them
do not count. -/
def number? (text : List Char) : Option (Nat × List Char) :=
  let text := text.dropWhile Text.isBlank
  let digits := text.takeWhile Char.isDigit
  let n := Nat.ofDigitChars 10 digits 0
  if digits.isEmpty || UInt32.size ≤ n then none
  else some (n, (text.drop digits.length).dropWhile Text.isBlank)

/-- The bounds of a repetition, given what follows the opening brace. -/
def bounds? (text : List Char) : Option (Nat × Option Nat × List Char) := do
  let (least, rest) ← number? text
  match rest with
  | '}' :: rest => some (least, some least, rest)
  | ',' :: '}' :: rest => some (least, none, rest)
  | ',' :: rest =>
    match ← number? rest with
    | (most, '}' :: rest) => if least ≤ most then some (least, some most, rest) else none
    | _ => none
  | _ => none

/-- An open group: the alternatives before the one being read and the parts of that one, both newest
first. -/
structure Group where
  /-- The number of a group that has one. -/
  number : Option Nat := none
  alternatives : List (Nested Pattern) := []
  parts : List (Nested Pattern) := []

namespace Group

def add (g : Group) (p : Pattern) (depth : Nat := 0) : Group :=
  { g with parts := ⟨p, depth⟩ :: g.parts }

/-- The alternative being read. -/
def current (g : Group) : Nested Pattern :=
  ⟨concat (g.parts.reverse.map (·.value)), depthTogether (g.parts.map (·.depth))⟩

/-- What stands in the group. -/
def content (g : Group) : Nested Pattern :=
  let all := g.current :: g.alternatives
  ⟨choice (all.reverse.map (·.value)), depthTogether (all.map (·.depth))⟩

/-- The group as a part of the one around it. -/
def close (g : Group) : Nested Pattern :=
  let c := g.content
  match g.number with
  | some n => ⟨group n c.value, 1 + c.depth⟩
  | none => ⟨c.value, 1 + c.depth⟩

def nextAlternative (g : Group) : Group :=
  { g with alternatives := g.current :: g.alternatives, parts := [] }

/-- Repeats the part before; without one there is nothing to repeat. -/
def repeatLast? (g : Group) (least : Nat) (most : Option Nat) (greedy : Bool) : Option Group :=
  match g.parts with
  | [] => none
  | p :: parts =>
    some { g with parts := ⟨repeated p.value least most greedy, 1 + p.depth⟩ :: parts }

end Group

/-- Reads on with the innermost open group and the ones around it. `count` is the number of the next
group that has one. Each step takes at least one character. -/
def read? : Nat → Nat → Group → List Group → List Char → Option (Nested Pattern)
  | 0, _, _, _, _ => none
  | fuel + 1, count, g, outer, text =>
    let quantified (least : Nat) (most : Option Nat) (rest : List Char) :=
      match rest with
      | '?' :: rest => do read? fuel count (← g.repeatLast? least most false) outer rest
      | _ => do read? fuel count (← g.repeatLast? least most true) outer rest
    match text with
    | [] => if outer.isEmpty then some g.content else none
    | '(' :: '?' :: ':' :: rest => read? fuel count {} (g :: outer) rest
    | '(' :: '?' :: _ => none
    | '(' :: rest => read? fuel (count + 1) { number := some count } (g :: outer) rest
    | ')' :: rest =>
      match outer with
      | [] => none
      | parent :: outer =>
        let closed := g.close
        read? fuel count (parent.add closed.value closed.depth) outer rest
    | '|' :: rest => read? fuel count g.nextAlternative outer rest
    | '*' :: rest => quantified 0 none rest
    | '+' :: rest => quantified 1 none rest
    | '?' :: rest => quantified 0 (some 1) rest
    | '{' :: rest => do
      let (least, most, rest) ← bounds? rest
      quantified least most rest
    | '[' :: rest => do
      let (s, rest) ← class? rest
      read? fuel count (g.add (ofSet s.value) s.depth) outer rest
    | '.' :: rest => read? fuel count (g.add (ofSet .dot)) outer rest
    | '^' :: rest => read? fuel count (g.add textStart) outer rest
    | '$' :: rest => read? fuel count (g.add textEnd) outer rest
    | '\\' :: 's' :: rest => read? fuel count (g.add (ofSet .blanks)) outer rest
    | '\\' :: c :: rest => do
      read? fuel count (g.add (literal [← escapedChar? c])) outer rest
    | ['\\'] => none
    | c :: rest => read? fuel count (g.add (literal [c])) outer rest

end Reader

/-- Reads a pattern; `none` when the notation is broken or nested too deep. -/
def ofText? (text : List Char) : Option Pattern :=
  match Reader.read? (text.length + 1) 1 {} [] text with
  | some p => if p.depth ≤ depthLimit then some p.value else none
  | none => none

/-- The program of a pattern that is tried at the start of a text; `none` when it cannot be read or
is too large. The start and a group are written around the pattern, so that a closing parenthesis of
its own can end that group. -/
def Program.ofText? (text : String) : Option Program := do
  let p ← Pattern.ofText? (['^', '(', '?', ':'] ++ text.toList ++ [')'])
  let a ← p.automaton?
  return a.program

end SharpFront.Pattern
