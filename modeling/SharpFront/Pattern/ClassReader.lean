import SharpFront.Pattern.CharSet

/-!
# The notation of classes

Between brackets stand characters, ranges such as `a-z`, `\s` for the blanks, classes by name such
as `[:alpha:]`, and classes. A `^` after the opening bracket makes it the complement. `&&`, `--` and
`~~` stand between what is before and what is after them, for what both have, the first alone has,
or one of them alone has; the earlier operator is applied first.
-/

namespace SharpFront.Pattern

/-- A value read from the notation, and how deep constructs are nested in it. -/
structure Nested (α : Type) where
  value : α
  depth : Nat

/-- The depth of constructs side by side: several are one construct more. -/
def depthTogether : List Nat → Nat
  | [] => 0
  | [d] => d
  | ds => 1 + ds.foldl max 0

/-- The character that an escape stands for, given what follows the backslash. Any ASCII character
but letters, digits and angle brackets stands for itself. -/
def escapedChar? (c : Char) : Option Char :=
  match c with
  | 'a' => some '\x07'
  | 'f' => some '\x0c'
  | 'n' => some '\n'
  | 'r' => some '\r'
  | 't' => some '\t'
  | 'v' => some '\x0b'
  | c => if c.toNat < 0x80 && !c.isAlphanum && c != '<' && c != '>' then some c else none

namespace ClassReader

/-! ## Classes with a name -/

/-- The ranges of a class that has a name. All are of ASCII characters. -/
def namedRanges? : String → Option (List (Char × Char))
  | "alnum" => some [('0', '9'), ('A', 'Z'), ('a', 'z')]
  | "alpha" => some [('A', 'Z'), ('a', 'z')]
  | "ascii" => some [('\x00', '\x7f')]
  | "blank" => some [('\t', '\t'), (' ', ' ')]
  | "cntrl" => some [('\x00', '\x1f'), ('\x7f', '\x7f')]
  | "digit" => some [('0', '9')]
  | "graph" => some [('!', '~')]
  | "lower" => some [('a', 'z')]
  | "print" => some [(' ', '~')]
  | "punct" => some [('!', '/'), (':', '@'), ('[', '\x60'), ('\x7b', '~')]
  | "space" => some [('\t', '\r'), (' ', ' ')]
  | "upper" => some [('A', 'Z')]
  | "word" => some [('0', '9'), ('A', 'Z'), ('_', '_'), ('a', 'z')]
  | "xdigit" => some [('0', '9'), ('A', 'F'), ('a', 'f')]
  | _ => none

/-- A class with a name, given what follows its opening bracket: the name between colons, behind a
`^` for the complement. -/
def named? : List Char → Option (CharSet × List Char)
  | ':' :: text =>
    let (negated, text) : Bool × List Char :=
      match text with
      | '^' :: rest => (true, rest)
      | _ => (false, text)
    let name := text.takeWhile (· != ':')
    match text.drop name.length with
    | ':' :: ']' :: rest => do
      let ranges ← namedRanges? (String.ofList name)
      let set := ranges.foldl (fun set (lo, hi) => set.union (.range lo hi)) .empty
      return (if negated then set.complement else set, rest)
    | _ => none
  | _ => none

/-! ## Classes being read -/

inductive SetOperator where
  | inter
  | diff
  | symmDiff
  deriving DecidableEq, Repr

def SetOperator.apply : SetOperator → CharSet → CharSet → CharSet
  | inter => CharSet.inter
  | diff => CharSet.diff
  | symmDiff => CharSet.symmDiff

/-- A class being read: what the operators so far have left and the last of them, and the members
after it, newest first. -/
structure OpenClass where
  negated : Bool := false
  pending : Option (Nested CharSet × SetOperator) := none
  members : List (Nested CharSet) := []

namespace OpenClass

def add (o : OpenClass) (s : Nested CharSet) : OpenClass := { o with members := s :: o.members }

def addRange (o : OpenClass) (lo hi : Char) : OpenClass := o.add ⟨.range lo hi, 0⟩

/-- What has been read, all operators applied. -/
def value (o : OpenClass) : Nested CharSet :=
  let last : Nested CharSet :=
    ⟨(o.members.map (·.value)).foldl CharSet.union .empty, depthTogether (o.members.map (·.depth))⟩
  match o.pending with
  | none => last
  | some (before, op) => ⟨op.apply before.value last.value, 1 + max before.depth last.depth⟩

def operator (o : OpenClass) (op : SetOperator) : OpenClass :=
  { o with pending := some (o.value, op), members := [] }

def close (o : OpenClass) : Nested CharSet :=
  let v := o.value
  ⟨if o.negated then v.value.complement else v.value, 1 + v.depth⟩

end OpenClass

/-- Reads `^` and the members that only count as such at the start: any number of `-`, or else one
closing bracket. -/
def begin (text : List Char) : OpenClass × List Char :=
  let (o, text) : OpenClass × List Char :=
    match text with
    | '^' :: rest => ({ negated := true }, rest)
    | _ => ({}, text)
  let dashes := text.takeWhile (· == '-')
  let o := dashes.foldl (fun o c => o.addRange c c) o
  match text.drop dashes.length with
  | ']' :: rest => if dashes.isEmpty then (o.addRange ']' ']', rest) else (o, ']' :: rest)
  | rest => (o, rest)

/-- One member: a character, or none for the blanks. -/
def member? : List Char → Option (Option Char × List Char)
  | '\\' :: 's' :: rest => some (none, rest)
  | '\\' :: c :: rest => (escapedChar? c).map fun c => (some c, rest)
  | ['\\'] | [] => none
  | c :: rest => some (some c, rest)

/-- Reads on with the innermost open class and the ones around it, up to the end of the outermost.
Each step takes at least one character. -/
def read? : Nat → OpenClass → List OpenClass → List Char → Option (Nested CharSet × List Char)
  | 0, _, _, _ => none
  | fuel + 1, o, outer, text =>
    match text with
    | '[' :: rest =>
      match named? rest with
      | some (set, rest) => read? fuel (o.add ⟨set, 0⟩) outer rest
      | none =>
        let (inner, rest) := begin rest
        read? fuel inner (o :: outer) rest
    | ']' :: rest =>
      match outer with
      | [] => some (o.close, rest)
      | parent :: outer => read? fuel (parent.add o.close) outer rest
    | '&' :: '&' :: rest => read? fuel (o.operator .inter) outer rest
    | '-' :: '-' :: rest => read? fuel (o.operator .diff) outer rest
    | '~' :: '~' :: rest => read? fuel (o.operator .symmDiff) outer rest
    | _ => do
      let (first, rest) ← member? text
      match rest with
      | '-' :: next =>
        if next.head? = some ']' || next.head? = some '-' then
          read? fuel (addMember o first) outer rest
        else
          let (last, rest) ← member? next
          let lo ← first
          let hi ← last
          if lo.toNat ≤ hi.toNat then read? fuel (o.addRange lo hi) outer rest else none
      | _ => read? fuel (addMember o first) outer rest
where
  addMember (o : OpenClass) : Option Char → OpenClass
    | some c => o.addRange c c
    | none => o.add ⟨.blanks, 0⟩

end ClassReader

/-- A class, given what follows its opening bracket. -/
def class? (text : List Char) : Option (Nested CharSet × List Char) :=
  let (o, rest) := ClassReader.begin text
  ClassReader.read? (rest.length + 1) o [] rest

end SharpFront.Pattern
