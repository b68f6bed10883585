/-!
# Braces

A brace has a kind and a side. Two braces form a pair when the kinds agree and the sides differ.
-/

namespace SharpFront

inductive BraceKind where
  | block
  | paren
  | bracket
  | angle
  deriving DecidableEq, Repr

inductive BraceSide where
  | opening
  | closing
  deriving DecidableEq, Repr

structure Brace where
  kind : BraceKind
  side : BraceSide
  deriving DecidableEq, Repr

namespace Brace

def blockOpen : Brace := ⟨.block, .opening⟩
def blockClose : Brace := ⟨.block, .closing⟩
def parenOpen : Brace := ⟨.paren, .opening⟩
def parenClose : Brace := ⟨.paren, .closing⟩
def bracketOpen : Brace := ⟨.bracket, .opening⟩
def bracketClose : Brace := ⟨.bracket, .closing⟩
def angleOpen : Brace := ⟨.angle, .opening⟩
def angleClose : Brace := ⟨.angle, .closing⟩

def all : List Brace := [
  blockOpen, blockClose, parenOpen, parenClose, bracketOpen, bracketClose, angleOpen, angleClose]

def char : Brace → Char
  | ⟨.block, .opening⟩ => '{'
  | ⟨.block, .closing⟩ => '}'
  | ⟨.paren, .opening⟩ => '('
  | ⟨.paren, .closing⟩ => ')'
  | ⟨.bracket, .opening⟩ => '['
  | ⟨.bracket, .closing⟩ => ']'
  | ⟨.angle, .opening⟩ => '<'
  | ⟨.angle, .closing⟩ => '>'

def isOpen (b : Brace) : Bool := b.side == .opening

def isClose (b : Brace) : Bool := b.side == .closing

def sameKind (a b : Brace) : Bool := a.kind == b.kind

def pairs (a b : Brace) : Bool := a.sameKind b && a.side != b.side

def ofChar? (c : Char) : Option Brace := all.find? (·.char == c)

end Brace

end SharpFront
