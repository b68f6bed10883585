/-!
# Levels of conditional code

Each open `#if` is a level. Of the branches of a level at most one is selected: the first whose
condition holds, or else the `#else` branch. Code is included where every open level has its branch
selected.
-/

namespace SharpFront

structure ConditionLevel where
  /-- The branch being read is selected. -/
  enabled : Bool
  /-- Some branch of the level has been selected. -/
  hasEnabled : Bool
  /-- The level has come to its `#else`. -/
  isFinal : Bool
  deriving DecidableEq, Repr

namespace ConditionLevel

/-- The level that `#if` opens. -/
def opened (condition : Bool) : ConditionLevel := ⟨condition, condition, false⟩

/-- The next branch, after `#elif`. -/
def branch (l : ConditionLevel) (condition : Bool) : ConditionLevel :=
  ⟨condition && !l.hasEnabled, condition || l.hasEnabled, l.isFinal⟩

/-- The last branch, after `#else`. -/
def lastBranch (l : ConditionLevel) : ConditionLevel := ⟨!l.hasEnabled, true, true⟩

end ConditionLevel

/-- The open levels, innermost first. -/
structure ConditionStack where
  levels : List ConditionLevel := []
  deriving DecidableEq, Repr

namespace ConditionStack

def push (s : ConditionStack) (l : ConditionLevel) : ConditionStack := ⟨l :: s.levels⟩

def pop (s : ConditionStack) : ConditionStack × Option ConditionLevel :=
  (⟨s.levels.tail⟩, s.levels.head?)

def top? (s : ConditionStack) : Option ConditionLevel := s.levels.head?

/-- Changes the innermost level, if there is one. -/
def modifyTop (s : ConditionStack) (f : ConditionLevel → ConditionLevel) : ConditionStack :=
  match s.levels with
  | [] => s
  | l :: rest => ⟨f l :: rest⟩

def depth (s : ConditionStack) : Nat := s.levels.length

def isEmpty (s : ConditionStack) : Bool := s.levels.isEmpty

def includesCode (s : ConditionStack) : Bool := s.levels.all (·.enabled)

end ConditionStack

end SharpFront
