import SharpFront.Proofs.Condition.Brackets
import SharpFront.Proofs.Condition.Reports

/-!
# The groups of a condition on a stack

A condition is read once more, with the groups on a stack of which nothing says that it holds one.
Where a group, its `(` or a token is missing there is no answer.

* `GroupStack`, `evaluateStacked?`: the stack, and what a condition comes to with it;
* `step?_ofReading`, `read?_eq`: a group is never missing, since the whole condition is one that
  nothing closes, and any other begins with its `(`;
* `unclosed?_eq_some_iff`, `unclosed?_eq_none_iff_allClosed`: what the search for an open `(` finds;
* `openers_of_firstUnclosed`: no `(` is open before the first that is never closed;
* `evaluate_stacked`: reading up to there closes all groups but the whole condition.
-/

namespace SharpFront.Condition

/-! ## Reading with a stack -/

/-- The groups being read, innermost first, and the reports so far, newest first. -/
structure GroupStack where
  groups : List Group := [{}]
  reports : List Report := []
  deriving DecidableEq, Repr

namespace GroupStack

def report (s : GroupStack) (report : Report) : GroupStack :=
  { s with reports := report :: s.reports }

/-- Adds a term to the innermost group. -/
def add? (s : GroupStack) (term : PlacedTerm) : Option GroupStack :=
  match s.groups with
  | [] => none
  | g :: outer => some { s with groups := g.add term :: outer }

/-- Takes the innermost group off at the `)` with an index, and adds its value to the next one. The
token at the index of the `(` is looked up again where the group is empty. -/
def close? (tokens : List PositionedToken) (s : GroupStack) (entry : PositionedToken × Nat) :
    Option GroupStack := do
  let g ← s.groups.head?
  let (start, _) ← g.opener
  let (value, reports) ←
    if start + 1 = entry.2 then do
      let opener ← tokens[start]?
      some (false, [opener.reportAfter .invalidExpression])
    else some (foldTerms .start g.terms.reverse)
  add? ⟨s.groups.tail, reports.reverse ++ s.reports⟩ (.value value, entry.1)

/-- Reads the token at an index. -/
def step? (defined : String → Bool) (tokens : List PositionedToken) (s : GroupStack)
    (entry : PositionedToken × Nat) : Option GroupStack :=
  let (t, index) := entry
  if t.token.isBrace .parenOpen then
    some { s with groups := { opener := some (index, t) } :: s.groups }
  else if t.token.isBrace .parenClose then
    if s.groups.length = 1 then some (s.report (t.report .invalidExpression))
    else s.close? tokens entry
  else
    match term? defined t.token with
    | some term => s.add? (term, t)
    | none => some (s.report (t.report .invalidExpression))

/-- Reads the first of the tokens. -/
def read? (defined : String → Bool) (tokens first : List PositionedToken) : Option GroupStack :=
  first.zipIdx.foldlM (step? defined tokens) {}

end GroupStack

/-- What is read of a condition: everything, or what stands before the `(` that the search finds. -/
def scanned (tokens : List PositionedToken) : List PositionedToken :=
  tokens.take ((unclosed? tokens).getD tokens.length)

/-- The value of a condition and what is wrong with it, unless something is missing on the way. -/
def evaluateStacked? (defined : String → Bool) (tokens : List PositionedToken)
    (anchor : PositionedToken) : Option (Bool × List Report) := do
  if tokens.isEmpty then some (false, [anchor.reportAfter .invalidExpression])
  else
    let s ← GroupStack.read? defined (scanned tokens) (scanned tokens)
    match unclosed? tokens with
    | some start =>
      let opener ← tokens[start]?
      some (false, s.reports.reverse ++ [opener.report .invalidExpression])
    | none =>
      let root ← s.groups.head?
      let (value, reports) := foldTerms .start root.terms.reverse
      some (value, s.reports.reverse ++ reports)

/-! ## No group is missing -/

variable {defined : String → Bool} {tokens : List PositionedToken} {stack : List PlacedOpener}
  {r : Reading}

/-- A group inside of another is that of the innermost open `(`. -/
theorem Reading.Opened.exists_opener (h : r.Opened stack) (isInner : r.outer ≠ []) :
    ∃ opener outer, stack = opener :: outer ∧ r.group.opener = some opener := by
  cases stack with
  | nil => exact absurd (h.outer_eq_nil_iff.mpr rfl) isInner
  | cons opener outer => exact ⟨opener, outer, rfl, (List.cons.inj h).1⟩

namespace GroupStack

/-- The stack on which the groups of a reading are. -/
def ofReading (r : Reading) : GroupStack := ⟨r.group :: r.outer, r.reports⟩

theorem close?_ofReading (opened : r.Opened stack) (sound : Sound tokens r) {parent : Group}
    {outer : List Group} (isInner : r.outer = parent :: outer) (t : PositionedToken) (n : Nat) :
    (ofReading r).close? tokens (t, n) =
      some ⟨parent.add (.value (Reading.closeGroup r.group n).1, t) :: outer,
        (Reading.closeGroup r.group n).2.reverse ++ r.reports⟩ := by
  have hasOuter : r.outer ≠ [] := isInner ▸ List.cons_ne_nil _ _
  obtain ⟨⟨start, opener⟩, -, -, isOpener⟩ := opened.exists_opener hasOuter
  have isToken := sound.group.opener start opener isOpener
  by_cases isEmpty : start + 1 = n
  · simp [close?, ofReading, isOpener, isEmpty, isToken, isInner, add?, Reading.closeGroup]
  · simp [close?, ofReading, isOpener, isEmpty, isInner, add?, Reading.closeGroup]

theorem step?_ofReading (opened : r.Opened stack) (sound : Sound tokens r) (t : PositionedToken)
    (n : Nat) :
    (ofReading r).step? defined tokens (t, n) = some (ofReading (r.step defined (t, n))) := by
  by_cases isOpener : t.token = .brace .parenOpen
  · rw [step_opener r n isOpener]
    simp only [step?, isOpener, Token.isBrace, beq_self_eq_true, if_true]
    rfl
  by_cases isCloser : t.token = .brace .parenClose
  · have notOpener : (Token.brace .parenClose == Token.brace .parenOpen) = false := by decide
    simp only [step?, isCloser, Token.isBrace, notOpener, beq_self_eq_true, if_true,
      Bool.false_eq_true, if_false]
    cases isInner : r.outer with
    | nil =>
      rw [step_closer_of_whole r n isCloser isInner, if_pos (by simp [ofReading, isInner])]
      rfl
    | cons parent outer =>
      rw [step_closer r n isCloser isInner, if_neg (by simp [ofReading, isInner]),
        close?_ofReading opened sound isInner]
      rfl
  · have notOpener : t.token.isBrace .parenOpen = false := beq_eq_false_iff_ne.mpr isOpener
    have notCloser : t.token.isBrace .parenClose = false := beq_eq_false_iff_ne.mpr isCloser
    rw [step_plain r n isOpener isCloser]
    simp only [step?, notOpener, notCloser, Bool.false_eq_true, if_false]
    cases term? defined t.token <;> rfl

theorem foldlM_ofReading {entries : List (PositionedToken × Nat)} (opened : r.Opened stack)
    (sound : Sound tokens r) (areTokens : ∀ entry ∈ entries, tokens[entry.2]? = some entry.1) :
    entries.foldlM (step? defined tokens) (ofReading r) =
      some (ofReading (entries.foldl (Reading.step defined) r)) := by
  induction entries generalizing r stack with
  | nil => rfl
  | cons entry entries ih =>
    obtain ⟨isToken, others⟩ := List.forall_mem_cons.mp areTokens
    rw [List.foldlM_cons, step?_ofReading opened sound]
    exact ih (opened.step entry.1 entry.2) (sound.step isToken) others

/-- The first tokens are read with the groups of their reading on the stack. -/
theorem read?_eq {first : List PositionedToken} (h : first <+: tokens) :
    read? defined tokens first = some (ofReading (Reading.read defined first)) := by
  obtain ⟨more, rfl⟩ := h
  have areTokens : ∀ entry ∈ first.zipIdx, (first ++ more)[entry.2]? = some entry.1 := by
    intro entry isEntry
    have isToken := List.mem_zipIdx_iff_getElem?.mp isEntry
    rw [List.getElem?_append_left (List.getElem?_eq_some_iff.mp isToken).1, isToken]
  have opened : ({} : Reading).Opened [] := rfl
  exact foldlM_ofReading opened (sound_start _) areTokens

end GroupStack

/-! ## What the search finds -/

theorem unclosed?_eq_some_iff {n : Nat} :
    unclosed? tokens = some n ↔ ∃ before opener after, tokens = before ++ opener :: after ∧
      before.length = n ∧ FirstUnclosed before opener after := by
  constructor
  · intro found
    have isOpen : openers tokens ≠ [] := by
      intro isClosed
      rw [unclosed?_eq, isClosed] at found
      cases found
    obtain ⟨before, opener, after, rfl, first⟩ := exists_firstUnclosed isOpen
    rw [unclosed?_of_firstUnclosed first] at found
    exact ⟨before, opener, after, rfl, Option.some.inj found, first⟩
  · rintro ⟨before, opener, after, rfl, rfl, first⟩
    exact unclosed?_of_firstUnclosed first

theorem unclosed?_eq_none_iff_openers : unclosed? tokens = none ↔ openers tokens = [] := by
  rw [unclosed?_eq, Option.map_eq_none_iff, List.getLast?_eq_none_iff]

theorem unclosed?_eq_none_iff_allClosed : unclosed? tokens = none ↔ AllClosed tokens [] := by
  rw [unclosed?_eq_none_iff_openers]
  constructor
  · rintro isClosed before opener inner rfl isOpener
    rw [List.append_nil]
    refine Classical.byContradiction fun noCloser => ?_
    have isOpen := (mem_openers_iff before inner isOpener).mpr noCloser
    rw [isClosed] at isOpen
    cases isOpen
  · intro closed
    refine Classical.byContradiction fun isOpen => ?_
    obtain ⟨before, opener, after, isSplit, first⟩ := exists_firstUnclosed isOpen
    have hasCloser := closed before opener after isSplit first.isOpener
    rw [List.append_nil] at hasCloser
    exact first.noCloser hasCloser

/-- A `(` is closed before the first one that is never closed, or with it around it not at all. -/
theorem openers_of_firstUnclosed {before after : List PositionedToken} {opener : PositionedToken}
    (first : FirstUnclosed before opener after) : openers before = [] := by
  rw [List.eq_nil_iff_forall_not_mem]
  rintro ⟨n, other⟩ isOpen
  obtain ⟨earlier, inner, rfl, rfl, isOpener⟩ := (nests_openers before).exists_split _ isOpen
  have noCloser := (mem_openers_iff earlier inner isOpener).mp isOpen
  obtain ⟨between, closer, later, isSplit, isCloser, inside⟩ :=
    first.closed earlier other inner rfl isOpener
  rcases List.append_eq_append_iff.mp isSplit with ⟨gap, rfl, isGap⟩ | ⟨gap, rfl, isGap⟩
  · -- the group around holds the `(` and all of its tokens, so it closes that one as well
    cases gap with
    | nil =>
      obtain ⟨rfl, -⟩ := List.cons.inj isGap
      rw [first.isOpener] at isCloser
      cases isCloser
    | cons first' rest =>
      obtain ⟨rfl, rfl⟩ := List.cons.inj isGap
      have isClosed : openers (inner ++ opener :: rest) = [] := inside.foldl_trackOpeners [] 0
      have isMember := mt (mem_openers_iff inner rest first.isOpener).mpr
      rw [isClosed] at isMember
      have hasCloser : HasCloser rest := Classical.not_not.mp (isMember List.not_mem_nil)
      exact first.noCloser (hasCloser.append _)
  · cases gap with
    | nil =>
      obtain ⟨rfl, -⟩ := List.cons.inj isGap
      rw [first.isOpener] at isCloser
      cases isCloser
    | cons closer' rest =>
      obtain ⟨rfl, -⟩ := List.cons.inj isGap
      exact noCloser ⟨between, closer, rest, rfl, isCloser, inside⟩

/-! ## Up to what the search finds -/

theorem openers_scanned (tokens : List PositionedToken) : openers (scanned tokens) = [] := by
  cases isUnclosed : unclosed? tokens with
  | none =>
    rw [scanned, isUnclosed, Option.getD_none, List.take_length]
    exact unclosed?_eq_none_iff_openers.mp isUnclosed
  | some n =>
    obtain ⟨before, opener, after, rfl, rfl, first⟩ := unclosed?_eq_some_iff.mp isUnclosed
    rw [scanned, isUnclosed, Option.getD_some, List.take_left]
    exact openers_of_firstUnclosed first

/-- With the groups on a stack a condition comes to what it comes to. -/
theorem evaluateStacked?_eq (defined : String → Bool) (tokens : List PositionedToken)
    (anchor : PositionedToken) :
    evaluateStacked? defined tokens anchor = some (evaluate defined tokens anchor) := by
  unfold evaluateStacked? evaluate
  split
  · rfl
  · cases isUnclosed : unclosed? tokens with
    | some start =>
      have inside := lt_of_unclosed? isUnclosed
      have isToken : tokens[start]? = some tokens[start] := List.getElem?_eq_getElem inside
      have isScanned : scanned tokens = tokens.take start := by rw [scanned, isUnclosed]; rfl
      simp only [isScanned, GroupStack.read?_eq List.prefix_rfl, isToken]
      rfl
    | none =>
      have isScanned : scanned tokens = tokens := by
        rw [scanned, isUnclosed, Option.getD_none, List.take_length]
      simp only [isScanned, GroupStack.read?_eq List.prefix_rfl]
      rfl

/-- **A group is never missing, and all of them are closed at the end.** The search for an open `(`
finds the first one that has no `)`, if there is one. Nothing is missing while the tokens before it
are read: there is a group at every token, a `)` that closes one finds in it the index of its own
`(`, and only the whole condition is left when they are read. -/
theorem evaluate_stacked (defined : String → Bool) (tokens : List PositionedToken)
    (anchor : PositionedToken) :
    (∀ n, unclosed? tokens = some n ↔ ∃ before opener after,
      tokens = before ++ opener :: after ∧ before.length = n ∧
        FirstUnclosed before opener after) ∧
    (unclosed? tokens = none ↔ AllClosed tokens []) ∧
    evaluateStacked? defined tokens anchor = some (evaluate defined tokens anchor) ∧
    (∃ s root, GroupStack.read? defined (scanned tokens) (scanned tokens) = some s ∧
      s.groups = [root] ∧ root.opener = none) ∧
    ∀ before t after, scanned tokens = before ++ t :: after →
      ∃ s, GroupStack.read? defined (scanned tokens) before = some s ∧ s.groups ≠ [] ∧
        (t.token = .brace .parenClose → s.groups.length ≠ 1 →
          ∃ earlier opener inner g parent outer, s.groups = g :: parent :: outer ∧
            before = earlier ++ opener :: inner ∧ opener.token = .brace .parenOpen ∧
            Balanced inner ∧ g.opener = some (earlier.length, opener)) := by
  refine ⟨fun n => unclosed?_eq_some_iff, unclosed?_eq_none_iff_allClosed,
    evaluateStacked?_eq defined tokens anchor, ?_, ?_⟩
  · have opened := opened_read defined (scanned tokens)
    have isWhole := opened.outer_eq_nil_iff.mpr (openers_scanned tokens)
    refine ⟨_, (Reading.read defined (scanned tokens)).group,
      GroupStack.read?_eq List.prefix_rfl, by rw [GroupStack.ofReading, isWhole], ?_⟩
    rw [openers_scanned, Reading.Opened] at opened
    exact (List.cons.inj opened).1
  · intro before t after isSplit
    have isPrefix : before <+: scanned tokens := ⟨t :: after, isSplit.symm⟩
    refine ⟨_, GroupStack.read?_eq isPrefix, List.cons_ne_nil _ _, ?_⟩
    intro isCloser notAlone
    cases isInner : (Reading.read defined before).outer with
    | nil => exact absurd (by rw [GroupStack.ofReading, isInner]; rfl) notAlone
    | cons parent outer =>
      have hasOuter : (Reading.read defined before).outer ≠ [] := isInner ▸ List.cons_ne_nil _ _
      obtain ⟨⟨n, opener⟩, stack, isStack, isOpener⟩ :=
        (opened_read defined before).exists_opener hasOuter
      have nests := nests_openers before
      rw [isStack] at nests
      obtain ⟨earlier, inner, isBefore, rfl, isParen, inside, -⟩ := nests.of_cons
      exact ⟨earlier, opener, inner, _, parent, outer, by rw [GroupStack.ofReading, isInner],
        isBefore, isParen, inside, isOpener⟩

end SharpFront.Condition
