import Mathlib.Data.List.Induction
import SharpFront.Proofs.Condition.Grammar

/-!
# Which parentheses match

A `)` closes the last `(` that is still open, or none, and then it is passed over. Reading a
condition keeps the open `(` in its groups, and the search for one that is never closed counts them.

* `Balanced`: tokens in which every parenthesis has its partner;
* `HasOpener`, `HasCloser`: what it is for a single parenthesis to have its partner;
* `openers`: the `(` that are open after some tokens, innermost first;
* `hasOpener_iff`, `mem_openers_iff`: they are those without a partner;
* `FirstUnclosed`: the `(` that is never closed and has none such before it;
* `unclosed?_eq`, `opened_read`: the search and the reading agree about what is open.
-/

namespace SharpFront.Condition

/-- Every parenthesis among the tokens has its partner there. -/
inductive Balanced : List PositionedToken → Prop where
  | nil : Balanced []
  | plain {t : PositionedToken} {tokens : List PositionedToken}
    (notOpener : t.token ≠ .brace .parenOpen) (notCloser : t.token ≠ .brace .parenClose)
    (more : Balanced tokens) : Balanced (t :: tokens)
  | group {opener closer : PositionedToken} {inner tokens : List PositionedToken}
    (isOpener : opener.token = .brace .parenOpen) (inside : Balanced inner)
    (isCloser : closer.token = .brace .parenClose) (more : Balanced tokens) :
    Balanced (opener :: (inner ++ closer :: tokens))

/-! ## Partners -/

/-- A `)` right after these tokens has its `(` among them. -/
def HasOpener (before : List PositionedToken) : Prop :=
  ∃ earlier opener inner, before = earlier ++ opener :: inner ∧
    opener.token = .brace .parenOpen ∧ Balanced inner

/-- A `(` right before these tokens has its `)` among them. -/
def HasCloser (after : List PositionedToken) : Prop :=
  ∃ inner closer later, after = inner ++ closer :: later ∧
    closer.token = .brace .parenClose ∧ Balanced inner

/-- Every `(` of some tokens has its `)`, if not there then after them. -/
def AllClosed (before after : List PositionedToken) : Prop :=
  ∀ earlier opener inner, before = earlier ++ opener :: inner →
    opener.token = .brace .parenOpen → HasCloser (inner ++ after)

theorem Balanced.append {xs ys : List PositionedToken} (h : Balanced xs) (more : Balanced ys) :
    Balanced (xs ++ ys) := by
  induction h with
  | nil => exact more
  | plain notOpener notCloser _ ih => exact .plain notOpener notCloser ih
  | group isOpener inside isCloser _ _ ih =>
    rw [List.cons_append, List.append_assoc, List.cons_append]
    exact .group isOpener inside isCloser ih

theorem HasCloser.append {after : List PositionedToken} (h : HasCloser after)
    (more : List PositionedToken) : HasCloser (after ++ more) := by
  obtain ⟨inner, closer, later, rfl, isCloser, inside⟩ := h
  exact ⟨inner, closer, later ++ more, by simp, isCloser, inside⟩

/-! ## The stack of open parentheses -/

/-- A `(` with its index among the tokens. -/
abbrev PlacedOpener := Nat × PositionedToken

def trackOpeners (stack : List PlacedOpener) (entry : PositionedToken × Nat) : List PlacedOpener :=
  let (t, index) := entry
  if t.token.isBrace .parenOpen then (index, t) :: stack
  else if t.token.isBrace .parenClose then stack.tail
  else stack

/-- The `(` that are open after some tokens, innermost first. -/
def openers (tokens : List PositionedToken) : List PlacedOpener :=
  tokens.zipIdx.foldl trackOpeners []

variable {stack : List PlacedOpener} {seen tokens : List PositionedToken} {t : PositionedToken}

theorem trackOpeners_opener (stack : List PlacedOpener) (n : Nat)
    (h : t.token = .brace .parenOpen) : trackOpeners stack (t, n) = (n, t) :: stack := by
  simp only [trackOpeners, h, Token.isBrace, beq_self_eq_true, if_true]

theorem trackOpeners_closer (stack : List PlacedOpener) (n : Nat)
    (h : t.token = .brace .parenClose) : trackOpeners stack (t, n) = stack.tail := by
  have notOpener : (Token.brace .parenClose == Token.brace .parenOpen) = false := by decide
  simp only [trackOpeners, h, Token.isBrace, notOpener, beq_self_eq_true, if_true,
    Bool.false_eq_true, if_false]

theorem trackOpeners_plain (stack : List PlacedOpener) (n : Nat)
    (h : t.token ≠ .brace .parenOpen) (h' : t.token ≠ .brace .parenClose) :
    trackOpeners stack (t, n) = stack := by
  simp only [trackOpeners, Token.isBrace, beq_iff_eq, h, h', if_false]

theorem openers_append (xs ys : List PositionedToken) :
    openers (xs ++ ys) = (ys.zipIdx xs.length).foldl trackOpeners (openers xs) := by
  rw [openers, List.zipIdx_append, List.foldl_append, Nat.zero_add]
  rfl

theorem openers_concat (tokens : List PositionedToken) (t : PositionedToken) :
    openers (tokens ++ [t]) = trackOpeners (openers tokens) (t, tokens.length) :=
  openers_append tokens [t]

/-- Balanced tokens leave open what was open before them. -/
theorem Balanced.foldl_trackOpeners (h : Balanced tokens) (stack : List PlacedOpener) (n : Nat) :
    (tokens.zipIdx n).foldl trackOpeners stack = stack := by
  induction h generalizing stack n with
  | nil => rfl
  | plain notOpener notCloser _ ih =>
    rw [List.zipIdx_cons, List.foldl_cons, trackOpeners_plain _ _ notOpener notCloser, ih]
  | group isOpener _ isCloser _ ihInner ih =>
    rw [List.zipIdx_cons, List.foldl_cons, trackOpeners_opener _ _ isOpener, List.zipIdx_append,
      List.foldl_append, ihInner, List.zipIdx_cons, List.foldl_cons,
      trackOpeners_closer _ _ isCloser, List.tail_cons, ih]

/-- The tokens up to an open `(`, then the `(`, then balanced tokens up to the next open one. -/
inductive Nests : List PlacedOpener → List PositionedToken → Prop where
  | whole (seen : List PositionedToken) : Nests [] seen
  | nested {stack : List PlacedOpener} {before inner : List PositionedToken}
    {opener : PositionedToken} (around : Nests stack before)
    (isOpener : opener.token = .brace .parenOpen) (inside : Balanced inner) :
    Nests ((before.length, opener) :: stack) (before ++ opener :: inner)

theorem Nests.append (h : Nests stack seen) (piece : Balanced tokens) :
    Nests stack (seen ++ tokens) := by
  cases h with
  | whole => exact .whole _
  | nested around isOpener inside =>
    rw [List.append_assoc, List.cons_append]
    exact .nested around isOpener (inside.append piece)

theorem Nests.of_cons {n : Nat} (h : Nests ((n, t) :: stack) seen) :
    ∃ before inner, seen = before ++ t :: inner ∧ n = before.length ∧
      t.token = .brace .parenOpen ∧ Balanced inner ∧ Nests stack before := by
  cases h with
  | nested around isOpener inside => exact ⟨_, _, rfl, rfl, isOpener, inside, around⟩

theorem nests_openers (tokens : List PositionedToken) : Nests (openers tokens) tokens := by
  induction tokens using List.reverseRecOn with
  | nil => exact .whole []
  | append_singleton tokens t ih =>
    rw [openers_concat]
    by_cases isOpener : t.token = .brace .parenOpen
    · rw [trackOpeners_opener _ _ isOpener]
      exact .nested ih isOpener .nil
    by_cases isCloser : t.token = .brace .parenClose
    · rw [trackOpeners_closer _ _ isCloser]
      cases isOpen : openers tokens with
      | nil => exact .whole _
      | cons first stack =>
        rw [isOpen] at ih
        obtain ⟨before, inner, rfl, -, isOpener, inside, around⟩ := ih.of_cons
        rw [List.append_assoc]
        exact around.append (.group isOpener inside isCloser .nil)
    · rw [trackOpeners_plain _ _ isOpener isCloser]
      exact ih.append (.plain isOpener isCloser .nil)

theorem Nests.exists_split (h : Nests stack seen) : ∀ entry ∈ stack, ∃ before after,
    seen = before ++ entry.2 :: after ∧ entry.1 = before.length ∧
      entry.2.token = .brace .parenOpen := by
  induction h with
  | whole => exact List.forall_mem_nil _
  | nested around isOpener inside ih =>
    refine List.forall_mem_cons.mpr ⟨⟨_, _, rfl, rfl, isOpener⟩, ?_⟩
    intro entry isOuter
    obtain ⟨before, after, rfl, index, isOpener⟩ := ih entry isOuter
    exact ⟨before, _, List.append_assoc _ _ _, index, isOpener⟩

theorem Nests.pairwise (h : Nests stack seen) : stack.Pairwise fun e f => f.1 < e.1 := by
  induction h with
  | whole => exact .nil
  | nested around isOpener inside ih =>
    refine .cons ?_ ih
    intro entry isOuter
    obtain ⟨before, after, rfl, index, -⟩ := around.exists_split entry isOuter
    simp [index]

/-! ## The stack and the partners -/

/-- A `)` has a partner just when some `(` is open. -/
theorem hasOpener_iff (before : List PositionedToken) : HasOpener before ↔ openers before ≠ [] := by
  constructor
  · rintro ⟨earlier, opener, inner, rfl, isOpener, inside⟩
    rw [openers_append, List.zipIdx_cons, List.foldl_cons, trackOpeners_opener _ _ isOpener,
      inside.foldl_trackOpeners]
    exact List.cons_ne_nil _ _
  · intro isOpen
    obtain ⟨first, stack, stack_eq⟩ := List.exists_cons_of_ne_nil isOpen
    have nests := nests_openers before
    rw [stack_eq] at nests
    obtain ⟨earlier, inner, split, -, isOpener, inside, -⟩ := nests.of_cons
    exact ⟨earlier, first.2, inner, split, isOpener, inside⟩

instance (before : List PositionedToken) : Decidable (HasOpener before) :=
  decidable_of_iff _ (hasOpener_iff before).symm

theorem mem_or_le_of_mem_foldl {entry : PlacedOpener} {n : Nat}
    (h : entry ∈ (tokens.zipIdx n).foldl trackOpeners stack) : entry ∈ stack ∨ n ≤ entry.1 := by
  induction tokens generalizing stack n with
  | nil => exact .inl h
  | cons t tokens ih =>
    rw [List.zipIdx_cons, List.foldl_cons] at h
    rcases ih h with here | later
    · by_cases isOpener : t.token = .brace .parenOpen
      · rw [trackOpeners_opener _ _ isOpener] at here
        rcases List.mem_cons.mp here with rfl | isOuter
        · exact .inr (Nat.le_refl _)
        · exact .inl isOuter
      by_cases isCloser : t.token = .brace .parenClose
      · rw [trackOpeners_closer _ _ isCloser] at here
        exact .inl (List.mem_of_mem_tail here)
      · rw [trackOpeners_plain _ _ isOpener isCloser] at here
        exact .inl here
    · exact .inr (Nat.le_of_succ_le later)

theorem HasCloser.notMem_openers {before after : List PositionedToken} {opener : PositionedToken}
    (h : HasCloser after) (isOpener : opener.token = .brace .parenOpen) :
    (before.length, opener) ∉ openers (before ++ opener :: after) := by
  obtain ⟨inner, closer, later, rfl, isCloser, inside⟩ := h
  intro isOpen
  rw [openers_append, List.zipIdx_cons, List.foldl_cons, trackOpeners_opener _ _ isOpener,
    List.zipIdx_append, List.foldl_append, inside.foldl_trackOpeners, List.zipIdx_cons,
    List.foldl_cons, trackOpeners_closer _ _ isCloser, List.tail_cons] at isOpen
  rcases mem_or_le_of_mem_foldl isOpen with isOuter | isLater
  · obtain ⟨earlier, rest, split, index, -⟩ := (nests_openers before).exists_split _ isOuter
    have shorter := congrArg List.length split
    simp only [List.length_append, List.length_cons] at shorter index
    omega
  · simp only at isLater
    omega

/-- One more token leaves a `(` open, unless it closes it. -/
theorem mem_openers_concat {before after : List PositionedToken} {opener t : PositionedToken}
    (isOpen : (before.length, opener) ∈ openers (before ++ opener :: after))
    (notCloser : t.token = .brace .parenClose → ¬Balanced after) :
    (before.length, opener) ∈ openers (before ++ opener :: (after ++ [t])) := by
  rw [← List.cons_append, ← List.append_assoc, openers_concat]
  by_cases isOpener : t.token = .brace .parenOpen
  · rw [trackOpeners_opener _ _ isOpener]
    exact List.mem_cons_of_mem _ isOpen
  by_cases isCloser : t.token = .brace .parenClose
  · rw [trackOpeners_closer _ _ isCloser]
    have nests := nests_openers (before ++ opener :: after)
    cases stack_eq : openers (before ++ opener :: after) with
    | nil =>
      rw [stack_eq] at isOpen
      cases isOpen
    | cons first stack =>
      rw [stack_eq] at isOpen nests
      rcases List.mem_cons.mp isOpen with rfl | isOuter
      · -- the `(` is the last one open, so what is after it is balanced
        obtain ⟨before', inner, split, length, -, inside, -⟩ := nests.of_cons
        obtain ⟨-, same⟩ := List.append_inj split length
        cases same
        exact absurd inside (notCloser isCloser)
      · exact isOuter
  · rw [trackOpeners_plain _ _ isOpener isCloser]
    exact isOpen

/-- A `(` stays open just when it has no partner. -/
theorem mem_openers_iff (before after : List PositionedToken) {opener : PositionedToken}
    (isOpener : opener.token = .brace .parenOpen) :
    (before.length, opener) ∈ openers (before ++ opener :: after) ↔ ¬HasCloser after := by
  constructor
  · exact fun isOpen closed => closed.notMem_openers isOpener isOpen
  · intro noCloser
    induction after using List.reverseRecOn with
    | nil =>
      rw [openers_concat, trackOpeners_opener _ _ isOpener]
      exact List.mem_cons_self
    | append_singleton after t ih =>
      refine mem_openers_concat (ih fun closed => noCloser (closed.append [t])) ?_
      exact fun isCloser inside => noCloser ⟨after, t, [], rfl, isCloser, inside⟩

/-- What is open after tokens whose `(` are all closed was opened after them. -/
theorem AllClosed.le_of_mem_openers {before after : List PositionedToken}
    (h : AllClosed before after) :
    ∀ entry ∈ openers (before ++ after), before.length ≤ entry.1 := by
  rintro ⟨n, opener⟩ isOpen
  obtain ⟨earlier, later, split, rfl, isOpener⟩ :=
    (nests_openers (before ++ after)).exists_split _ isOpen
  rcases List.append_eq_append_iff.mp split with ⟨gap, rfl, -⟩ | ⟨rest, isBefore, isAfter⟩
  · simp
  · cases rest with
    | nil => simp [isBefore]
    | cons first inner =>
      obtain ⟨rfl, rfl⟩ := List.cons.inj isAfter
      rw [split, mem_openers_iff _ _ isOpener] at isOpen
      exact absurd (h earlier opener inner isBefore isOpener) isOpen

/-! ## The first unclosed `(` -/

/-- The `(` is never closed, and every one before it is. -/
structure FirstUnclosed (before : List PositionedToken) (opener : PositionedToken)
    (after : List PositionedToken) : Prop where
  isOpener : opener.token = .brace .parenOpen
  noCloser : ¬HasCloser after
  closed : AllClosed before (opener :: after)

/-- The last of the stack is the outermost. -/
theorem Nests.le_of_getLast? {last : PlacedOpener} (h : Nests stack seen)
    (isLast : stack.getLast? = some last) : ∀ entry ∈ stack, last.1 ≤ entry.1 := by
  obtain ⟨inner, rfl⟩ := List.getLast?_eq_some_iff.mp isLast
  intro entry isOpen
  rcases List.mem_append.mp isOpen with isInner | isHere
  · exact Nat.le_of_lt
      ((List.pairwise_append.mp h.pairwise).2.2 entry isInner last List.mem_cons_self)
  · exact Nat.le_of_eq (congrArg Prod.fst (List.mem_singleton.mp isHere)).symm

theorem exists_firstUnclosed (isOpen : openers tokens ≠ []) :
    ∃ before opener after, tokens = before ++ opener :: after ∧
      FirstUnclosed before opener after := by
  obtain ⟨⟨n, opener⟩, isLast⟩ :=
    Option.ne_none_iff_exists'.mp (mt List.getLast?_eq_none_iff.mp isOpen)
  have nests := nests_openers tokens
  have isMember := List.mem_of_getLast? isLast
  obtain ⟨before, after, rfl, rfl, isOpener⟩ := nests.exists_split _ isMember
  refine ⟨before, opener, after, rfl, isOpener, (mem_openers_iff before after isOpener).mp isMember,
    ?_⟩
  -- one that is opened earlier would be further out, if it were open
  rintro earlier other inner rfl isOpener'
  refine Classical.byContradiction fun noCloser => ?_
  have isOpen' := (mem_openers_iff earlier _ isOpener').mpr noCloser
  rw [← List.cons_append, ← List.append_assoc] at isOpen'
  have outermost := nests.le_of_getLast? isLast _ isOpen'
  simp only [List.length_append, List.length_cons] at outermost
  omega

/-- After tokens whose `(` are all closed, the first unclosed `(` comes next or later. -/
theorem FirstUnclosed.exists_between {before after front back : List PositionedToken}
    {opener : PositionedToken} (first : FirstUnclosed front opener back)
    (split : before ++ t :: after = front ++ opener :: back)
    (closed : AllClosed before (t :: after)) (notFirst : t ≠ opener) :
    ∃ between, front = before ++ t :: between ∧ after = between ++ opener :: back := by
  rcases List.append_eq_append_iff.mp split with ⟨gap, isFront, isAfter⟩ | ⟨gap, isBefore, isBack⟩
  · cases gap with
    | nil => exact absurd (List.cons.inj isAfter).1 notFirst
    | cons u between =>
      obtain ⟨rfl, rfl⟩ := List.cons.inj isAfter
      exact ⟨between, isFront, rfl⟩
  · cases gap with
    | nil => exact absurd (List.cons.inj isBack).1.symm notFirst
    | cons u inner =>
      obtain ⟨rfl, rfl⟩ := List.cons.inj isBack
      exact absurd (closed front opener inner isBefore first.isOpener) first.noCloser

/-! ## The search and the reading -/

/-- A depth with the outermost open `(` keeps to a stack. -/
structure Follows (state : Nat × Nat) (stack : List PlacedOpener) : Prop where
  depth : state.1 = stack.length
  start : ∀ entry ∈ stack.getLast?, state.2 = entry.1

theorem Follows.step {state : Nat × Nat} (h : Follows state stack) (t : PositionedToken) (n : Nat) :
    Follows (trackDepth state (t, n)) (trackOpeners stack (t, n)) := by
  by_cases isOpener : t.token = .brace .parenOpen
  · rw [trackOpeners_opener _ _ isOpener, trackDepth_opener _ _ isOpener]
    refine ⟨by rw [h.depth, List.length_cons], ?_⟩
    cases stack with
    | nil => simp [h.depth]
    | cons first stack => simpa [h.depth] using h.start
  by_cases isCloser : t.token = .brace .parenClose
  · rw [trackOpeners_closer _ _ isCloser, trackDepth_closer _ _ isCloser]
    refine ⟨by rw [h.depth, List.length_tail], ?_⟩
    cases stack with
    | nil => simp
    | cons first stack =>
      cases stack with
      | nil => simp
      | cons second stack => simpa using h.start
  · rwa [trackOpeners_plain _ _ isOpener isCloser, trackDepth_plain _ _ isOpener isCloser]

/-- The search finds the outermost `(` that stays open. -/
theorem unclosed?_eq (tokens : List PositionedToken) :
    unclosed? tokens = (openers tokens).getLast?.map Prod.fst := by
  have found : Follows (tokens.zipIdx.foldl trackDepth (0, 0)) (openers tokens) :=
    List.foldl_rel ⟨rfl, fun _ => nofun⟩ fun entry _ _ _ follows => follows.step entry.1 entry.2
  simp only [unclosed?]
  cases last : (openers tokens).getLast? with
  | none =>
    have depth := found.depth
    rw [List.getLast?_eq_none_iff.mp last] at depth
    simp [depth]
  | some entry =>
    have isOpen : 0 < (openers tokens).length := by
      refine List.length_pos_iff.mpr ?_
      intro isNil
      simp [isNil] at last
    rw [found.depth, if_pos isOpen, found.start entry last]
    rfl

theorem unclosed?_of_firstUnclosed {before after : List PositionedToken} {opener : PositionedToken}
    (h : FirstUnclosed before opener after) :
    unclosed? (before ++ opener :: after) = some before.length := by
  have isOpen := (mem_openers_iff before after h.isOpener).mpr h.noCloser
  rw [unclosed?_eq]
  cases isLast : (openers (before ++ opener :: after)).getLast? with
  | none =>
    rw [List.getLast?_eq_none_iff.mp isLast] at isOpen
    cases isOpen
  | some last =>
    have notEarlier := h.closed.le_of_mem_openers last (List.mem_of_getLast? isLast)
    have notLater := (nests_openers _).le_of_getLast? isLast _ isOpen
    exact congrArg some (Nat.le_antisymm notLater notEarlier)

/-- The groups being read are those of the open `(`, in the whole condition. -/
def Reading.Opened (r : Reading) (stack : List PlacedOpener) : Prop :=
  (r.group :: r.outer).map (·.opener) = stack.map some ++ [none]

theorem Reading.Opened.outer_eq_nil_iff {r : Reading} (h : r.Opened stack) :
    r.outer = [] ↔ stack = [] := by
  have length := congrArg List.length h
  simp only [List.length_map, List.length_cons, List.length_append, List.length_nil,
    Nat.add_right_cancel_iff] at length
  rw [← List.length_eq_zero_iff, length, List.length_eq_zero_iff]

variable {defined : String → Bool}

theorem Reading.Opened.step {r : Reading} (h : r.Opened stack) (t : PositionedToken) (n : Nat) :
    (r.step defined (t, n)).Opened (trackOpeners stack (t, n)) := by
  have stepped := stepped_step defined r n t
  generalize r.step defined (t, n) = next at stepped ⊢
  cases stepped with
  | opened isOpener =>
    rw [trackOpeners_opener _ _ isOpener]
    exact congrArg (some (n, t) :: ·) h
  | closed isCloser isInner =>
    rw [trackOpeners_closer _ _ isCloser]
    cases stack with
    | nil => exact absurd (h.outer_eq_nil_iff.mpr rfl) (by simp [isInner])
    | cons first stack =>
      rw [Opened, isInner] at h
      exact (List.cons.inj h).2
  | strayCloser isCloser isWhole =>
    rw [trackOpeners_closer _ _ isCloser]
    obtain rfl := h.outer_eq_nil_iff.mp isWhole
    exact h
  | added notOpener notCloser | alien notOpener notCloser =>
    rw [trackOpeners_plain _ _ notOpener notCloser]
    exact h

theorem opened_read (defined : String → Bool) (tokens : List PositionedToken) :
    (Reading.read defined tokens).Opened (openers tokens) :=
  List.foldl_rel rfl fun entry _ _ _ opened => opened.step entry.1 entry.2

end SharpFront.Condition
