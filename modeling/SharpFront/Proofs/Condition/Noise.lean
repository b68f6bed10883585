import SharpFront.Proofs.Condition.Brackets

/-!
# Tokens that a condition passes over

A token that no condition is made of, and a `)` that closes nothing, is reported and passed over.

* `IsNoise`, `denoise`: these tokens, and a condition without them;
* `step_noise`: reading one is reporting it;
* `Reading.Alike`: two readings with the same terms in their groups;
* `evaluate_denoise`: without such tokens a condition has the same value.
-/

namespace SharpFront

/-- Words, `&&`, `||` and parentheses. -/
def Token.makesCondition (t : Token) : Bool :=
  t.word?.isSome || t.isOperator .and || t.isOperator .or || t.isBrace .parenOpen ||
    t.isBrace .parenClose

namespace Condition

/-- After the tokens before it, the token has no part in the condition. -/
def IsNoise (before : List PositionedToken) (t : PositionedToken) : Prop :=
  t.token.makesCondition = false ∨ t.token = .brace .parenClose ∧ ¬HasOpener before

instance (before : List PositionedToken) (t : PositionedToken) : Decidable (IsNoise before t) :=
  inferInstanceAs (Decidable (_ ∨ _))

/-- The tokens after some others, without noise. -/
def denoise (before : List PositionedToken) : List PositionedToken → List PositionedToken
  | [] => []
  | t :: tokens =>
    if IsNoise before t then denoise (before ++ [t]) tokens
    else t :: denoise (before ++ [t]) tokens

variable {defined : String → Bool} {before : List PositionedToken} {t : PositionedToken}

/-! ## Single tokens -/

theorem term?_eq_none {t : Token} (h : t.makesCondition = false) : term? defined t = none := by
  refine Option.eq_none_iff_forall_ne_some.mpr ?_
  intro term isTerm
  rcases term?_eq_some isTerm with ⟨o, -, rfl⟩ | ⟨-, isWord⟩
  · cases o <;> cases h
  · simp [Token.makesCondition, isWord] at h

theorem IsNoise.notOpener (noise : IsNoise before t) : t.token ≠ .brace .parenOpen := by
  intro isOpener
  rcases noise with isAlien | ⟨isCloser, -⟩
  · rw [isOpener] at isAlien
    cases isAlien
  · rw [isOpener] at isCloser
    cases isCloser

/-- A token that is not noise opens a group, closes one, or is a term. -/
theorem role_of_not_isNoise (defined : String → Bool) (h : ¬IsNoise before t) :
    t.token = .brace .parenOpen ∨ (t.token = .brace .parenClose ∧ HasOpener before) ∨
      ∃ term, term? defined t.token = some term := by
  obtain ⟨isPart, hasOpener⟩ := not_or.mp h
  simp only [Token.makesCondition, Bool.not_eq_false, Bool.or_eq_true, Token.isOperator,
    Token.isBrace, beq_iff_eq] at isPart
  rcases isPart with (((isWord | isAnd) | isOr) | isOpener) | isCloser
  · exact .inr (.inr ⟨_, term?_word isWord⟩)
  · exact .inr (.inr ⟨.connective .conj, by rw [isAnd]; rfl⟩)
  · exact .inr (.inr ⟨.connective .disj, by rw [isOr]; rfl⟩)
  · exact .inl isOpener
  · exact .inr (.inl ⟨isCloser, Decidable.byContradiction fun none => hasOpener ⟨isCloser, none⟩⟩)

/-- To read noise is to report it. -/
theorem step_noise {r : Reading} (opened : r.Opened (openers before)) (noise : IsNoise before t)
    (n : Nat) : r.step defined (t, n) = r.report (t.report .invalidExpression) := by
  rcases noise with isAlien | ⟨isCloser, noOpener⟩
  · have notOpener := IsNoise.notOpener (.inl isAlien : IsNoise before t)
    have notCloser : t.token ≠ .brace .parenClose := by
      intro isCloser
      rw [isCloser] at isAlien
      cases isAlien
    rw [step_plain r n notOpener notCloser, term?_eq_none isAlien]
  · refine step_closer_of_whole r n isCloser ?_
    rw [opened.outer_eq_nil_iff]
    rwa [hasOpener_iff, not_not] at noOpener

/-! ## Groups -/

/-- Fewer terms than tokens were read since the group was opened. -/
def Group.Within (g : Group) (n : Nat) : Prop :=
  ∀ start t, g.opener = some (start, t) → start + g.terms.length < n

/-- A group that is closed right after it was opened has no terms, so its value is that of its terms
as for any other group. -/
theorem Group.Within.closeGroup_fst {g : Group} {n : Nat} (h : g.Within n) :
    (Reading.closeGroup g n).1 = (foldTerms .start g.terms.reverse).1 := by
  unfold Reading.closeGroup
  split
  · next start t isOpener =>
    split
    · next isNext =>
      have few := h start t isOpener
      have noTerms : g.terms = [] := List.length_eq_zero_iff.mp (by omega)
      rw [noTerms]
      rfl
    · rfl
  · rfl

theorem Group.Within.succ {g : Group} {n : Nat} (h : g.Within n) : g.Within (n + 1) :=
  fun start t isOpener => Nat.lt_succ_of_lt (h start t isOpener)

theorem Group.Within.add {g : Group} {n : Nat} (h : g.Within n) (term : PlacedTerm) :
    (g.add term).Within (n + 1) :=
  fun start t isOpener => Nat.succ_lt_succ (h start t isOpener)

namespace Reading

def Within (r : Reading) (n : Nat) : Prop := ∀ g ∈ r.group :: r.outer, g.Within n

theorem Within.step {r : Reading} {n : Nat} (h : r.Within n) (t : PositionedToken) :
    (r.step defined (t, n)).Within (n + 1) := by
  obtain ⟨here, around⟩ := List.forall_mem_cons.mp h
  have stepped := stepped_step defined r n t
  generalize r.step defined (t, n) = next at stepped ⊢
  cases stepped with
  | opened =>
    refine List.forall_mem_cons.mpr ⟨?_, fun g isGroup => (h g isGroup).succ⟩
    rintro start t' ⟨⟩
    exact Nat.lt_succ_self _
  | closed isCloser isInner =>
    rw [isInner] at around
    obtain ⟨parentWithin, outerWithin⟩ := List.forall_mem_cons.mp around
    exact List.forall_mem_cons.mpr
      ⟨parentWithin.add _, fun g isGroup => (outerWithin g isGroup).succ⟩
  | added =>
    exact List.forall_mem_cons.mpr ⟨here.add _, fun g isGroup => (around g isGroup).succ⟩
  | strayCloser | alien => exact fun g isGroup => (h g isGroup).succ

/-- The groups of two readings have the same terms. -/
structure Alike (r r' : Reading) : Prop where
  group : r.group.terms = r'.group.terms
  outer : r.outer.map (·.terms) = r'.outer.map (·.terms)

theorem Alike.outer_eq_nil_iff {r r' : Reading} (h : r.Alike r') :
    r.outer = [] ↔ r'.outer = [] := by
  rw [← List.map_eq_nil_iff, h.outer, List.map_eq_nil_iff]

/-- A token that is not noise for the one reading keeps both alike. -/
theorem Alike.step {r r' : Reading} (h : r.Alike r') {n n' : Nat} (within : r.Within n)
    (within' : r'.Within n') (opened : r.Opened (openers before)) (notNoise : ¬IsNoise before t) :
    (r.step defined (t, n)).Alike (r'.step defined (t, n')) := by
  rcases role_of_not_isNoise defined notNoise with isOpener | ⟨isCloser, hasOpener⟩ | ⟨term, isTerm⟩
  · rw [step_opener r n isOpener, step_opener r' n' isOpener]
    exact ⟨rfl, congrArg₂ List.cons h.group h.outer⟩
  · have isOpen : r.outer ≠ [] :=
      mt opened.outer_eq_nil_iff.mp ((hasOpener_iff before).mp hasOpener)
    obtain ⟨parent, outer, isInner⟩ := List.exists_cons_of_ne_nil isOpen
    obtain ⟨parent', outer', isInner'⟩ :=
      List.exists_cons_of_ne_nil (mt h.outer_eq_nil_iff.mpr isOpen)
    rw [step_closer r n isCloser isInner, step_closer r' n' isCloser isInner']
    have around := h.outer
    rw [isInner, isInner'] at around
    obtain ⟨parents, outers⟩ := List.cons.inj around
    have value : (closeGroup r.group n).1 = (closeGroup r'.group n').1 := by
      rw [(within _ List.mem_cons_self).closeGroup_fst,
        (within' _ List.mem_cons_self).closeGroup_fst, h.group]
    exact ⟨congrArg₂ List.cons (by rw [value]) parents, outers⟩
  · rw [step_term r n isTerm, step_term r' n' isTerm]
    exact ⟨congrArg ((term, t) :: ·) h.group, h.outer⟩

/-- Reading on with noise and without keeps two readings alike. -/
theorem Alike.readFrom (before tokens : List PositionedToken) {r r' : Reading} (h : r.Alike r')
    {n : Nat} (within : r.Within before.length) (within' : r'.Within n)
    (opened : r.Opened (openers before)) :
    (r.readFrom defined before.length tokens).Alike
      (r'.readFrom defined n (denoise before tokens)) := by
  induction tokens generalizing before r r' n with
  | nil => exact h
  | cons t tokens ih =>
    have length : before.length + 1 = (before ++ [t]).length := by rw [List.length_append]; rfl
    have openedNext : (r.step defined (t, before.length)).Opened (openers (before ++ [t])) := by
      rw [openers_concat]
      exact opened.step t before.length
    have withinNext : (r.step defined (t, before.length)).Within (before ++ [t]).length :=
      length ▸ within.step t
    rw [readFrom_cons, length, denoise]
    split
    · next noise =>
      refine ih _ ?_ withinNext within' openedNext
      rw [step_noise opened noise]
      exact ⟨h.group, h.outer⟩
    · next notNoise =>
      rw [readFrom_cons]
      exact ih _ (h.step within within' opened notNoise) withinNext (within'.step t) openedNext

end Reading

/-! ## Conditions -/

/-- The value is that of the whole condition's terms, if every group was closed. -/
theorem evaluate_fst (defined : String → Bool) (tokens : List PositionedToken)
    (anchor : PositionedToken) :
    let r := Reading.read defined tokens
    (evaluate defined tokens anchor).1 =
      if r.outer = [] then (foldTerms .start r.group.terms.reverse).1 else false := by
  intro r
  unfold evaluate
  split
  · next isEmpty =>
    obtain rfl := List.isEmpty_iff.mp isEmpty
    rfl
  · split
    · next start isUnclosed =>
      have isOpen : r.outer ≠ [] := by
        intro isWhole
        rw [(unclosed?_eq_none_iff defined tokens).mpr isWhole] at isUnclosed
        cases isUnclosed
      rw [if_neg isOpen]
    · next isClosed =>
      rw [if_pos ((unclosed?_eq_none_iff defined tokens).mp isClosed)]

/-- Noise has no part in the value of a condition. -/
theorem evaluate_denoise (defined : String → Bool) (tokens : List PositionedToken)
    (anchor : PositionedToken) :
    (evaluate defined (denoise [] tokens) anchor).1 = (evaluate defined tokens anchor).1 := by
  have within : Reading.Within {} 0 := List.forall_mem_singleton.mpr fun _ _ => nofun
  have alike : (Reading.read defined tokens).Alike (Reading.read defined (denoise [] tokens)) :=
    Reading.Alike.readFrom [] tokens ⟨rfl, rfl⟩ within within rfl
  simp only [evaluate_fst, alike.outer_eq_nil_iff, alike.group]

end Condition

end SharpFront
