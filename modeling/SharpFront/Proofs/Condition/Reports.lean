import SharpFront.Proofs.Condition.Grammar

/-!
# What the reports about a condition point at

* `Sound`: while a condition is read, every group knows its `(`, and every term a token;
* `PointsInto`: what a report about some tokens points at;
* `evaluate_pointsInto`: a report points at a token of the condition, or right after a `(`, or right
  after the token before the condition;
* `evaluate_isMalformation`: a report says that the condition is malformed.
-/

namespace SharpFront

/-- Words of directives and opening parentheses, after which something can be missing. -/
def Token.expectsMore (t : Token) : Bool := t.directive?.isSome || t.isBrace .parenOpen

namespace Condition

/-- The report is about one of the tokens, or about what is missing right after it. -/
def PointsAt (tokens : List PositionedToken) (r : Report) : Prop :=
  ∃ t ∈ tokens, ∃ kind, r = t.report kind ∨ r = t.reportAfter kind

/-- The report is about one of the tokens, or about what is missing after one that expects more. -/
def PointsInto (tokens : List PositionedToken) (r : Report) : Prop :=
  ∃ t ∈ tokens, ∃ kind,
    r = t.report kind ∨ t.token.expectsMore = true ∧ r = t.reportAfter kind

variable {defined : String → Bool} {tokens : List PositionedToken}

theorem pointsAt_reportAfter {t : PositionedToken} (h : t ∈ tokens) (kind : DiagnosticKind) :
    PointsAt tokens (t.reportAfter kind) :=
  ⟨t, h, kind, .inr rfl⟩

theorem pointsInto_report {t : PositionedToken} (h : t ∈ tokens) (kind : DiagnosticKind) :
    PointsInto tokens (t.report kind) :=
  ⟨t, h, kind, .inl rfl⟩

theorem pointsInto_reportAfter {t : PositionedToken} (h : t ∈ tokens)
    (expects : t.token.expectsMore = true) (kind : DiagnosticKind) :
    PointsInto tokens (t.reportAfter kind) :=
  ⟨t, h, kind, .inr ⟨expects, rfl⟩⟩

theorem PointsInto.mono {more : List PositionedToken} {r : Report} (h : PointsInto tokens r)
    (sub : tokens ⊆ more) : PointsInto more r := by
  obtain ⟨t, isToken, stands⟩ := h
  exact ⟨t, sub isToken, stands⟩

theorem PointsInto.pointsAt {r : Report} (h : PointsInto tokens r) : PointsAt tokens r := by
  obtain ⟨t, isToken, kind, here | ⟨-, next⟩⟩ := h
  · exact ⟨t, isToken, kind, .inl here⟩
  · exact ⟨t, isToken, kind, .inr next⟩

/-! ## Terms taken together -/

/-- A connective that still waits for its second term comes from the tokens. -/
def Partial.IsFrom (tokens : List PositionedToken) : Partial → Prop
  | pending _ _ t => t ∈ tokens
  | _ => True

/-- What holds of every report about a term, and about a connective that still waits, holds of what
is reported. -/
theorem foldTerms_forall {Q : Report → Prop} {terms : List PlacedTerm} {state : Partial}
    (waits : ∀ b o t, state = .pending b o t → ∀ kind, Q (t.report kind))
    (aboutTerms : ∀ term ∈ terms, ∀ kind, Q (term.2.report kind)) :
    ∀ r ∈ (foldTerms state terms).2, Q r := by
  fun_induction foldTerms state terms with
  | case1 | case2 => exact List.forall_mem_nil _
  | case3 b o t => exact List.forall_mem_singleton.mpr (waits b o t rfl _)
  | case4 b t terms ih | case8 b o t c t' terms ih =>
    exact ih (fun _ _ _ waits => nomatch waits) (List.forall_mem_cons.mp aboutTerms).2
  | case5 | case6 | case9 =>
    exact List.forall_mem_singleton.mpr (aboutTerms _ List.mem_cons_self _)
  | case7 b o t terms ih =>
    obtain ⟨here, later⟩ := List.forall_mem_cons.mp aboutTerms
    refine ih ?_ later
    rintro b o t ⟨⟩
    exact here

theorem foldTerms_pointsInto {terms : List PlacedTerm} {state : Partial}
    (isFrom : state.IsFrom tokens) (areFrom : ∀ term ∈ terms, term.2 ∈ tokens) :
    ∀ r ∈ (foldTerms state terms).2, PointsInto tokens r := by
  refine foldTerms_forall ?_ fun term isTerm => pointsInto_report (areFrom term isTerm)
  rintro b o t rfl
  exact pointsInto_report isFrom

/-! ## Reading -/

/-- A group knows the token that opened it and its index, and its terms come from tokens. -/
structure Group.Sound (tokens : List PositionedToken) (g : Group) : Prop where
  opener : ∀ n t, g.opener = some (n, t) → tokens[n]? = some t
  isParen : ∀ n t, g.opener = some (n, t) → t.token = .brace .parenOpen
  terms : ∀ term ∈ g.terms, term.2 ∈ tokens

structure Sound (tokens : List PositionedToken) (r : Reading) : Prop where
  group : r.group.Sound tokens
  outer : ∀ g ∈ r.outer, g.Sound tokens
  reports : ∀ report ∈ r.reports, PointsInto tokens report

theorem Group.Sound.add {g : Group} {term : PlacedTerm} (h : g.Sound tokens)
    (isFrom : term.2 ∈ tokens) : (g.add term).Sound tokens := by
  refine ⟨h.opener, h.isParen, ?_⟩
  intro term' isTerm
  rcases List.mem_cons.mp isTerm with rfl | isTerm
  · exact isFrom
  · exact h.terms term' isTerm

theorem Group.Sound.foldTerms_pointsInto {g : Group} (h : g.Sound tokens) :
    ∀ r ∈ (foldTerms .start g.terms.reverse).2, PointsInto tokens r :=
  Condition.foldTerms_pointsInto trivial fun term isTerm =>
    h.terms term (List.mem_reverse.mp isTerm)

theorem Group.Sound.closeGroup_pointsInto {g : Group} (h : g.Sound tokens) (n : Nat) :
    ∀ r ∈ (Reading.closeGroup g n).2, PointsInto tokens r := by
  unfold Reading.closeGroup
  split
  · next start t isOpener =>
    split
    · intro r isReport
      rw [List.mem_singleton.mp isReport]
      have expects : t.token.expectsMore = true := by
        rw [h.isParen start t isOpener]
        rfl
      exact pointsInto_reportAfter (List.mem_of_getElem? (h.opener start t isOpener)) expects _
    · exact h.foldTerms_pointsInto
  · exact h.foldTerms_pointsInto

theorem Sound.report {r : Reading} {report : Report} (h : Sound tokens r)
    (pointsInto : PointsInto tokens report) : Sound tokens (r.report report) := by
  refine ⟨h.group, h.outer, ?_⟩
  intro report' isReport
  rcases List.mem_cons.mp isReport with rfl | isReport
  · exact pointsInto
  · exact h.reports report' isReport

theorem Sound.step {r : Reading} {n : Nat} {t : PositionedToken} (h : Sound tokens r)
    (isToken : tokens[n]? = some t) : Sound tokens (r.step defined (t, n)) := by
  have isMember : t ∈ tokens := List.mem_of_getElem? isToken
  have stepped := stepped_step defined r n t
  generalize r.step defined (t, n) = next at stepped ⊢
  cases stepped with
  | opened isOpener =>
    refine ⟨⟨?_, ?_, List.forall_mem_nil _⟩, List.forall_mem_cons.mpr ⟨h.group, h.outer⟩, h.reports⟩
    · rintro n' t' ⟨⟩
      exact isToken
    · rintro n' t' ⟨⟩
      exact isOpener
  | closed isCloser isInner =>
    obtain ⟨isParent, areOuter⟩ := List.forall_mem_cons.mp (isInner ▸ h.outer)
    refine ⟨isParent.add isMember, areOuter, List.forall_mem_append.mpr ⟨?_, h.reports⟩⟩
    intro report isReport
    exact h.group.closeGroup_pointsInto n report (List.mem_reverse.mp isReport)
  | added => exact ⟨h.group.add isMember, h.outer, h.reports⟩
  | strayCloser | alien => exact h.report (pointsInto_report isMember _)

theorem Sound.foldl_step {entries : List (PositionedToken × Nat)} {r : Reading}
    (h : Sound tokens r) (areTokens : ∀ entry ∈ entries, tokens[entry.2]? = some entry.1) :
    Sound tokens (entries.foldl (Reading.step defined) r) :=
  List.foldlRecOn entries _ h fun _ sound entry isEntry => sound.step (areTokens entry isEntry)

theorem sound_start (tokens : List PositionedToken) : Sound tokens {} := by
  refine ⟨⟨?_, ?_, ?_⟩, ?_, ?_⟩
  · intro n t isOpener
    cases isOpener
  · intro n t isOpener
    cases isOpener
  · intro term isTerm
    cases isTerm
  · intro g isGroup
    cases isGroup
  · intro report isReport
    cases isReport

theorem sound_read (defined : String → Bool) (tokens : List PositionedToken) :
    Sound tokens (Reading.read defined tokens) :=
  (sound_start tokens).foldl_step fun _ isEntry => List.mem_zipIdx_iff_getElem?.mp isEntry

/-- A report points at a token of the condition, or right after a `(`, or right after the token
before the condition. -/
theorem evaluate_pointsInto (defined : String → Bool) (tokens : List PositionedToken)
    (anchor : PositionedToken) :
    ∀ r ∈ (evaluate defined tokens anchor).2,
      r = anchor.reportAfter .invalidExpression ∨ PointsInto tokens r := by
  intro r isReport
  unfold evaluate at isReport
  split at isReport
  · exact .inl (List.mem_singleton.mp isReport)
  · right
    split at isReport
    · next start isUnclosed =>
      rcases List.mem_append.mp isReport with isReport | isReport
      · have inside := (sound_read defined (tokens.take start)).reports r
          (List.mem_reverse.mp isReport)
        exact inside.mono (List.take_subset _ _)
      · obtain ⟨t, isToken, rfl⟩ := Option.map_eq_some_iff.mp (Option.mem_toList.mp isReport)
        exact pointsInto_report (List.mem_of_getElem? isToken) _
    · have sound := sound_read defined tokens
      rcases List.mem_append.mp isReport with isReport | isReport
      · exact sound.reports r (List.mem_reverse.mp isReport)
      · exact sound.group.foldTerms_pointsInto r isReport

theorem evaluate_pointsAt (defined : String → Bool) (tokens : List PositionedToken)
    (anchor : PositionedToken) :
    ∀ r ∈ (evaluate defined tokens anchor).2, PointsAt (anchor :: tokens) r := by
  intro r isReport
  rcases evaluate_pointsInto defined tokens anchor r isReport with rfl | inside
  · exact pointsAt_reportAfter List.mem_cons_self _
  · exact (inside.mono (List.subset_cons_self _ _)).pointsAt

/-! ## What the reports say -/

/-- The report says that a term does not fit, or that the condition should have ended. -/
def IsMalformation (r : Report) : Prop :=
  r.kind = .invalidExpression ∨ r.kind = .endOfLineExpected

theorem foldTerms_isMalformation (state : Partial) (terms : List PlacedTerm) :
    ∀ r ∈ (foldTerms state terms).2, IsMalformation r := by
  have invalid (t : PositionedToken) : ∀ r ∈ [t.report .invalidExpression], IsMalformation r :=
    List.forall_mem_singleton.mpr (.inl rfl)
  have ended (t : PositionedToken) : ∀ r ∈ [t.report .endOfLineExpected], IsMalformation r :=
    List.forall_mem_singleton.mpr (.inr rfl)
  fun_induction foldTerms state terms with
  | case1 => exact List.forall_mem_nil _
  | case2 => exact List.forall_mem_nil _
  | case3 => exact invalid _
  | case4 _ _ _ ih => exact ih
  | case5 => exact invalid _
  | case6 => exact ended _
  | case7 _ _ _ _ ih => exact ih
  | case8 _ _ _ _ _ _ ih => exact ih
  | case9 => exact invalid _

theorem closeGroup_isMalformation (g : Group) (n : Nat) :
    ∀ r ∈ (Reading.closeGroup g n).2, IsMalformation r := by
  unfold Reading.closeGroup
  split
  · split
    · exact List.forall_mem_singleton.mpr (.inl rfl)
    · exact foldTerms_isMalformation _ _
  · exact foldTerms_isMalformation _ _

theorem step_isMalformation {r : Reading} (h : ∀ report ∈ r.reports, IsMalformation report)
    (n : Nat) (t : PositionedToken) :
    ∀ report ∈ (r.step defined (t, n)).reports, IsMalformation report := by
  have stepped := stepped_step defined r n t
  generalize r.step defined (t, n) = next at stepped ⊢
  cases stepped with
  | opened | added => exact h
  | closed =>
    refine List.forall_mem_append.mpr ⟨?_, h⟩
    intro report isReport
    exact closeGroup_isMalformation _ _ report (List.mem_reverse.mp isReport)
  | strayCloser | alien => exact List.forall_mem_cons.mpr ⟨.inl rfl, h⟩

theorem read_isMalformation (defined : String → Bool) (tokens : List PositionedToken) :
    ∀ report ∈ (Reading.read defined tokens).reports, IsMalformation report :=
  List.foldlRecOn (motive := fun r : Reading => ∀ report ∈ r.reports, IsMalformation report)
    tokens.zipIdx _ (List.forall_mem_nil _)
    fun _ soFar entry _ => step_isMalformation soFar entry.2 entry.1

theorem evaluate_isMalformation (defined : String → Bool) (tokens : List PositionedToken)
    (anchor : PositionedToken) :
    ∀ r ∈ (evaluate defined tokens anchor).2, IsMalformation r := by
  have read (tokens : List PositionedToken) :
      ∀ r ∈ (Reading.read defined tokens).reports.reverse, IsMalformation r := by
    intro r isReport
    exact read_isMalformation defined tokens r (List.mem_reverse.mp isReport)
  unfold evaluate
  split
  · exact List.forall_mem_singleton.mpr (.inl rfl)
  · split
    · next start _ =>
      refine List.forall_mem_append.mpr ⟨read _, ?_⟩
      cases tokens[start]? with
      | none => exact List.forall_mem_nil _
      | some t => exact List.forall_mem_singleton.mpr (.inl rfl)
    · exact List.forall_mem_append.mpr ⟨read _, foldTerms_isMalformation _ _⟩

end Condition

end SharpFront
