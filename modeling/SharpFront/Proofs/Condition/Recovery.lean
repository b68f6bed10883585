import SharpFront.Proofs.Condition.Noise
import SharpFront.Proofs.Condition.Reports
import SharpFront.Proofs.Output
import SharpFront.Proofs.Scan.TokenOrder

/-!
# Where a malformed condition is reported

The tokens of a text stand apart, so a report tells by its position what it is about. Where noise
stands nothing else is reported, and nothing is reported after a `(` that is never closed.

* `evaluate_of_closed`, `evaluate_of_firstUnclosed`: the two ways to evaluate a condition;
* `Reading.Clear`: whatever a reading can still report is none of the reports in question;
* `filter_read_noise`, `filter_read_before`: what a reading reports where a token stands, and from
  there on;
* `evaluate_recovers`: the value and the reports of a condition with noise or unclosed groups.
-/

namespace SharpFront.Condition

variable {defined : String → Bool} {before after tokens : List PositionedToken}
  {t opener anchor : PositionedToken}

/-! ## The reports of a condition -/

theorem evaluate_of_firstUnclosed (h : FirstUnclosed before opener after) :
    evaluate defined (before ++ opener :: after) anchor =
      (false, (Reading.read defined before).reports.reverse ++
        [opener.report .invalidExpression]) := by
  have notEmpty : (before ++ opener :: after).isEmpty = false := by simp
  simp only [evaluate, notEmpty, unclosed?_of_firstUnclosed h, Bool.false_eq_true, if_false,
    List.take_left, List.getElem?_append_right (Nat.le_refl _), Nat.sub_self,
    List.getElem?_cons_zero]
  rfl

theorem evaluate_of_closed (notEmpty : tokens ≠ []) (isClosed : openers tokens = []) :
    (evaluate defined tokens anchor).2 =
      (Reading.read defined tokens).reports.reverse ++
        (foldTerms .start (Reading.read defined tokens).group.terms.reverse).2 := by
  have isEmpty : tokens.isEmpty = false := List.isEmpty_eq_false_iff.mpr notEmpty
  have none : unclosed? tokens = none := by
    rw [unclosed?_eq, isClosed]
    rfl
  simp only [evaluate, isEmpty, none, Bool.false_eq_true, if_false]

/-! ## Reports in question -/

section

variable {P : Report → Bool} {j n : Nat} {r : Reading}

/-- No report about the token is in question, and none right after it, unless it is the last before
index `j`. -/
structure EntryClear (P : Report → Bool) (j : Nat) (entry : PositionedToken × Nat) : Prop where
  report : ∀ kind, P (entry.1.report kind) = false
  after : entry.2 + 1 ≠ j → P (entry.1.reportAfter .invalidExpression) = false

/-- None about a term of the group or about its `(`. -/
structure Group.Clear (P : Report → Bool) (j : Nat) (g : Group) : Prop where
  opener : ∀ n t, g.opener = some (n, t) → EntryClear P j (t, n)
  terms : ∀ term ∈ g.terms, ∀ kind, P (term.2.report kind) = false

def Reading.Clear (P : Report → Bool) (j : Nat) (r : Reading) : Prop :=
  ∀ g ∈ r.group :: r.outer, g.Clear P j

theorem Group.Clear.add {g : Group} (h : g.Clear P j) {term : PlacedTerm}
    (clear : ∀ kind, P (term.2.report kind) = false) : (g.add term).Clear P j where
  opener := h.opener
  terms := List.forall_mem_cons.mpr ⟨clear, h.terms⟩

theorem Group.Clear.filter_fold {g : Group} (h : g.Clear P j) :
    (foldTerms .start g.terms.reverse).2.filter P = [] := by
  have clear : ∀ r ∈ (foldTerms .start g.terms.reverse).2, P r = false :=
    foldTerms_forall (fun _ _ _ waits => nomatch waits)
      fun term isTerm => h.terms term (List.mem_reverse.mp isTerm)
  exact List.filter_eq_nil_iff.mpr fun r isReport => Bool.eq_false_iff.mp (clear r isReport)

/-- Unless the token at index `j` closes it, a group has no report in question. -/
theorem Group.Clear.filter_closeGroup {g : Group} (h : g.Clear P j) (notHere : n ≠ j) :
    (Reading.closeGroup g n).2.filter P = [] := by
  unfold Reading.closeGroup
  split
  · next start t isOpener =>
    split
    · next isNext =>
      have clear := (h.opener start t isOpener).after (isNext ▸ notHere)
      exact List.filter_cons_of_neg (Bool.eq_false_iff.mp clear)
    · exact h.filter_fold
  · exact h.filter_fold

namespace Reading

theorem clear_start : Clear P j {} :=
  List.forall_mem_singleton.mpr ⟨fun _ _ => nofun, List.forall_mem_nil _⟩

theorem Clear.step (h : r.Clear P j) (clear : EntryClear P j (t, n)) :
    (r.step defined (t, n)).Clear P j := by
  obtain ⟨here, around⟩ := List.forall_mem_cons.mp h
  have stepped := stepped_step defined r n t
  generalize r.step defined (t, n) = next at stepped ⊢
  cases stepped with
  | opened =>
    refine List.forall_mem_cons.mpr ⟨⟨?_, List.forall_mem_nil _⟩, h⟩
    rintro _ _ ⟨⟩
    exact clear
  | closed isCloser isInner =>
    rw [isInner] at around
    obtain ⟨parentClear, outerClear⟩ := List.forall_mem_cons.mp around
    exact List.forall_mem_cons.mpr ⟨parentClear.add clear.report, outerClear⟩
  | added => exact List.forall_mem_cons.mpr ⟨here.add clear.report, around⟩
  | strayCloser | alien => exact h

theorem Clear.filter_step (h : r.Clear P j) (clear : EntryClear P j (t, n)) (notHere : n ≠ j) :
    (r.step defined (t, n)).reports.filter P = r.reports.filter P := by
  have stepped := stepped_step defined r n t
  generalize r.step defined (t, n) = next at stepped ⊢
  cases stepped with
  | opened | added => rfl
  | closed =>
    rw [List.filter_append, List.filter_reverse,
      (h _ List.mem_cons_self).filter_closeGroup notHere, List.reverse_nil, List.nil_append]
  | strayCloser | alien =>
    exact List.filter_cons_of_neg (Bool.eq_false_iff.mp (clear.report _))

theorem Clear.readFrom (h : r.Clear P j)
    (clear : ∀ entry ∈ tokens.zipIdx n, EntryClear P j entry ∧ entry.2 ≠ j) :
    (r.readFrom defined n tokens).Clear P j ∧
      (r.readFrom defined n tokens).reports.filter P = r.reports.filter P := by
  induction tokens generalizing r n with
  | nil => exact ⟨h, rfl⟩
  | cons t tokens ih =>
    rw [List.zipIdx_cons] at clear
    obtain ⟨⟨here, notHere⟩, later⟩ := List.forall_mem_cons.mp clear
    rw [readFrom_cons, ← h.filter_step here notHere]
    exact ih (h.step here) later

end Reading

/-! ## Tokens that stand apart -/

theorem exists_split_of_mem_zipIdx {entry : PositionedToken × Nat} (h : entry ∈ tokens.zipIdx n) :
    ∃ earlier later, tokens = earlier ++ entry.1 :: later ∧ entry.2 = n + earlier.length := by
  induction tokens generalizing n with
  | nil => cases h
  | cons t tokens ih =>
    rw [List.zipIdx_cons] at h
    rcases List.mem_cons.mp h with rfl | isLater
    · exact ⟨[], tokens, rfl, rfl⟩
    · obtain ⟨earlier, later, rfl, index⟩ := ih isLater
      exact ⟨t :: earlier, later, rfl, by rw [index, List.length_cons]; omega⟩

/-- What is reported about the tokens before some token stands before it. -/
theorem entryClear_before (apart : Apart (before ++ t :: after))
    (clear : ∀ r : Report, r.position < t.position → P r = false) :
    ∀ entry ∈ before.zipIdx, EntryClear P before.length entry ∧ entry.2 ≠ before.length := by
  intro entry isEntry
  obtain ⟨earlier, later, rfl, index⟩ := exists_split_of_mem_zipIdx isEntry
  have further {u : PositionedToken} (isBefore : u ∈ earlier ++ entry.1 :: later) :
      u.position < t.position := apart.position_lt u isBefore t List.mem_cons_self
  refine ⟨⟨fun kind => clear _ (further List.mem_append_cons_self), ?_⟩, by simp [index]⟩
  intro notLast
  cases later with
  | nil => simp [index] at notLast
  | cons next later =>
    have pairwise := (List.pairwise_append.mp apart.pairwise).1
    have stops := (List.pairwise_cons.mp (List.pairwise_append.mp pairwise).2.1).1
    exact clear _ ((stops next List.mem_cons_self).trans_lt (further (by simp)))

/-- What is reported about the tokens after some token stands after it. -/
theorem entryClear_after (apart : Apart (before ++ t :: after))
    (clear : ∀ r : Report, t.position < r.position → P r = false) :
    ∀ entry ∈ after.zipIdx (before.length + 1),
      EntryClear P before.length entry ∧ entry.2 ≠ before.length := by
  intro entry isEntry
  obtain ⟨earlier, later, rfl, index⟩ := exists_split_of_mem_zipIdx isEntry
  have isAfter : entry.1 ∈ earlier ++ entry.1 :: later := List.mem_append_cons_self
  have beyond : t.position < entry.1.position := by
    rw [List.append_cons] at apart
    exact apart.position_lt t (by simp) entry.1 isAfter
  have filled : 0 < entry.1.length := apart.notEmpty _ (by simp)
  refine ⟨⟨fun kind => clear _ beyond, fun _ => clear _ ?_⟩, by omega⟩
  exact beyond.trans (entry.1.position_lt_stop filled)

/-- Nothing is reported beyond the tokens read. -/
theorem filter_read_before (defined : String → Bool) (apart : Apart (before ++ t :: after))
    (clear : ∀ r : Report, r.position < t.position → P r = false) :
    (Reading.read defined before).Clear P before.length ∧
      (Reading.read defined before).reports.filter P = [] :=
  Reading.clear_start.readFrom (entryClear_before apart clear)

end

/-- Where noise stands it is reported, and nothing else is or will be. -/
theorem filter_read_noise (defined : String → Bool) (apart : Apart (before ++ t :: after))
    (noise : IsNoise before t) :
    (Reading.read defined (before ++ t :: after)).Clear (·.position = t.position) before.length ∧
      (Reading.read defined (before ++ t :: after)).reports.filter (·.position = t.position) =
        [t.report .invalidExpression] := by
  let here : Report → Bool := (·.position = t.position)
  obtain ⟨clear, none⟩ := filter_read_before (P := here) defined apart
    fun r isBefore => decide_eq_false isBefore.ne
  have clearAfter := entryClear_after (P := here) apart fun r isAfter => decide_eq_false isAfter.ne'
  have isHere : here (t.report .invalidExpression) = true := decide_eq_true rfl
  let reported := (Reading.read defined before).report (t.report .invalidExpression)
  have filtered : reported.reports.filter here = [t.report .invalidExpression] :=
    (List.filter_cons_of_pos isHere).trans (congrArg (_ :: ·) none)
  have noted : (Reading.read defined before).step defined (t, before.length) = reported :=
    step_noise (opened_read defined before) noise before.length
  have read : Reading.read defined (before ++ t :: after) =
      reported.readFrom defined (before.length + 1) after := by
    have readBefore : Reading.read defined before = Reading.readFrom defined {} 0 before := rfl
    rw [← noted, readBefore, Reading.read, ← Reading.readFrom, readFrom_append, readFrom_cons,
      Nat.zero_add]
  rw [read, ← filtered]
  exact Reading.Clear.readFrom clear clearAfter

/-! ## Conditions -/

/-- What is reported of a condition where noise stands, unless a `(` before it is never closed. -/
theorem filter_evaluate_noise (apart : Apart (before ++ t :: after)) (noise : IsNoise before t)
    (closed : AllClosed before (t :: after)) :
    (evaluate defined (before ++ t :: after) anchor).2.filter (·.position = t.position) =
      [t.report .invalidExpression] := by
  by_cases isOpen : openers (before ++ t :: after) = []
  · obtain ⟨clear, reports⟩ := filter_read_noise defined apart noise
    have folded := (clear _ List.mem_cons_self).filter_fold
    rw [evaluate_of_closed (by simp) isOpen, List.filter_append, List.filter_reverse, reports,
      folded]
    rfl
  · obtain ⟨front, opener, back, split, first⟩ := exists_firstUnclosed isOpen
    have notNoise : t ≠ opener := by
      rintro rfl
      exact noise.notOpener first.isOpener
    obtain ⟨between, rfl, rfl⟩ := first.exists_between split closed notNoise
    have within : (before ++ t :: between).Sublist (before ++ t :: (between ++ opener :: back)) :=
      ((List.sublist_append_left _ _).cons_cons t).append_left before
    obtain ⟨-, reports⟩ := filter_read_noise defined (apart.sublist within) noise
    have further : t.position < opener.position := by
      rw [List.append_cons] at apart
      exact apart.position_lt t (by simp) opener (by simp)
    let here : Report → Bool := (·.position = t.position)
    have notHere : here (opener.report .invalidExpression) = false := decide_eq_false further.ne'
    rw [split, evaluate_of_firstUnclosed first, List.filter_append, List.filter_reverse, reports]
    exact congrArg (_ :: ·) (List.filter_cons_of_neg (Bool.eq_false_iff.mp notHere))

/-- Nothing is reported after a `(` that is never closed. -/
theorem filter_evaluate_unclosed (apart : Apart (before ++ opener :: after))
    (first : FirstUnclosed before opener after) :
    (evaluate defined (before ++ opener :: after) anchor).2.filter
        (opener.position ≤ ·.position) =
      [opener.report .invalidExpression] := by
  let onward : Report → Bool := (opener.position ≤ ·.position)
  obtain ⟨-, none⟩ := filter_read_before (P := onward) defined apart
    fun r isBefore => decide_eq_false isBefore.not_ge
  have isHere : onward (opener.report .invalidExpression) = true := decide_eq_true le_rfl
  rw [evaluate_of_firstUnclosed first, List.filter_append, List.filter_reverse, none]
  exact List.filter_cons_of_pos isHere

/-- **A malformed condition is read as what remains of it.** Among tokens of a text, in their order,
those that no condition is made of and `)` that close nothing do not change the value. Where such a
token stands it is reported, and nothing else, unless a `(` before it is never closed. If some `(`
is never closed, the value is false, and from the first such `(` on nothing is reported but that. -/
theorem evaluate_recovers (raw file : String) :
    ∃ tokens scanned, tokenize raw file = .ok (tokens, scanned) ∧
      ∀ condition : List PositionedToken,
        condition.Sublist (tokens.filter (·.token.isSignificant)) →
        ∀ (defined : String → Bool) (anchor : PositionedToken),
          let result := evaluate defined condition anchor
          (evaluate defined (denoise [] condition) anchor).1 = result.1 ∧
          (∀ before t after, condition = before ++ t :: after → IsNoise before t →
            AllClosed before (t :: after) →
            result.2.filter (·.position = t.position) = [t.report .invalidExpression]) ∧
          ∀ before opener after, condition = before ++ opener :: after →
            opener.token = .brace .parenOpen → ¬HasCloser after →
            result.1 = false ∧ ∃ before first after, condition = before ++ first :: after ∧
              FirstUnclosed before first after ∧
              result.2.filter (first.position ≤ ·.position) =
                [first.report .invalidExpression] := by
  obtain ⟨s, reached, -, tokenized⟩ := exists_scan raw file
  refine ⟨s.tokens file, _, tokenized, ?_⟩
  intro condition within defined anchor result
  have apart : Apart condition :=
    (reached.apart file).sublist (within.trans List.filter_sublist)
  refine ⟨evaluate_denoise defined condition anchor, ?noise, ?unclosed⟩
  case noise =>
    rintro before t after rfl noise closed
    exact filter_evaluate_noise apart noise closed
  case unclosed =>
    rintro before opener after rfl isOpener noCloser
    have isOpen : openers (before ++ opener :: after) ≠ [] :=
      List.ne_nil_of_mem ((mem_openers_iff before after isOpener).mpr noCloser)
    obtain ⟨before', first, after', split, isFirst⟩ := exists_firstUnclosed isOpen
    rw [split] at apart
    have value : result.1 = false := by
      simp only [result, split, evaluate_of_firstUnclosed isFirst]
    refine ⟨value, before', first, after', split, isFirst, ?_⟩
    simp only [result, split]
    exact filter_evaluate_unclosed apart isFirst

/-- `A ; ) && (B` is false, and the `;` is reported once. -/
theorem evaluate_recovers_semicolon :
    let at_ (token : Token) (column length : Nat) : PositionedToken :=
      ⟨token, "main.cs", 1, column, length, false⟩
    let a := at_ (.identifier ⟨0, "A"⟩) 1 1
    let noise := at_ (.operator .semicolon) 3 1
    let rest := [at_ (.brace .parenClose) 5 1, at_ (.operator .and) 7 2]
    let opener := at_ (.brace .parenOpen) 10 1
    let b := at_ (.identifier ⟨10, "B"⟩) 11 1
    let condition := [a, noise] ++ rest ++ [opener, b]
    let result := evaluate (fun _ => true) condition a
    (∃ tokens scanned, tokenize "A ; ) && (B" "main.cs" = .ok (tokens, scanned) ∧
      tokens.filter (·.token.isSignificant) = condition) ∧
      IsNoise [a] noise ∧ ¬HasCloser [b] ∧
      result.2.filter (·.position = noise.position) = [noise.report .invalidExpression] ∧
      result.1 = false := by
  intro at_ a noise rest opener b condition result
  let tokens := [a, at_ .whitespace 2 1, noise, at_ .whitespace 4 1, at_ (.brace .parenClose) 5 1,
    at_ .whitespace 6 1, at_ (.operator .and) 7 2, at_ .whitespace 9 1, opener, b]
  obtain ⟨tokenized, -⟩ := preprocess_guided "main.cs" "A ; ) && (B"
    [.word, .whitespace, .operator .semicolon, .whitespace, .brace .parenClose, .whitespace,
      .operator .and, .whitespace, .brace .parenOpen, .word] tokens (by decide) (by decide_cbv)
    (by cbv) rfl
  have isCondition : tokens.filter (·.token.isSignificant) = condition := by decide
  obtain ⟨tokens', scanned, tokenized', recovers⟩ := evaluate_recovers "A ; ) && (B" "main.cs"
  obtain ⟨same, -⟩ := Prod.mk.inj (Except.ok.inj (tokenized'.symm.trans tokenized))
  have within : condition.Sublist (tokens'.filter (·.token.isSignificant)) := by
    rw [same, isCondition]
  obtain ⟨-, reported, unclosed⟩ := recovers condition within (fun _ => true) a
  have isNoise : IsNoise [a] noise := .inl rfl
  have noCloser : ¬HasCloser [b] := (mem_openers_iff [] [b] (rfl : opener.token = _)).mp (by decide)
  have closed : AllClosed [a] (noise :: (rest ++ [opener, b])) := by
    rintro (_ | ⟨u, earlier⟩) opener inner split isOpener
    · cases split
      cases isOpener
    · simp at split
  exact ⟨⟨_, _, tokenized, isCondition⟩, isNoise, noCloser,
    reported [a] noise (rest ++ [opener, b]) rfl isNoise closed,
    (unclosed ([a, noise] ++ rest) opener [b] rfl rfl noCloser).1⟩

end SharpFront.Condition
