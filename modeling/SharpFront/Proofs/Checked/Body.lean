import SharpFront.Preprocess.Run
import SharpFront.Proofs.Checked.Cursor
import SharpFront.Proofs.Condition.Reports
import SharpFront.Proofs.Scan.Parts

/-!
# Directive bodies that can be overrun

Taking tokens out of a list by index, reporting with numbers that must fit, and evaluating a
condition with both.

* `putAll_eq`: reports that fit are made;
* `evaluate_eq`: a condition is evaluated without a fault, and its reports fit.
-/

namespace SharpFront

def Report.Fits (r : Report) : Prop :=
  r.line < UInt32.size ∧ r.column < UInt32.size ∧ r.length < UInt32.size
  deriving Decidable

theorem PositionedToken.Fits.report {t : PositionedToken} (h : t.Fits) (kind : DiagnosticKind) :
    (t.report kind).Fits := by
  obtain ⟨line, column⟩ := h
  exact ⟨line, by simp only [PositionedToken.report]; omega,
    by simp only [PositionedToken.report]; omega⟩

theorem PositionedToken.Fits.reportAfter {t : PositionedToken} (h : t.Fits)
    (kind : DiagnosticKind) : (t.reportAfter kind).Fits :=
  ⟨h.1, h.2, by simp only [PositionedToken.reportAfter]; decide⟩

namespace Checked

/-! ## Lists of tokens -/

def item (tokens : List PositionedToken) (n : Nat) : Checked PositionedToken :=
  match tokens[n]? with
  | some t => .ok t
  | none => .error .index

def itemsFrom (tokens : List PositionedToken) (n : Nat) : Checked (List PositionedToken) :=
  if n ≤ tokens.length then .ok (tokens.drop n) else .error .index

def itemsUpTo (tokens : List PositionedToken) (n : Nat) : Checked (List PositionedToken) :=
  if n ≤ tokens.length then .ok (tokens.take n) else .error .index

theorem item_of_getElem? {tokens : List PositionedToken} {n : Nat} {t : PositionedToken}
    (h : tokens[n]? = some t) : item tokens n = .ok t := by
  rw [item, h]

@[simp] theorem item_cons_zero (t : PositionedToken) (tokens : List PositionedToken) :
    item (t :: tokens) 0 = .ok t := rfl

@[simp] theorem item_cons_succ (t : PositionedToken) (tokens : List PositionedToken) (n : Nat) :
    item (t :: tokens) (n + 1) = item tokens n := rfl

@[simp] theorem itemsFrom_cons_one (t : PositionedToken) (tokens : List PositionedToken) :
    itemsFrom (t :: tokens) 1 = .ok tokens := by
  rw [itemsFrom, if_pos (by simp)]
  rfl

/-! ## Reports -/

def put (s : PreprocessState) (r : Report) : Checked PreprocessState :=
  if r.Fits then .ok (s.report r) else .error .overflow

def putAll : List Report → PreprocessState → Checked PreprocessState
  | [], s => return s
  | r :: rs, s => do putAll rs (← put s r)

/-- Reports a token, if there is one. -/
def putAny (s : PreprocessState) (kind : DiagnosticKind) :
    Option PositionedToken → Checked PreprocessState
  | none => return s
  | some t => put s (t.report kind)

theorem put_eq {r : Report} (s : PreprocessState) (h : r.Fits) : put s r = .ok (s.report r) :=
  if_pos h

theorem putAll_eq {rs : List Report} (s : PreprocessState) (h : ∀ r ∈ rs, r.Fits) :
    putAll rs s = .ok (s.reportAll rs) := by
  induction rs generalizing s with
  | nil => rfl
  | cons r rs ih =>
    simp only [putAll, put_eq s (h r List.mem_cons_self), ok_bind]
    exact ih _ fun r' isReport => h r' (List.mem_cons_of_mem _ isReport)

theorem putAny_eq {t : Option PositionedToken} (s : PreprocessState) (kind : DiagnosticKind)
    (h : ∀ t' ∈ t, t'.Fits) : putAny s kind t = .ok (s.reportAny kind t) := by
  cases t with
  | none => rfl
  | some t => exact put_eq s ((h t rfl).report kind)

/-! ## Conditions -/

open Condition

/-- A group of no tokens is reported at the token that opened it, which is looked up again. -/
def closeGroup (tokens : List PositionedToken) (g : Group) (index : Nat) :
    Checked (Bool × List Report) := do
  match g.opener with
  | some (start, _) =>
    if start + 1 = index then
      let t ← item tokens start
      return (false, [t.reportAfter .invalidExpression])
    else return foldTerms .start g.terms.reverse
  | none => return foldTerms .start g.terms.reverse

/-- Reads the token at an index. Only the end of a group looks at another token. -/
def readStep (defined : String → Bool) (tokens : List PositionedToken) (r : Reading)
    (entry : PositionedToken × Nat) : Checked Reading := do
  let (t, index) := entry
  match r.outer with
  | [] => return r.step defined entry
  | parent :: outer =>
    if t.token.isBrace .parenClose then
      let (value, reports) ← closeGroup tokens r.group index
      let group := parent.add (.value value, t)
      return { group, outer, reports := reports.reverse ++ r.reports }
    else return r.step defined entry

def read (defined : String → Bool) (tokens : List PositionedToken) :
    List (PositionedToken × Nat) → Reading → Checked Reading
  | [], r => return r
  | entry :: entries, r => do read defined tokens entries (← readStep defined tokens r entry)

def evaluate (defined : String → Bool) (tokens : List PositionedToken)
    (anchor : PositionedToken) : Checked (Bool × List Report) := do
  if tokens.isEmpty then return (false, [anchor.reportAfter .invalidExpression])
  else
    let unclosed := unclosed? tokens
    let scanned ← itemsUpTo tokens (unclosed.getD tokens.length)
    let reading ← read defined scanned scanned.zipIdx {}
    match unclosed with
    | some start =>
      let t ← item tokens start
      return (false, reading.reports.reverse ++ [t.report .invalidExpression])
    | none =>
      let (value, reports) := foldTerms .start reading.group.terms.reverse
      return (value, reading.reports.reverse ++ reports)

variable {defined : String → Bool} {tokens : List PositionedToken}

theorem closeGroup_eq {g : Group} (h : g.Sound tokens) (index : Nat) :
    closeGroup tokens g index = .ok (Reading.closeGroup g index) := by
  unfold closeGroup Reading.closeGroup
  cases isOpener : g.opener with
  | none => rfl
  | some opener =>
    obtain ⟨start, t⟩ := opener
    by_cases isEmpty : start + 1 = index
    · simp only [isEmpty, if_true, item_of_getElem? (h.opener start t isOpener), ok_bind,
        pure_eq_ok]
    · simp only [isEmpty, if_false, pure_eq_ok]

theorem readStep_eq {r : Reading} (h : Sound tokens r) (entry : PositionedToken × Nat) :
    readStep defined tokens r entry = .ok (r.step defined entry) := by
  obtain ⟨t, index⟩ := entry
  unfold readStep
  cases isInner : r.outer with
  | nil => rfl
  | cons parent outer =>
    by_cases isCloser : t.token = .brace .parenClose
    · have closes : t.token.isBrace .parenClose = true := beq_iff_eq.mpr isCloser
      simp only [closes, if_true, closeGroup_eq h.group, ok_bind,
        step_closer r index isCloser isInner, pure_eq_ok]
    · have plain : t.token.isBrace .parenClose = false := beq_eq_false_iff_ne.mpr isCloser
      simp only [plain, Bool.false_eq_true, if_false, pure_eq_ok]

theorem read_eq {entries : List (PositionedToken × Nat)} {r : Reading} (h : Sound tokens r)
    (areTokens : ∀ entry ∈ entries, tokens[entry.2]? = some entry.1) :
    read defined tokens entries r = .ok (entries.foldl (Reading.step defined) r) := by
  induction entries generalizing r with
  | nil => rfl
  | cons entry entries ih =>
    simp only [read, readStep_eq h, ok_bind, List.foldl_cons]
    exact ih (h.step (areTokens entry List.mem_cons_self))
      fun e isEntry => areTokens e (List.mem_cons_of_mem _ isEntry)

theorem evaluate_eq (defined : String → Bool) (tokens : List PositionedToken)
    (anchor : PositionedToken) :
    evaluate defined tokens anchor = .ok (Condition.evaluate defined tokens anchor) := by
  have isRead : ∀ scanned, read defined scanned scanned.zipIdx {} =
      .ok (Reading.read defined scanned) := fun scanned =>
    read_eq (sound_start scanned) fun _ isEntry => List.mem_zipIdx_iff_getElem?.mp isEntry
  unfold evaluate Condition.evaluate
  split
  · rfl
  · cases isUnclosed : unclosed? tokens with
    | some start =>
      have inside := lt_of_unclosed? isUnclosed
      have upTo : itemsUpTo tokens start = .ok (tokens.take start) := if_pos (Nat.le_of_lt inside)
      have isToken : tokens[start]? = some tokens[start] := List.getElem?_eq_getElem inside
      simp only [Option.getD_some, upTo, ok_bind, isRead, item_of_getElem? isToken, isToken]
      rfl
    | none =>
      have upTo : itemsUpTo tokens tokens.length = .ok tokens := by
        rw [itemsUpTo, if_pos (Nat.le_refl _), List.take_length]
      simp only [Option.getD_none, upTo, ok_bind, isRead]
      rfl

theorem fits_of_pointsAt {r : Report} (fits : ∀ t ∈ tokens, t.Fits) (h : PointsAt tokens r) :
    r.Fits := by
  obtain ⟨t, isToken, kind, rfl | rfl⟩ := h
  · exact (fits t isToken).report kind
  · exact (fits t isToken).reportAfter kind

end Checked

end SharpFront
