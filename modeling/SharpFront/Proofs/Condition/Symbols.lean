import Mathlib.Data.List.Forall2
import SharpFront.Proofs.Condition.Grammar
import SharpFront.Proofs.Preprocess.Nest

/-!
# One condition over two sets of symbols

The symbols decide about values alone. Two readings of one condition go through the same groups,
with the same terms but for the values, and report the same. What relates the values of the words
relates all other values too, as long as the connectives keep it.

* `Respected`: relations of values that the connectives keep;
* `Reading.Related`: two readings that differ in related values;
* `evaluate_related`: the values of a condition over two sets of symbols;
* `evaluate_symbols`: the reports are the same, and more symbols never make a true condition false.
-/

namespace SharpFront.Condition

/-- A relation of values that every value has to itself and the connectives keep. -/
structure Respected (R : Bool → Bool → Prop) : Prop where
  refl : ∀ b, R b b
  apply : ∀ (o : Connective) {a b c d : Bool}, R a b → R c d → R (o.apply a c) (o.apply b d)

theorem respected_any : Respected fun _ _ => True :=
  ⟨fun _ => trivial, fun _ _ _ _ _ _ _ => trivial⟩

/-- Conjunction and disjunction are monotone. -/
theorem respected_imp : Respected fun a b => a = true → b = true where
  refl _ := id
  apply o a b c d first second := by
    cases o with
    | conj =>
      simp only [Connective.apply, Bool.and_eq_true]
      exact And.imp first second
    | disj =>
      simp only [Connective.apply, Bool.or_eq_true]
      exact Or.imp first second

variable {R : Bool → Bool → Prop} {defined other : String → Bool}

/-! ## Terms -/

inductive Term.Related (R : Bool → Bool → Prop) : Term → Term → Prop where
  | value {b c : Bool} (values : R b c) : Related R (.value b) (.value c)
  | connective (o : Connective) : Related R (.connective o) (.connective o)

/-- Both stand for nothing, or for related terms. -/
theorem term?_related (respected : Respected R) (words : ∀ w, R (defined w) (other w)) (t : Token) :
    Option.Rel (Term.Related R) (term? defined t) (term? other t) := by
  unfold term?
  split
  · exact .some (.connective .conj)
  · exact .some (.connective .disj)
  · exact .some (.value (respected.refl true))
  · exact .some (.value (respected.refl false))
  · cases t.word? with
    | none => exact .none
    | some w => exact .some (.value (words w))

/-- Related terms of one token. -/
def PlacedTerm.Related (R : Bool → Bool → Prop) (a b : PlacedTerm) : Prop :=
  a.1.Related R b.1 ∧ a.2 = b.2

inductive Partial.Related (R : Bool → Bool → Prop) : Partial → Partial → Prop where
  | start : Related R .start .start
  | value {b c : Bool} (values : R b c) : Related R (.value b) (.value c)
  | pending {b c : Bool} (values : R b c) (o : Connective) (t : PositionedToken) :
    Related R (.pending b o t) (.pending c o t)

/-- Two results with related values and the same reports. -/
def SameReports (R : Bool → Bool → Prop) (a b : Bool × List Report) : Prop :=
  R a.1 b.1 ∧ a.2 = b.2

/-- Related terms fit together alike. -/
theorem foldTerms_related (respected : Respected R) {terms terms' : List PlacedTerm}
    (h : List.Forall₂ (PlacedTerm.Related R) terms terms') {p q : Partial} (state : p.Related R q) :
    SameReports R (foldTerms p terms) (foldTerms q terms') := by
  have fault (reports : List Report) : SameReports R (false, reports) (false, reports) :=
    ⟨respected.refl false, rfl⟩
  induction h generalizing p q with
  | nil =>
    cases state with
    | start => exact fault []
    | value values => exact ⟨values, rfl⟩
    | pending values o t => exact fault _
  | @cons term term' terms terms' here later ih =>
    obtain ⟨term, t⟩ := term
    obtain ⟨term', t'⟩ := term'
    obtain ⟨here, same⟩ := here
    cases same
    cases state with
    | start =>
      cases here with
      | value next => exact ih (.value next)
      | connective o => exact fault _
    | value values =>
      cases here with
      | value next => exact fault _
      | connective o => exact ih (.pending values o t)
    | pending values o t =>
      cases here with
      | value next => exact ih (.value (respected.apply o values next))
      | connective o => exact fault _

/-! ## Groups -/

structure Group.Related (R : Bool → Bool → Prop) (g g' : Group) : Prop where
  opener : g.opener = g'.opener
  terms : List.Forall₂ (PlacedTerm.Related R) g.terms g'.terms

structure Reading.Related (R : Bool → Bool → Prop) (r r' : Reading) : Prop where
  group : r.group.Related R r'.group
  outer : List.Forall₂ (Group.Related R) r.outer r'.outer
  reports : r.reports = r'.reports

theorem Group.Related.add {g g' : Group} {term term' : PlacedTerm} (h : g.Related R g')
    (here : term.Related R term') : (g.add term).Related R (g'.add term') where
  opener := h.opener
  terms := .cons here h.terms

theorem Group.Related.fold {g g' : Group} (h : g.Related R g') (respected : Respected R) :
    SameReports R (foldTerms .start g.terms.reverse) (foldTerms .start g'.terms.reverse) :=
  foldTerms_related respected (List.rel_reverse h.terms) .start

namespace Reading

theorem closeGroup_related (respected : Respected R) {g g' : Group} (h : g.Related R g') (n : Nat) :
    SameReports R (closeGroup g n) (closeGroup g' n) := by
  unfold closeGroup
  rw [h.opener]
  split
  · split
    · exact ⟨respected.refl false, rfl⟩
    · exact h.fold respected
  · exact h.fold respected

theorem Related.report {r r' : Reading} (h : r.Related R r') (report : Report) :
    (r.report report).Related R (r'.report report) where
  group := h.group
  outer := h.outer
  reports := congrArg (report :: ·) h.reports

/-- A token keeps two readings related. -/
theorem Related.step (respected : Respected R) (words : ∀ w, R (defined w) (other w))
    {r r' : Reading} (h : r.Related R r') (t : PositionedToken) (n : Nat) :
    (r.step defined (t, n)).Related R (r'.step other (t, n)) := by
  by_cases isOpener : t.token = .brace .parenOpen
  · rw [step_opener r n isOpener, step_opener r' n isOpener]
    exact ⟨⟨rfl, .nil⟩, .cons h.group h.outer, h.reports⟩
  by_cases isCloser : t.token = .brace .parenClose
  · have outer := h.outer
    generalize isInner : r.outer = groups at outer
    generalize isInner' : r'.outer = groups' at outer
    cases outer with
    | nil =>
      rw [step_closer_of_whole r n isCloser isInner, step_closer_of_whole r' n isCloser isInner']
      exact h.report _
    | cons parents outer =>
      rw [step_closer r n isCloser isInner, step_closer r' n isCloser isInner']
      obtain ⟨values, reports⟩ := closeGroup_related respected h.group n
      exact ⟨parents.add ⟨.value values, rfl⟩, outer, by rw [reports, h.reports]⟩
  · rw [step_plain r n isOpener isCloser, step_plain r' n isOpener isCloser]
    have term := term?_related respected words t.token
    generalize term? defined t.token = first at term
    generalize term? other t.token = second at term
    cases term with
    | none => exact h.report _
    | some here => exact ⟨h.group.add ⟨here, rfl⟩, h.outer, h.reports⟩

theorem read_related (respected : Respected R) (words : ∀ w, R (defined w) (other w))
    (tokens : List PositionedToken) : (read defined tokens).Related R (read other tokens) :=
  List.foldl_rel ⟨⟨rfl, .nil⟩, .nil, rfl⟩
    fun entry _ _ _ related => related.step respected words entry.1 entry.2

end Reading

/-! ## Conditions -/

/-- What relates the words of two sets of symbols relates the values of every condition. -/
theorem evaluate_related (respected : Respected R) (words : ∀ w, R (defined w) (other w))
    (tokens : List PositionedToken) (anchor : PositionedToken) :
    SameReports R (evaluate defined tokens anchor) (evaluate other tokens anchor) := by
  unfold evaluate
  split
  · exact ⟨respected.refl false, rfl⟩
  · split
    · next start _ =>
      have read := Reading.read_related respected words (tokens.take start)
      exact ⟨respected.refl false, by simp only [read.reports]⟩
    · have read := Reading.read_related respected words tokens
      obtain ⟨values, reports⟩ := read.group.fold respected
      exact ⟨values, by simp only [read.reports, reports]⟩

/-- **Symbols decide about values alone, and monotonically.** Whatever the tokens of a condition,
the same is reported of it over any two sets of symbols, in the same order; and a condition that is
true stays true when there are more symbols. -/
theorem evaluate_symbols (tokens : List PositionedToken) (anchor : PositionedToken)
    (defined more : String → Bool) :
    (evaluate more tokens anchor).2 = (evaluate defined tokens anchor).2 ∧
      ((∀ w, defined w = true → more w = true) →
        (evaluate defined tokens anchor).1 = true → (evaluate more tokens anchor).1 = true) := by
  constructor
  · exact (evaluate_related respected_any (fun _ => trivial) tokens anchor).2.symm
  · intro words
    exact (evaluate_related respected_imp words tokens anchor).1

/-- `A || () && B || A`, with a group that is false whatever the symbols. -/
def emptyGroup : List PositionedToken :=
  row 1 [.identifier ⟨0, "A"⟩, .operator .or, .brace .parenOpen, .brace .parenClose, .operator .and,
    .identifier ⟨0, "B"⟩, .operator .or, .identifier ⟨0, "A"⟩]

theorem evaluate_symbols_emptyGroup :
    let anchor : PositionedToken := ⟨.directive .ifWord, "shell", 1, 0, 1, false⟩
    (∀ w, (w == "A") = true → (w == "A" || w == "B") = true) ∧
      (evaluate (· == "A") emptyGroup anchor).1 = true ∧
      (evaluate (· == "A") emptyGroup anchor).2.length = 1 ∧
      (evaluate (fun w => w == "A" || w == "B") emptyGroup anchor).1 = true := by
  intro anchor
  have more : ∀ w, (w == "A") = true → (w == "A" || w == "B") = true :=
    fun w isA => Bool.or_eq_true_iff.mpr (.inl isA)
  have holds : (evaluate (· == "A") emptyGroup anchor).1 = true := by decide +kernel
  refine ⟨more, holds, by decide +kernel, ?_⟩
  exact (evaluate_symbols emptyGroup anchor (· == "A") _).2 more holds

end SharpFront.Condition
