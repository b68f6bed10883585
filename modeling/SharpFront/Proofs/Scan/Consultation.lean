import SharpFront.Proofs.Catalog.Precedence
import SharpFront.Scan

/-!
# The forms that a step tries

A step tries one form after the other until one matches: where it stands those that see blanks, and
behind the blanks those that its next character calls for.

* `trials`, `found?`: what is tried, and the first trial that matches;
* `step_eq_settle`: a step depends on that trial alone;
* `Moves`, `Stalls`: what a step can do;
* `step_consults`: the trials of a catalog are in the order of precedence.
-/

namespace SharpFront

/-- The forms to try from a scan on, in the order of precedence, each with the scan at which it is
tried. -/
def Catalog.trials (catalog : List Form) (s : Scan) : List (Scan × Form) :=
  (sighted catalog).map (s, ·) ++
    (contenders catalog s.skipBlanks.rest.head?).map (s.skipBlanks, ·)

namespace Scan

/-- The forms that a step tries, in order, each with the scan at which it is tried. -/
def trials (tiers : Tiers) (s : Scan) : List (Scan × Form) :=
  tiers.seeBlanks.map (s, ·) ++ (tiers.candidates s.skipBlanks.rest.head?).map (s.skipBlanks, ·)

/-- What a form finds at the scan at which it is tried. -/
def attempt (trial : Scan × Form) : Option (Scan × Lexeme) :=
  (trial.1.recognize trial.2).map (trial.1, ·)

/-- What the first trial that matches finds, and where. -/
def found? (tiers : Tiers) (s : Scan) : Option (Scan × Lexeme) :=
  (s.trials tiers).findSome? attempt

/-- A step that has found a lexeme, or none. -/
def settle (s : Scan) : Option (Scan × Lexeme) → Step
  | some (t, l) => t.accept l
  | none =>
    match s.skipBlanks.rest with
    | [] => .moved s.skipBlanks
    | c :: _ => .moved (s.skipBlanks.record (.rejected s.skipBlanks.place c))

variable {tiers : Tiers} {s t : Scan} {l : Lexeme}

theorem findSome?_attempt (s : Scan) (forms : List Form) :
    (forms.map (s, ·)).findSome? attempt = (s.firstMatch forms).map (s, ·) := by
  rw [List.findSome?_map, firstMatch, List.map_findSome?]
  rfl

theorem found?_eq (tiers : Tiers) (s : Scan) :
    s.found? tiers = ((s.firstMatch tiers.seeBlanks).map (s, ·)).or
      ((s.skipBlanks.firstMatch (tiers.candidates s.skipBlanks.rest.head?)).map
        (s.skipBlanks, ·)) := by
  rw [found?, trials, List.findSome?_append, findSome?_attempt, findSome?_attempt]

/-- Nothing but the first trial that matches decides what a step does. -/
theorem step_eq_settle (tiers : Tiers) (s : Scan) : s.step tiers = s.settle (s.found? tiers) := by
  rw [found?_eq, step]
  cases s.firstMatch tiers.seeBlanks with
  | some l => rfl
  | none =>
    simp only [Option.map_none, Option.none_or]
    cases s.skipBlanks.firstMatch (tiers.candidates s.skipBlanks.rest.head?) <;> rfl

/-- **A step tries the forms of a catalog in the order of their precedence**, until one matches. Each
form of the catalog has its place in one of the groups, once. -/
theorem step_consults (catalog : List Form) :
    (∀ s : Scan, s.step (.build catalog) =
      s.settle ((Catalog.trials catalog s).findSome? attempt)) ∧
    (∀ c, (Tiers.build catalog).consulted (some c) =
      Catalog.sighted catalog ++ (Catalog.holders catalog c ++ Catalog.waiting catalog)) ∧
    (Tiers.build catalog).order.Perm catalog := by
  refine ⟨fun s => ?_, fun c => ?_, Tiers.order_build_perm catalog⟩
  · rw [step_eq_settle, found?, trials, Tiers.seeBlanks_build, Tiers.candidates_build,
      Catalog.trials]
  · rw [Tiers.consulted, Tiers.seeBlanks_build, Tiers.candidates_build, Catalog.contenders,
      Option.elim_some]

/-! ## What a step can do -/

/-- The step ends at another scan. -/
inductive Moves (tiers : Tiers) (s : Scan) : Scan → Prop where
  | lexeme {t : Scan} {l : Lexeme} (found : s.found? tiers = some (t, l)) (covers : l.text ≠ []) :
    Moves tiers s (t.record (.lexeme t.place l))
  | rejected {c : Char} {rest : List Char} (noLexeme : s.found? tiers = none)
    (next : s.skipBlanks.rest = c :: rest) :
    Moves tiers s (s.skipBlanks.record (.rejected s.skipBlanks.place c))
  | ended (noLexeme : s.found? tiers = none) (atEnd : s.skipBlanks.rest = []) :
    Moves tiers s s.skipBlanks

/-- The first form that matches covers no text. -/
structure Stalls (tiers : Tiers) (s t : Scan) (l : Lexeme) : Prop where
  notEnd : s.rest ≠ []
  found : s.found? tiers = some (t, l)
  empty : l.text = []

theorem Moves.step_eq (h : Moves tiers s t) : s.step tiers = .moved t := by
  rw [step_eq_settle]
  cases h with
  | lexeme found covers =>
    rw [found, settle, accept, if_neg (mt List.isEmpty_iff.mp covers)]
  | rejected noLexeme next =>
    rw [noLexeme]
    simp only [settle]
    rw [next]
  | ended noLexeme atEnd =>
    rw [noLexeme]
    simp only [settle]
    rw [atEnd]

theorem Stalls.step_eq (h : Stalls tiers s t l) : s.step tiers = .stuck t l.token := by
  rw [step_eq_settle, h.found, settle, accept, if_pos (List.isEmpty_iff.mpr h.empty)]

theorem moves_or_stalls (tiers : Tiers) (notEnd : s.rest ≠ []) :
    (∃ t, Moves tiers s t) ∨ ∃ t l, Stalls tiers s t l := by
  cases found : s.found? tiers with
  | some lexeme =>
    obtain ⟨t, l⟩ := lexeme
    by_cases empty : l.text = []
    · exact .inr ⟨t, l, notEnd, found, empty⟩
    · exact .inl ⟨_, .lexeme found empty⟩
  | none =>
    cases next : s.skipBlanks.rest with
    | nil => exact .inl ⟨_, .ended found next⟩
    | cons c rest => exact .inl ⟨_, .rejected found next⟩

end Scan

end SharpFront
