import Mathlib.Data.List.Infix
import SharpFront.Pattern.Reader
import SharpFront.Proofs.Catalog.Registration
import SharpFront.Proofs.Scan.Progress

/-!
# A form that matches nowhere

A form that is added behind a catalog can open a tier, take a slot or wait, but leaves the other
forms in their order. If it matches nowhere in a text, it shows in nothing that is made of the text.
Lines and columns have no bound here; `Checked.run_eq` is for counters of 32 bits.

* `firstMatch_filter`: the forms that find nothing can be left out;
* `found?_append`: so it can where a step tries it;
* `run_append`: the run of a scan;
* `Lexer.run_add`: the run of a lexer.
-/

namespace SharpFront

namespace Scan

variable {tiers other : Tiers} {s t : Scan} {catalog : List Form} {form : Form} {l : Lexeme}

/-! ## A step -/

/-- The form finds something where the scan stands. -/
def matchesHere (s : Scan) (form : Form) : Bool := (s.recognize form).isSome

theorem firstMatch_filter (s : Scan) (forms : List Form) :
    s.firstMatch (forms.filter s.matchesHere) = s.firstMatch forms := by
  unfold firstMatch
  induction forms with
  | nil => rfl
  | cons first forms ih =>
    cases found : s.recognize first with
    | none =>
      have dropped : ¬s.matchesHere first = true := by simp [matchesHere, found]
      rw [List.filter_cons_of_neg dropped, List.findSome?_cons, found, ih]
    | some l =>
      have kept : s.matchesHere first = true := by simp [matchesHere, found]
      rw [List.filter_cons_of_pos kept, List.findSome?_cons, List.findSome?_cons, found]

theorem firstMatch_eq_of_filter {forms more : List Form}
    (same : more.filter s.matchesHere = forms.filter s.matchesHere) :
    s.firstMatch more = s.firstMatch forms := by
  rw [← firstMatch_filter s more, same, firstMatch_filter]

theorem found?_append (h : ∀ rest, rest <:+ s.rest → form.finds rest = false)
    (catalog : List Form) :
    s.found? (.build (catalog ++ [form])) = s.found? (.build catalog) := by
  have here : s.matchesHere form = false :=
    (Form.isSome_recognize form _ _ _).trans (h _ List.suffix_rfl)
  have behind : s.skipBlanks.matchesHere form = false :=
    (Form.isSome_recognize form _ _ _).trans (h _ s.skipBlanks_suffix)
  rw [found?_eq, found?_eq, Tiers.seeBlanks_build, Tiers.seeBlanks_build, Tiers.candidates_build,
    Tiers.candidates_build,
    firstMatch_eq_of_filter (Catalog.filter_sighted_append here catalog),
    firstMatch_eq_of_filter (Catalog.filter_contenders_append behind catalog _)]

/-! ## The runs -/

theorem Moves.congr (h : Moves tiers s t) (same : s.found? other = s.found? tiers) :
    Moves other s t := by
  cases h with
  | lexeme found covers => exact .lexeme (same.trans found) covers
  | rejected noLexeme next => exact .rejected (same.trans noLexeme) next
  | ended noLexeme atEnd => exact .ended (same.trans noLexeme) atEnd

theorem Stalls.congr (h : Stalls tiers s t l) (same : s.found? other = s.found? tiers) :
    Stalls other s t l :=
  ⟨h.notEnd, same.trans h.found, h.empty⟩

theorem run_append (h : ∀ rest, rest <:+ s.rest → form.finds rest = false) (catalog : List Form) :
    s.run (.build (catalog ++ [form])) = s.run (.build catalog) := by
  induction length : s.rest.length using Nat.strongRecOn generalizing s with
  | ind k ih =>
    by_cases atEnd : s.rest = []
    · rw [run_of_end _ atEnd, run_of_end _ atEnd]
    · have same := found?_append h catalog
      rcases moves_or_stalls (.build catalog) atEnd with ⟨t, moves⟩ | ⟨t, l, stalls⟩
      · have shorter := step_shorter atEnd moves.step_eq
        rw [moves.run_eq atEnd, (moves.congr same).run_eq atEnd]
        exact ih _ (length ▸ shorter) (fun rest isRest => h rest (isRest.trans moves.suffix)) rfl
      · rw [stalls.run_eq, (stalls.congr same).run_eq]

end Scan

/-! ## The lexer -/

namespace Lexer

/-- **A form that matches nowhere in a text can be added** without a change to what a run makes of
it. -/
theorem run_add {l : Lexer} {source : SourceText} {form : Form}
    (isSource : l.source? = some source) (hasForms : l.catalog ≠ [])
    (nowhere : ∀ rest, rest <:+ source.chars → form.finds rest = false) :
    (l.add form).run = (l.run.1.add form, l.run.2) := by
  have hasMore : (l.add form).catalog ≠ [] := List.append_ne_nil_of_left_ne_nil hasForms _
  have same := Scan.run_append (s := { rest := source.chars }) nowhere l.catalog
  cases run : ({ rest := source.chars } : Scan).run (.build l.catalog) with
  | mk s stuck =>
    rw [run] at same
    cases stuck with
    | none =>
      rw [run_of_end isSource hasForms run]
      exact run_of_end (l := l.add form) isSource hasMore same
    | some token =>
      rw [run_of_stuck isSource hasForms run]
      exact run_of_stuck (l := l.add form) isSource hasMore same

/-- A pattern whose priority lies between those of a comment and an operator. -/
theorem run_add_pattern :
    let pattern : NamedPattern :=
      { name := "az", program := (Pattern.Program.ofText? "az").get (by decide +kernel)
        trigger := some 'a', priority := 1 }
    let l := (ofCatalog [.lineComment, .word, .operator .plus]).setInput "main.cs" "a + $ // z"
    let source : SourceText := .ofRaw "a + $ // z"
    (l.source? = some source ∧ l.catalog ≠ [] ∧
      ∀ rest, rest <:+ source.chars → (Form.pattern pattern).finds rest = false) ∧
      (l.add (.pattern pattern)).run = (l.run.1.add (.pattern pattern), l.run.2) := by
  intro pattern l source
  have nowhere : ∀ rest, rest <:+ source.chars → (Form.pattern pattern).finds rest = false := by
    simp only [← List.mem_tails]
    decide +kernel
  have hasForms : l.catalog ≠ [] := List.cons_ne_nil _ _
  exact ⟨⟨rfl, hasForms, nowhere⟩, run_add rfl hasForms nowhere⟩

end Lexer

end SharpFront
