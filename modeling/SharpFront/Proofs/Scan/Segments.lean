import SharpFront.Proofs.Catalog.Tiers
import SharpFront.Proofs.Form.Covered
import SharpFront.Proofs.Place
import SharpFront.Scan

/-!
# Scans with the forms of the language

With the default catalog every step takes a lexeme or a character that no form knows, and records
it: blanks are lexemes themselves, and no form matches without covering text.

* `Takes`: what one step can do, and `exists_takes`, `Takes.step_eq`: that it does;
* `Reached`: the scans that come up on the way through a source text;
* `exists_reached_end`: a scan goes through to the end;
* `Reached.source_eq`, `Reached.place_eq`: what has been recorded and what remains make up the
  source, and the place reached is the one between them.
-/

namespace SharpFront.Scan

/-- The forms of the language, grouped. -/
def tiers : Tiers := .build defaultCatalog

/-- What a step takes from the text that remains: what the first form that matches finds, or else
one character. -/
inductive Takes (s : Scan) : Segment → Prop where
  | blank {l : Lexeme} (found : s.firstMatch tiers.seeBlanks = some l) :
    Takes s (.lexeme s.place l)
  | lexeme {l : Lexeme} (noBlank : s.firstMatch tiers.seeBlanks = none)
    (found : s.firstMatch (tiers.candidates s.rest.head?) = some l) : Takes s (.lexeme s.place l)
  | rejected {c : Char} {rest : List Char} (noBlank : s.firstMatch tiers.seeBlanks = none)
    (noLexeme : s.firstMatch (tiers.candidates s.rest.head?) = none) (next : s.rest = c :: rest) :
    Takes s (.rejected s.place c)

variable {s : Scan} {segment : Segment} {l : Lexeme}

/-! ## One step -/

theorem exists_takes (h : s.rest ≠ []) : ∃ segment, Takes s segment := by
  cases first : s.firstMatch tiers.seeBlanks with
  | some l => exact ⟨_, .blank first⟩
  | none =>
    cases second : s.firstMatch (tiers.candidates s.rest.head?) with
    | some l => exact ⟨_, .lexeme first second⟩
    | none =>
      cases next : s.rest with
      | nil => exact absurd next h
      | cons c rest => exact ⟨_, .rejected first second next⟩

theorem Takes.start_eq (h : Takes s segment) : segment.start = s.place := by
  cases h <;> rfl

theorem Takes.exists_form {start : Place} (h : Takes s (.lexeme start l)) :
    ∃ form ∈ defaultCatalog, s.recognize form = some l := by
  cases h with
  | blank found =>
    obtain ⟨form, isForm, found⟩ := List.exists_of_findSome?_eq_some found
    exact ⟨form, (Tiers.mem_seeBlanks_iff.mp isForm).1, found⟩
  | lexeme noBlank found =>
    obtain ⟨form, isForm, found⟩ := List.exists_of_findSome?_eq_some found
    exact ⟨form, Tiers.mem_of_mem_candidates isForm, found⟩

theorem Takes.isPrefix (h : Takes s segment) : segment.text <+: s.rest := by
  cases segment with
  | lexeme start l =>
    obtain ⟨form, inCatalog, found⟩ := h.exists_form
    exact Form.recognize_isPrefix found
  | skipped start blanks => cases h
  | rejected start c =>
    cases h with
    | rejected noBlank noLexeme next =>
      rw [next]
      exact ⟨_, rfl⟩

theorem Takes.text_ne_nil (h : Takes s segment) : segment.text ≠ [] := by
  cases segment with
  | lexeme start l =>
    obtain ⟨form, inCatalog, found⟩ := h.exists_form
    exact Form.recognize_ne_nil inCatalog found
  | skipped start blanks => cases h
  | rejected start c => exact List.cons_ne_nil c []

theorem Takes.rest_ne_nil (h : Takes s segment) : s.rest ≠ [] := by
  intro atEnd
  have isPrefix := h.isPrefix
  rw [atEnd, List.prefix_nil] at isPrefix
  exact h.text_ne_nil isPrefix

theorem Takes.accept_eq {start : Place} (h : Takes s (.lexeme start l)) :
    s.accept l = .moved (s.record (.lexeme s.place l)) := by
  have notEmpty : l.text.isEmpty = false := List.isEmpty_eq_false_iff.mpr h.text_ne_nil
  simp only [accept, notEmpty, Bool.false_eq_true, if_false]

/-- Blanks that are no lexeme are none at all. -/
theorem takeWhile_isBlank (noBlank : s.firstMatch tiers.seeBlanks = none) :
    s.rest.takeWhile Text.isBlank = [] := by
  have inTiers : Form.whitespace ∈ tiers.seeBlanks :=
    Tiers.mem_seeBlanks_iff.mpr ⟨by simp [defaultCatalog], rfl⟩
  have notFound : Form.whitespace? s.rest = none :=
    List.findSome?_eq_none_iff.mp noBlank _ inTiers
  simp only [Form.whitespace?] at notFound
  split at notFound
  · next isEmpty => exact List.isEmpty_iff.mp isEmpty
  · cases notFound

theorem skipBlanks_eq_self (h : s.rest.takeWhile Text.isBlank = []) : s.skipBlanks = s := by
  simp only [skipBlanks, h, List.isEmpty_nil, if_true]

theorem skipBlanks_eq (noBlank : s.firstMatch tiers.seeBlanks = none) : s.skipBlanks = s :=
  skipBlanks_eq_self (takeWhile_isBlank noBlank)

theorem Takes.step_eq (h : Takes s segment) : s.step tiers = .moved (s.record segment) := by
  unfold step
  cases h with
  | blank found =>
    rw [found]
    exact Takes.accept_eq (.blank found)
  | lexeme noBlank found =>
    simp only [noBlank, skipBlanks_eq noBlank, found]
    exact Takes.accept_eq (.lexeme noBlank found)
  | rejected noBlank noLexeme next =>
    simp only [noBlank, skipBlanks_eq noBlank, noLexeme]
    rw [next]

/-! ## The way through a source text -/

inductive Reached (source : List Char) : Scan → Prop where
  | start : Reached source { rest := source }
  | record {s : Scan} {segment : Segment} (h : Reached source s) (takes : Takes s segment) :
    Reached source (s.record segment)

variable {source : List Char}

theorem run_of_moved {tiers : Tiers} {t : Scan} (h : s.step tiers = .moved t)
    (notEnd : s.rest ≠ []) : s.run tiers = t.run tiers := by
  rw [run, dif_neg notEnd]
  split
  · next stuck =>
    rw [h] at stuck
    cases stuck
  · next moved =>
    rw [h] at moved
    cases moved
    rfl

theorem run_of_stuck {tiers : Tiers} {t : Scan} {token : Token}
    (h : s.step tiers = .stuck t token) (notEnd : s.rest ≠ []) :
    s.run tiers = (t, some token) := by
  rw [run, dif_neg notEnd]
  split
  · next stuck =>
    rw [h] at stuck
    cases stuck
    rfl
  · next moved =>
    rw [h] at moved
    cases moved

theorem run_of_takes (h : Takes s segment) (notEnd : s.rest ≠ []) :
    s.run tiers = (s.record segment).run tiers :=
  run_of_moved h.step_eq notEnd

/-- A scan neither stops early nor gets stuck. -/
theorem exists_reached_end (h : Reached source s) :
    ∃ t, s.run tiers = (t, none) ∧ t.rest = [] ∧ Reached source t := by
  induction length : s.rest.length using Nat.strongRecOn generalizing s with
  | ind n ih =>
    by_cases isEnd : s.rest = []
    · rw [run, dif_pos isEnd]
      exact ⟨s, rfl, isEnd, h⟩
    · obtain ⟨segment, takes⟩ := exists_takes isEnd
      have shorter := step_shorter isEnd takes.step_eq
      rw [run_of_takes takes isEnd]
      exact ih _ (length ▸ shorter) (.record h takes) rfl

/-- The text that has been recorded. -/
def seen (s : Scan) : List Char := s.segments.reverse.flatMap Segment.text

theorem seen_record (s : Scan) (segment : Segment) :
    (s.record segment).seen = s.seen ++ segment.text := by
  simp only [seen, record, List.reverse_cons, List.flatMap_append, List.flatMap_singleton]

theorem seen_append_rest_record (h : segment.text <+: s.rest) :
    (s.record segment).seen ++ (s.record segment).rest = s.seen ++ s.rest := by
  rw [seen_record, record_rest, List.append_assoc, List.prefix_iff_eq_append.mp h]

theorem place_record_of_isPrefix (h : segment.text <+: s.rest) :
    (s.record segment).place = s.place.after segment.text := by
  have covered : s.rest.take segment.text.length = segment.text :=
    List.prefix_iff_eq_take.mp h ▸ rfl
  simp only [record, advance, covered]

theorem Takes.place_record (h : Takes s segment) :
    (s.record segment).place = s.place.after segment.text :=
  place_record_of_isPrefix h.isPrefix

theorem Reached.source_eq (h : Reached source s) : source = s.seen ++ s.rest := by
  induction h with
  | start => rfl
  | record h takes ih => exact ih.trans (seen_append_rest_record takes.isPrefix).symm

theorem Reached.place_eq (h : Reached source s) : s.place = ({} : Place).after s.seen := by
  induction h with
  | start => rfl
  | record h takes ih => rw [takes.place_record, seen_record, Place.after_append, ih]

end SharpFront.Scan
