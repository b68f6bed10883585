import SharpFront.Proofs.Form.Lookahead
import SharpFront.Proofs.Scan.LongestMatch
import SharpFront.Proofs.Scan.Path

/-!
# Scans of texts that begin alike

A scan takes the same segments from two texts as long as two more characters are the same in both,
or the second text is cut off behind them.

* `Takes.recognize_withRest`: every form finds the same;
* `Takes.of_alike`: one segment;
* `Path.of_alike`, `Path.of_agree`, `Path.of_isPrefix`: a path.
-/

namespace SharpFront.Scan

variable {s : Scan} {segment : Segment} {form : Form} {xs : List Segment} {text : List Char}

/-- The scan with another text ahead. -/
def withRest (s : Scan) (text : List Char) : Scan := { s with rest := text }

/-! ## Forms -/

/-- What is taken is the longest match, so all that any form finds is decided within it. -/
theorem Takes.recognize_withRest (h : Takes s segment)
    (alike : Alike segment.text.length (segment.text.length + 2) s.rest text)
    (inCatalog : form ∈ defaultCatalog) :
    (s.withRest text).recognize form = s.recognize form := by
  cases found : s.recognize form with
  | none =>
    have two := alike.mono (Nat.le_refl _) (Nat.le_add_left 2 segment.text.length)
    exact Form.recognize_eq_none_of_alike inCatalog found two
  | some m =>
    suffices covered : m.text.length ≤ segment.text.length from
      Form.recognize_of_alike inCatalog found (alike.mono covered (Nat.add_le_add_right covered 2))
    cases segment with
    | lexeme start l =>
      obtain ⟨first, -, isFirst, longest⟩ := h.longest
      by_cases same : form = first
      · rw [same, isFirst] at found
        cases found
        exact Nat.le_refl _
      · exact Nat.le_of_lt (longest form inCatalog same m found)
    | skipped start blanks => cases h
    | rejected start c =>
      rw [h.noMatch form inCatalog] at found
      cases found

/-! ## Segments and paths -/

theorem firstMatch_congr {t : Scan} {forms : List Form}
    (same : ∀ form ∈ forms, t.recognize form = s.recognize form) :
    t.firstMatch forms = s.firstMatch forms := by
  unfold firstMatch
  induction forms with
  | nil => rfl
  | cons form forms ih =>
    obtain ⟨here, later⟩ := List.forall_mem_cons.mp same
    rw [List.findSome?_cons, List.findSome?_cons, here, ih later]

theorem Takes.of_alike (h : Takes s segment)
    (alike : Alike segment.text.length (segment.text.length + 2) s.rest text) :
    Takes (s.withRest text) segment := by
  have blanks : (s.withRest text).firstMatch tiers.seeBlanks = s.firstMatch tiers.seeBlanks := by
    apply firstMatch_congr
    intro form isForm
    exact h.recognize_withRest alike (Tiers.mem_seeBlanks_iff.mp isForm).1
  have head : text.head? = s.rest.head? :=
    alike.head?_eq (List.length_pos_iff.mpr h.text_ne_nil) (Nat.succ_pos _)
  have candidates : (s.withRest text).firstMatch (tiers.candidates text.head?) =
      s.firstMatch (tiers.candidates s.rest.head?) := by
    rw [head]
    apply firstMatch_congr
    intro form isForm
    exact h.recognize_withRest alike (Tiers.mem_of_mem_candidates isForm)
  cases h with
  | blank found => exact .blank (blanks.trans found)
  | lexeme noBlank found => exact .lexeme (blanks.trans noBlank) (candidates.trans found)
  | rejected noBlank noLexeme next =>
    rw [next] at head
    obtain ⟨rest, isText⟩ := List.head?_eq_some_iff.mp head
    exact .rejected (blanks.trans noBlank) (candidates.trans noLexeme) isText

theorem Takes.record_withRest (h : Takes s segment)
    (alike : Alike segment.text.length (segment.text.length + 2) s.rest text) :
    (s.withRest text).record segment =
      (s.record segment).withRest (text.drop segment.text.length) := by
  have place : ((s.withRest text).record segment).place = (s.record segment).place := by
    rw [(h.of_alike alike).place_record, h.place_record]
    rfl
  exact congrArg (Scan.mk (segment :: s.segments) · (text.drop segment.text.length)) place

/-- A scan goes along the same path in a text that is alike as far as the path goes. -/
theorem Path.of_alike (h : Path s xs)
    (alike : Alike (xs.flatMap Segment.text).length ((xs.flatMap Segment.text).length + 2)
      s.rest text) :
    Path (s.withRest text) xs ∧ (s.withRest text).recordAll xs =
      (s.recordAll xs).withRest (text.drop (xs.flatMap Segment.text).length) := by
  induction h generalizing text with
  | nil => exact ⟨.nil, rfl⟩
  | @cons s segment xs takes later ih =>
    rw [List.flatMap_cons, List.length_append] at alike ⊢
    have first : Alike segment.text.length (segment.text.length + 2) s.rest text :=
      alike.mono (by omega) (by omega)
    have behind := alike.drop segment.text.length
    obtain ⟨path, reaches⟩ := ih (behind.mono (by omega) (by omega))
    rw [← takes.record_withRest first] at path reaches
    refine ⟨.cons (takes.of_alike first) path, ?_⟩
    rw [recordAll_cons, reaches, List.drop_drop]
    rfl

/-- Two characters after a path decide that a scan goes along it. -/
theorem Path.of_agree (h : Path s xs)
    (agree : Agree ((xs.flatMap Segment.text).length + 2) s.rest text) :
    Path (s.withRest text) xs ∧ (s.withRest text).recordAll xs =
      (s.recordAll xs).withRest (text.drop (xs.flatMap Segment.text).length) :=
  h.of_alike (.of_agree agree (Nat.le_add_right _ 2))

/-- A scan goes along a path to the end where the text is cut off behind it. -/
theorem Path.of_isPrefix (h : Path s xs) :
    Path (s.withRest (xs.flatMap Segment.text)) xs ∧
      (s.withRest (xs.flatMap Segment.text)).recordAll xs = (s.recordAll xs).withRest [] := by
  have begins : xs.flatMap Segment.text <+: s.rest := ⟨_, h.rest_eq.symm⟩
  obtain ⟨path, reaches⟩ := h.of_alike (.of_isPrefix begins (Nat.le_refl _))
  rw [List.drop_length] at reaches
  exact ⟨path, reaches⟩

end SharpFront.Scan
