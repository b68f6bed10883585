import SharpFront.Proofs.Form.Sited
import SharpFront.Proofs.Scan.Parts

/-!
# The order of what scanning reports

A scan reports what it passes, so its reports come in the order of the text, and no two stand at one
place. A report at the end of a line stands where the next segment begins, which is a blank and has
nothing to report.

* `Takes.sited`, `Takes.stands_or`: where a segment is reported;
* `Reached.ordered`: the reports of a scan go strictly forward.
-/

namespace SharpFront

namespace Scan

variable {source : List Char} {s : Scan} {segment : Segment} {r : Report}

/-! ## One segment -/

theorem not_isBlank_of_rejected {start : Place} {c : Char} (h : Takes s (.rejected start c)) :
    ∃ rest, s.rest = c :: rest ∧ Text.isBlank c = false := by
  cases h with
  | @rejected c rest noBlank noLexeme next =>
    have noBlanks := takeWhile_isBlank noBlank
    refine ⟨rest, next, Bool.eq_false_iff.mpr ?_⟩
    intro isBlank
    rw [next, List.takeWhile_cons_of_pos isBlank] at noBlanks
    cases noBlanks

/-- What a segment reports stands in it or right after it, and goes forward. -/
theorem Takes.sited (h : Takes s segment) :
    (∀ r ∈ segment.reports, Sited s.place s.rest segment.text.length r) ∧
      segment.reports.Pairwise fun a b => a.position < b.position := by
  have start_eq := h.start_eq
  cases segment with
  | lexeme start l =>
    obtain ⟨form, -, found⟩ := h.exists_form
    exact Form.recognize_sited found
  | skipped start blanks => cases h
  | rejected start c =>
    obtain ⟨rest, next, notBlank⟩ := not_isBlank_of_rejected h
    cases start_eq
    rw [next]
    exact ⟨List.forall_mem_singleton.mpr (Form.sited_opener notBlank _ (Nat.lt_succ_self 0) 1),
      List.pairwise_singleton _ _⟩

/-- A report about a segment does not stand before it. -/
theorem position_le_of_sited {place : Place} {text : List Char} {n : Nat}
    (h : Sited place text n r) : place.position ≤ r.position := by
  cases h with
  | character split inside notBlank stands | lineEnd split whole ends shown stands =>
    rw [stands]
    exact place.position_le_after _

/-- At the end of a line nothing is reported about the segment that begins there. -/
theorem position_lt_of_endsLine {place : Place} {text : List Char} {n : Nat}
    (h : Sited place text n r) (positive : 0 < n) (ends : EndsLine text) :
    place.position < r.position := by
  cases h with
  | @character front rest c split inside notBlank stands =>
    rw [stands]
    refine place.position_lt_after ?_
    rintro rfl
    rw [ends c (split ▸ rfl)] at notBlank
    exact absurd notBlank (by decide +kernel)
  | @lineEnd front rest split whole ends' shown stands =>
    rw [stands]
    exact place.position_lt_after (List.ne_nil_of_length_pos (whole ▸ positive))

/-- A report about a segment stands at a character of it that is no blank, or right after it at the
end of a line. -/
theorem Takes.stands_or (h : Takes s segment) (isReport : r ∈ segment.reports) :
    (∃ front c tail, segment.text = front ++ c :: tail ∧ Text.isBlank c = false ∧
      r.position = (s.place.after front).position) ∨
    EndsLine (s.record segment).rest ∧ r.position = (s.place.after segment.text).position := by
  obtain ⟨rest, isRest⟩ := h.isPrefix
  cases h.sited.1 r isReport with
  | @character front rest' c split inside notBlank stands =>
    left
    have isPrefix : front ++ [c] <+: segment.text := by
      refine List.prefix_of_prefix_length_le ⟨rest', ?_⟩ ⟨rest, isRest⟩ ?_
      · rw [List.append_assoc, split]
        rfl
      · rw [List.length_append]
        exact inside
    obtain ⟨tail, isText⟩ := isPrefix
    rw [List.append_assoc] at isText
    exact ⟨front, c, tail, isText.symm, notBlank, stands⟩
  | @lineEnd front rest' split whole ends shown stands =>
    right
    obtain ⟨rfl, rfl⟩ := List.append_inj (split.symm.trans isRest.symm) whole
    refine ⟨?_, stands⟩
    rw [record_rest, split, whole.symm, List.drop_left]
    exact ends

/-- A report about a segment does not stand past it, and right after it only at the end of a line. -/
theorem Takes.position_lt_or (h : Takes s segment) (isReport : r ∈ segment.reports) :
    r.position < (s.record segment).place.position ∨
      r.position = (s.record segment).place.position ∧ EndsLine (s.record segment).rest := by
  rw [h.place_record]
  rcases h.stands_or isReport with ⟨front, c, tail, isText, -, stands⟩ | ⟨ends, stands⟩
  · left
    rw [stands, isText, Place.after_append]
    exact Place.position_lt_after _ (List.cons_ne_nil c tail)
  · exact .inr ⟨stands, ends⟩

/-! ## The whole scan -/

/-- No report stands past the place reached, and there only at the end of a line. -/
theorem Reached.position_lt_or (h : Reached source s) :
    ∀ r ∈ s.reports, r.position < s.place.position ∨
      r.position = s.place.position ∧ EndsLine s.rest := by
  induction h with
  | start => exact List.forall_mem_nil _
  | @record s segment h takes ih =>
    rw [reports_record]
    refine List.forall_mem_append.mpr ⟨?_, fun r isReport => takes.position_lt_or isReport⟩
    intro r isEarlier
    left
    rw [takes.place_record]
    have further := s.place.position_lt_after takes.text_ne_nil
    rcases ih r isEarlier with before | ⟨here, -⟩
    · exact before.trans further
    · rw [here]
      exact further

/-- **Scanning reports in the order of the text**, and nothing twice at one place. -/
theorem Reached.ordered (h : Reached source s) :
    s.reports.Pairwise fun a b => a.position < b.position := by
  induction h with
  | start => exact .nil
  | @record s segment h takes ih =>
    rw [reports_record]
    obtain ⟨sited, ordered⟩ := takes.sited
    refine List.pairwise_append.mpr ⟨ih, ordered, ?_⟩
    intro a isEarlier b isLater
    rcases h.position_lt_or a isEarlier with before | ⟨here, ends⟩
    · exact before.trans_le (position_le_of_sited (sited b isLater))
    · rw [here]
      exact position_lt_of_endsLine (sited b isLater) (List.length_pos_iff.mpr takes.text_ne_nil)
        ends

end Scan

end SharpFront
