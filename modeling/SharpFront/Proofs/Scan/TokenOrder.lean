import SharpFront.Proofs.Diagnostic.Position
import SharpFront.Proofs.Scan.Lines

/-!
# Tokens in reading order

* `Apart`: tokens none of which reaches into the next;
* `Reached.apart`: the tokens found so far.
-/

namespace SharpFront

namespace PositionedToken

def position (t : PositionedToken) : Position := toLex (t.line, t.column)

/-- Right after the token, if it ends on the line where it starts. -/
def stop (t : PositionedToken) : Position := toLex (t.line, t.stopColumn)

theorem position_lt_stop {t : PositionedToken} (h : 0 < t.length) : t.position < t.stop :=
  Prod.Lex.toLex_lt_toLex.mpr (.inr ⟨rfl, Nat.lt_add_of_pos_right h⟩)

end PositionedToken

/-- Each token is followed by those that start where it stops or later. -/
structure Apart (tokens : List PositionedToken) : Prop where
  notEmpty : ∀ t ∈ tokens, 0 < t.length
  pairwise : tokens.Pairwise fun t u => t.stop ≤ u.position

theorem Apart.sublist {tokens more : List PositionedToken} (h : Apart more)
    (within : tokens.Sublist more) : Apart tokens where
  notEmpty t isToken := h.notEmpty t (within.subset isToken)
  pairwise := h.pairwise.sublist within

/-- Every token starts before those after it. -/
theorem Apart.position_lt {before after : List PositionedToken} (h : Apart (before ++ after)) :
    ∀ t ∈ before, ∀ u ∈ after, t.position < u.position := by
  intro t isBefore u isAfter
  have filled := h.notEmpty t (List.mem_append_left _ isBefore)
  exact (t.position_lt_stop filled).trans_le
    ((List.pairwise_append.mp h.pairwise).2.2 t isBefore u isAfter)

/-- A text without a line break takes a column for each of its characters, and one with a line break
leads to a later line. -/
theorem Place.stop_le_after (p : Place) (text : List Char) :
    (toLex (p.line, p.column + text.length) : Position) ≤ (p.after text).position := by
  rcases Nat.lt_or_eq_of_le (p.line_le_after text) with later | sameLine
  · exact Prod.Lex.toLex_le_toLex.mpr (.inl later)
  · exact Prod.Lex.toLex_le_toLex.mpr (.inr ⟨sameLine, (p.column_after sameLine.symm).ge⟩)

namespace Scan

variable {source : List Char} {s : Scan} {segment : Segment} {file : String}

theorem Takes.token_span {t : PositionedToken} (h : Takes s segment)
    (isToken : segment.token? file = some t) :
    t.position = s.place.position ∧ t.length = segment.text.length := by
  obtain ⟨line_eq, column_eq⟩ := h.token_place isToken
  refine ⟨by rw [PositionedToken.position, line_eq, column_eq]; rfl, ?_⟩
  cases segment with
  | lexeme start l =>
    cases isToken
    rfl
  | skipped start blanks => cases isToken
  | rejected start c => cases isToken

theorem Reached.stop_le (h : Reached source s) (file : String) :
    ∀ t ∈ s.tokens file, t.stop ≤ s.place.position := by
  induction h with
  | start => exact List.forall_mem_nil _
  | @record s segment h takes ih =>
    rw [tokens_record, takes.place_record]
    refine List.forall_mem_append.mpr ⟨?earlier, ?last⟩
    case earlier =>
      intro t earlier
      exact (ih t earlier).trans (s.place.position_le_after segment.text)
    case last =>
      intro t last
      obtain ⟨line_eq, column_eq⟩ := takes.token_place (Option.mem_toList.mp last)
      have length_eq := (takes.token_span (Option.mem_toList.mp last)).2
      rw [PositionedToken.stop, PositionedToken.stopColumn, line_eq, column_eq, length_eq]
      exact s.place.stop_le_after segment.text

theorem Reached.length_pos (h : Reached source s) (file : String) :
    ∀ t ∈ s.tokens file, 0 < t.length := by
  refine h.forall_tokens fun s segment takes t isToken => ?_
  rw [(takes.token_span isToken).2]
  exact List.length_pos_iff.mpr takes.text_ne_nil

theorem Reached.apart (h : Reached source s) (file : String) : Apart (s.tokens file) where
  notEmpty := h.length_pos file
  pairwise := by
    refine h.pairwise_tokens fun s segment h takes u isToken t earlier => ?_
    rw [(takes.token_span isToken).1]
    exact h.stop_le file t earlier

end Scan

end SharpFront
