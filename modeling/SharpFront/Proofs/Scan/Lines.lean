import SharpFront.Proofs.Scan.Parts

/-!
# The lines of tokens

A scan only moves forward, so the tokens of a text come in the order of the lines on which they
start, and on one line from left to right.

* `Reached.inLines`, `Reached.inColumns`: the tokens found so far;
* `exists_tokenize`: the tokens of a text, in the order of their lines, none hidden.
-/

namespace SharpFront

/-- No token starts on an earlier line than one before it. -/
def InLines (tokens : List PositionedToken) : Prop := tokens.Pairwise fun t u => t.line ≤ u.line

/-- A token starts to the right of those before it on its line. -/
def InColumns (tokens : List PositionedToken) : Prop :=
  tokens.Pairwise fun t u => t.line = u.line → t.column < u.column

theorem InLines.line_le_last {tokens : List PositionedToken} {last : PositionedToken}
    (h : InLines tokens) (isLast : tokens.getLast? = some last) :
    ∀ t ∈ tokens, t.line ≤ last.line := by
  obtain ⟨earlier, rfl⟩ := List.getLast?_eq_some_iff.mp isLast
  intro t isToken
  rcases List.mem_append.mp isToken with isEarlier | isHere
  · exact (List.pairwise_append.mp h).2.2 t isEarlier last List.mem_cons_self
  · exact Nat.le_of_eq (congrArg PositionedToken.line (List.mem_singleton.mp isHere))

theorem Place.line_le_after (p : Place) (text : List Char) : p.line ≤ (p.after text).line := by
  induction text generalizing p with
  | nil => exact Nat.le_refl _
  | cons c text ih =>
    have later := ih (p.step c)
    have here : p.line ≤ (p.step c).line := by
      unfold Place.step
      split
      · exact Nat.le_succ _
      · exact Nat.le_refl _
    exact Nat.le_trans here later

theorem Place.line_after (p : Place) (text : List Char) :
    (p.after text).line = p.line + text.count '\n' := by
  induction text generalizing p with
  | nil => rfl
  | cons c text ih =>
    rw [after_cons, ih]
    by_cases isFeed : c = '\n'
    · subst isFeed
      rw [List.count_cons_self, step, if_pos rfl]
      exact (Nat.add_right_comm _ _ _).symm
    · rw [List.count_cons_of_ne isFeed, step, if_neg isFeed]

theorem Place.line_after_of_notMem (p : Place) {text : List Char} (h : '\n' ∉ text) :
    (p.after text).line = p.line := by
  rw [line_after, List.count_eq_zero.mpr h, Nat.add_zero]

/-- On one line a text takes a column for each of its characters. -/
theorem Place.column_after (p : Place) {text : List Char}
    (sameLine : (p.after text).line = p.line) :
    (p.after text).column = p.column + text.length := by
  induction text generalizing p with
  | nil => rfl
  | cons c text ih =>
    rw [after_cons] at sameLine ⊢
    have later := (p.step c).line_le_after text
    have notFeed : c ≠ '\n' := by
      rintro rfl
      simp only [step, if_true] at later sameLine
      omega
    have line_eq : (p.step c).line = p.line := by simp only [step, notFeed, if_false]
    have column_eq : (p.step c).column = p.column + 1 := by simp only [step, notFeed, if_false]
    rw [ih _ (by rw [sameLine, line_eq]), column_eq, List.length_cons]
    omega

theorem Segment.line_of_token? {segment : Segment} {file : String} {t : PositionedToken}
    (h : segment.token? file = some t) : t.line = segment.start.line := by
  cases segment <;> cases h
  rfl

namespace Scan

variable {source : List Char} {s : Scan} {segment : Segment}

theorem Takes.token_place {t : PositionedToken} {file : String} (h : Takes s segment)
    (isToken : segment.token? file = some t) :
    t.line = s.place.line ∧ t.column = s.place.column := by
  have start_eq := h.start_eq
  cases segment with
  | lexeme start l =>
    cases isToken
    exact ⟨congrArg Place.line start_eq, congrArg Place.column start_eq⟩
  | skipped start blanks => cases isToken
  | rejected start c => cases isToken

/-- Tokens stand in a relation if each of a next segment does so with all found before it. -/
theorem Reached.pairwise_tokens {R : PositionedToken → PositionedToken → Prop} {file : String}
    (h : Reached source s)
    (next : ∀ s segment, Reached source s → Takes s segment → ∀ u, segment.token? file = some u →
      ∀ t ∈ s.tokens file, R t u) : (s.tokens file).Pairwise R := by
  induction h with
  | start => exact .nil
  | @record s segment h takes ih =>
    rw [tokens_record]
    refine List.pairwise_append.mpr ⟨ih, ?alone, ?further⟩
    case alone =>
      cases segment.token? file with
      | none => exact .nil
      | some t => exact List.pairwise_singleton _ t
    case further =>
      intro t earlier u last
      exact next s segment h takes u (Option.mem_toList.mp last) t earlier

theorem Reached.line_le (h : Reached source s) (file : String) :
    ∀ t ∈ s.tokens file, t.line ≤ s.place.line := by
  induction h with
  | start =>
    intro t isToken
    cases isToken
  | @record s segment h takes ih =>
    intro t isToken
    have forward := s.place.line_le_after segment.text
    rw [takes.place_record]
    rw [tokens_record] at isToken
    rcases List.mem_append.mp isToken with earlier | last
    · have := ih t earlier
      omega
    · have := (takes.token_place (Option.mem_toList.mp last)).1
      omega

theorem Reached.inLines (h : Reached source s) (file : String) : InLines (s.tokens file) := by
  refine h.pairwise_tokens fun s segment h takes u isToken t earlier => ?_
  rw [(takes.token_place isToken).1]
  exact h.line_le file t earlier

/-- What comes next on the line of a token starts to the right of it. -/
theorem Reached.column_lt (h : Reached source s) (file : String) :
    ∀ t ∈ s.tokens file, t.line = s.place.line → t.column < s.place.column := by
  induction h with
  | start =>
    intro t isToken
    cases isToken
  | @record s segment h takes ih =>
    intro t isToken sameLine
    have forward := s.place.line_le_after segment.text
    have notEmpty := List.length_pos_iff.mpr takes.text_ne_nil
    rw [takes.place_record] at sameLine ⊢
    rw [tokens_record] at isToken
    rcases List.mem_append.mp isToken with earlier | last
    · have onOrBefore := h.line_le file t earlier
      have := ih t earlier (by omega)
      rw [s.place.column_after (by omega)]
      omega
    · obtain ⟨line_eq, column_eq⟩ := takes.token_place (Option.mem_toList.mp last)
      rw [s.place.column_after (by omega)]
      omega

theorem Reached.inColumns (h : Reached source s) (file : String) : InColumns (s.tokens file) := by
  refine h.pairwise_tokens fun s segment h takes u isToken t earlier sameLine => ?_
  obtain ⟨line_eq, column_eq⟩ := takes.token_place isToken
  rw [column_eq]
  exact h.column_lt file t earlier (by rw [sameLine, line_eq])

theorem origin_of_mem_tokens {file : String} {t : PositionedToken} (h : t ∈ s.tokens file) :
    t.file = file ∧ t.hidden = false := by
  obtain ⟨segment, -, isToken⟩ := List.mem_filterMap.mp h
  cases segment with
  | lexeme start l =>
    cases isToken
    exact ⟨rfl, rfl⟩
  | skipped start blanks => cases isToken
  | rejected start c => cases isToken

end Scan

theorem exists_tokenize (raw file : String) :
    ∃ tokens diagnostics, tokenize raw file = .ok (tokens, diagnostics) ∧ InLines tokens ∧
      ∀ t ∈ tokens, t.hidden = false := by
  obtain ⟨s, reached, -, tokenized⟩ := exists_scan raw file
  refine ⟨_, _, tokenized, reached.inLines file, ?_⟩
  intro t isToken
  exact (Scan.origin_of_mem_tokens isToken).2

end SharpFront
