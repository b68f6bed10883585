import SharpFront.Proofs.Form.Content
import SharpFront.Proofs.Scan.Lines
import SharpFront.Proofs.Scan.Path

/-!
# Scans that go on alike

Two scans with the same text ahead, on the same line and column, find the same from there on, with
spans by content, if no word from that line on can tell the tokens behind them apart.

* `Resumes`: how the scans are to agree;
* `Takes.resume`: one segment;
* `Path.resume`: a path.
-/

namespace SharpFront

/-- The segment as far as it counts, whatever its offset. -/
def Segment.content : Segment → Segment
  | .lexeme start l => .lexeme { start with offset := 0 } l.content
  | .skipped start blanks => .skipped { start with offset := 0 } blanks
  | .rejected start c => .rejected { start with offset := 0 } c

namespace Segment

theorem text_content (segment : Segment) : segment.content.text = segment.text := by
  cases segment <;> rfl

theorem reports_content (segment : Segment) : segment.content.reports = segment.reports := by
  cases segment <;> rfl

theorem solid?_content (segment : Segment) :
    segment.content.solid? = segment.solid?.map fun (t, line) => (t.content, line) := by
  cases segment with
  | lexeme start l =>
    simp only [content, solid?, Lexeme.content, Token.isWhitespace_content]
    split <;> rfl
  | skipped start blanks => rfl
  | rejected start c => rfl

theorem token?_content (segment : Segment) (file : String) :
    segment.content.token? file = (segment.token? file).map PositionedToken.content := by
  cases segment <;> rfl

end Segment

namespace Scan

/-- The scans have the same text ahead of them, and differ in nothing that matters for it but the
offset. -/
structure Resumes (s t : Scan) : Prop where
  rest_eq : t.rest = s.rest
  position_eq : t.place.position = s.place.position
  follows : ∀ line, s.place.line ≤ line → t.followsHash line = s.followsHash line

variable {s t : Scan} {segment other : Segment} {xs : List Segment}

theorem Resumes.content_place (h : Resumes s t) :
    ({ t.place with offset := 0 } : Place) = { s.place with offset := 0 } := by
  obtain ⟨line, column⟩ := Prod.mk.inj (toLex.injective h.position_eq)
  exact congrArg₂ (Place.mk 0) line column

theorem Resumes.firstMatch_eq (h : Resumes s t) (forms : List Form) :
    (t.firstMatch forms).map Lexeme.content = (s.firstMatch forms).map Lexeme.content := by
  rw [firstMatch, firstMatch, List.map_findSome?, List.map_findSome?]
  congr 1
  funext form
  simp only [Function.comp_apply, recognize, h.rest_eq]
  exact form.recognize_content h.position_eq (h.follows _ (Nat.le_refl _)) s.rest

theorem Resumes.exists_firstMatch (h : Resumes s t) {forms : List Form} {l : Lexeme}
    (found : s.firstMatch forms = some l) :
    ∃ m, t.firstMatch forms = some m ∧ m.content = l.content := by
  have same := h.firstMatch_eq forms
  rw [found] at same
  exact Option.map_eq_some_iff.mp same

theorem Resumes.firstMatch_none (h : Resumes s t) {forms : List Form}
    (none : s.firstMatch forms = none) : t.firstMatch forms = .none := by
  have same := h.firstMatch_eq forms
  rw [none] at same
  exact Option.map_eq_none_iff.mp same

theorem Takes.resume (takes : Takes s segment) (h : Resumes s t) :
    ∃ other, Takes t other ∧ other.content = segment.content := by
  cases takes with
  | blank found =>
    obtain ⟨m, found', same⟩ := h.exists_firstMatch found
    exact ⟨_, .blank found', congrArg₂ Segment.lexeme h.content_place same⟩
  | lexeme noBlank found =>
    rw [← h.rest_eq] at found
    obtain ⟨m, found', same⟩ := h.exists_firstMatch found
    exact ⟨_, .lexeme (h.firstMatch_none noBlank) found',
      congrArg₂ Segment.lexeme h.content_place same⟩
  | rejected noBlank noLexeme next =>
    rw [← h.rest_eq] at noLexeme next
    exact ⟨_, .rejected (h.firstMatch_none noBlank) (h.firstMatch_none noLexeme) next,
      congrArg₂ Segment.rejected h.content_place rfl⟩

theorem followsHash_record (s : Scan) (segment : Segment) (line : Nat) :
    (s.record segment).followsHash line =
      match segment.solid? with
      | some (token, tokenLine) => tokenLine == line && token.isOperator .hash
      | none => s.followsHash line := by
  simp only [followsHash, record, List.findSome?_cons]
  cases segment.solid? <;> rfl

theorem Resumes.record (h : Resumes s t) (takes : Takes s segment) (takes' : Takes t other)
    (same : other.content = segment.content) : Resumes (s.record segment) (t.record other) where
  rest_eq := by
    rw [record_rest, record_rest, ← segment.text_content, ← other.text_content, same, h.rest_eq]
  position_eq := by
    rw [takes.place_record, takes'.place_record, ← segment.text_content, ← other.text_content, same]
    exact Place.position_after h.position_eq _
  follows := by
    intro line isLater
    have forward := s.place.line_le_after segment.text
    rw [takes.place_record] at isLater
    have solid := congrArg Segment.solid? same
    rw [Segment.solid?_content, Segment.solid?_content] at solid
    rw [followsHash_record, followsHash_record]
    cases isSolid : segment.solid? with
    | none =>
      rw [isSolid] at solid
      rw [Option.map_eq_none_iff.mp solid]
      exact h.follows line (Nat.le_trans forward isLater)
    | some found =>
      rw [isSolid] at solid
      obtain ⟨found', isSolid', same⟩ := Option.map_eq_some_iff.mp solid
      obtain ⟨token, line_eq⟩ := Prod.mk.inj same
      simp only [isSolid', line_eq, ← Token.isOperator_content found'.1, token,
        Token.isOperator_content]

/-- A path of the one scan is a path of the other, with spans by content. -/
theorem Path.resume (path : Path s xs) (h : Resumes s t) :
    ∃ ys, Path t ys ∧ ys.map Segment.content = xs.map Segment.content ∧
      (t.recordAll ys).rest = (s.recordAll xs).rest := by
  induction path generalizing t with
  | nil => exact ⟨[], .nil, rfl, h.rest_eq⟩
  | cons takes later ih =>
    obtain ⟨other, takes', same⟩ := takes.resume h
    obtain ⟨ys, path, others, rest⟩ := ih (h.record takes takes' same)
    exact ⟨other :: ys, .cons takes' path, congrArg₂ List.cons same others, rest⟩

end Scan

end SharpFront
