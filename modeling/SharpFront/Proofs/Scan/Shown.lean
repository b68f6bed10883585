import SharpFront.Proofs.Condition.Reports
import SharpFront.Proofs.Form.LastLine
import SharpFront.Proofs.Form.Word
import SharpFront.Proofs.Scan.ReportOrder

/-!
# Where tokens and reports are shown

Scanning never stops among the blanks in front of a line, but at the start of the text: blanks are
taken whole, and whatever comes before them on the line is no blank.

* `Reached.shows`: every later place that a scan stops at can be shown;
* `Reached.isShown_report`: every report of a scan can be shown;
* `Reached.isShown_part`, `isShown_stop`: the start of a token, and the end of one that can be asked
  for more.
-/

namespace SharpFront

theorem isIndent_eq_false {c : Char} (h : Text.isBlank c = false) : Excerpt.isIndent c = false := by
  have space : Text.isBlank ' ' = true := by decide +kernel
  have tab : Text.isBlank '\t' = true := by decide +kernel
  refine Bool.eq_false_iff.mpr ?_
  intro isIndent
  rw [Excerpt.isIndent, Bool.or_eq_true, beq_iff_eq, beq_iff_eq] at isIndent
  rcases isIndent with rfl | rfl
  · rw [space] at h
    cases h
  · rw [tab] at h
    cases h

namespace Scan

variable {source : List Char} {file : String} {s : Scan} {segment : Segment} {r : Report}

/-! ## The places of a scan -/

/-- After its start, what a scan has seen of the line shows, or else what comes next. -/
theorem Reached.shows_or (h : Reached source s) :
    s.seen = [] ∨ s.rest = [] ∨ (∃ c ∈ lastLine s.seen, Text.isBlank c = false) ∨
      ∀ c ∈ s.rest.head?, Text.isBlank c = false := by
  cases h with
  | start => exact .inl rfl
  | @record s segment h takes =>
    right
    rw [seen_record, record_rest]
    cases segment with
    | lexeme start l =>
      obtain ⟨form, inCatalog, found⟩ := takes.exists_form
      cases isWhitespace : l.token.isWhitespace with
      | true =>
        right; right
        have isForm : form = .whitespace := by
          by_contra other
          rw [Form.isWhitespace_of_ne other found] at isWhitespace
          cases isWhitespace
        subst isForm
        exact Form.not_isBlank_after_whitespace found
      | false =>
        rcases Form.lastLine_or_eq_of_recognize inCatalog found isWhitespace with
          ⟨c, onLine, notBlank⟩ | whole
        · exact .inr (.inl ⟨c, mem_lastLine_append _ onLine, notBlank⟩)
        · left
          simp only [Segment.text, whole]
          exact List.drop_length
    | skipped start blanks => cases takes
    | rejected start c =>
      obtain ⟨rest, next, notBlank⟩ := not_isBlank_of_rejected takes
      right; left
      have notFeed : '\n' ∉ [c] := by
        rw [List.mem_singleton]
        rintro rfl
        exact absurd notBlank (by decide +kernel)
      have onLine : c ∈ lastLine [c] := by
        rw [lastLine_of_notMem notFeed]
        exact List.mem_cons_self
      exact ⟨c, mem_lastLine_append _ onLine, notBlank⟩

/-- After its start, a scan stops only where an excerpt can show it. -/
theorem Reached.shows (h : Reached source s) (notStart : s.seen ≠ []) (notEnd : s.rest ≠ []) :
    Shows s.seen s.rest := by
  rcases h.shows_or with isStart | isEnd | ⟨c, onLine, notBlank⟩ | next
  · exact absurd isStart notStart
  · exact absurd isEnd notEnd
  · exact shows_of_before onLine (isIndent_eq_false notBlank)
  · exact shows_of_next fun c isNext => isIndent_eq_false (next c isNext)

/-! ## Reports -/

theorem Reached.isShown_report (h : Reached source s) :
    ∀ r ∈ s.reports, IsShown source r.line r.column := by
  refine h.forall_reports fun s segment h takes r isReport => ?_
  have isPlace : ∀ front : List Char, r.position = (s.place.after front).position →
      r.line = lineAfter (s.seen ++ front) ∧ r.column = columnAfter (s.seen ++ front) := by
    intro front stands
    rw [h.place_eq, ← Place.after_append, Place.after_eq] at stands
    exact Prod.mk.inj (toLex.injective stands)
  cases takes.sited.1 r isReport with
  | @character front rest c split inside notBlank stands =>
    obtain ⟨line, column⟩ := isPlace front stands
    refine ⟨s.seen ++ front, c :: rest, ?_, line, column, shows_of_next ?_⟩
    · rw [List.append_assoc, ← split]
      exact h.source_eq
    · intro d isNext
      cases isNext
      exact isIndent_eq_false notBlank
  | @lineEnd front rest split whole ends shown stands =>
    obtain ⟨line, column⟩ := isPlace front stands
    obtain ⟨c, onLine, notBlank⟩ := shown
    refine ⟨s.seen ++ front, rest, ?_, line, column,
      shows_of_before (mem_lastLine_append _ onLine) (isIndent_eq_false notBlank)⟩
    rw [List.append_assoc, ← split]
    exact h.source_eq

/-! ## Tokens -/

/-- A token is shown where it starts, unless it is a blank at the start of the text. -/
def StartIsShown (source : List Char) (before : List Part) : Part → Prop
  | .token t _ => t.token.isWhitespace = false ∨ before ≠ [] → IsShown source t.line t.column
  | .unexpected .. => True

theorem Divides.seen_ne_nil {parts : List Part} (divides : Divides source file s parts)
    (notEmpty : parts ≠ []) : s.seen ≠ [] := by
  obtain ⟨part, more, rfl⟩ := List.exists_cons_of_ne_nil notEmpty
  have first : part.text ≠ [] := by
    have stands := divides.stands [] part more rfl
    cases part with
    | token t text => exact stands.1
    | unexpected d c => exact List.cons_ne_nil c []
  rw [← divides.text_eq, List.flatMap_cons]
  exact List.append_ne_nil_of_left_ne_nil first _

theorem Reached.isShown_part (h : Reached source s) (file : String) :
    ∀ before part after, s.parts file = before ++ part :: after →
      StartIsShown source before part := by
  refine h.forall_parts fun s segment part h takes isPart => ?_
  have start_eq := takes.start_eq
  cases segment with
  | lexeme start l =>
    cases start_eq
    cases isPart
    intro shown
    have place := h.place_eq
    rw [Place.after_eq] at place
    refine ⟨s.seen, s.rest, h.source_eq, congrArg Place.line place, congrArg Place.column place,
      ?_⟩
    obtain ⟨form, inCatalog, found⟩ := takes.exists_form
    rcases shown with notWhitespace | notStart
    · obtain ⟨c, isFirst, notBlank⟩ := Form.exists_head_not_isBlank inCatalog found notWhitespace
      refine shows_of_next ?_
      intro d isNext
      rw [Opening.head?_of_isPrefix takes.isPrefix isFirst] at isNext
      cases isNext
      exact isIndent_eq_false notBlank
    · exact h.shows ((h.divides file).seen_ne_nil notStart) takes.rest_ne_nil
  | skipped start blanks => cases isPart
  | rejected start c =>
    cases isPart
    trivial

end Scan

theorem Form.spansLines_of_expectsMore {form : Form} {followsHash : Nat → Bool} {place : Place}
    {text : List Char} {l : Lexeme} (inCatalog : form ∈ defaultCatalog)
    (h : form.recognize followsHash place text = some l) (expects : l.token.expectsMore = true) :
    form.spansLines = false ∧ l.token.isWhitespace = false := by
  have notBlank : l.token.isWhitespace = false := by
    cases token : l.token <;> simp_all [Token.expectsMore, Token.isWhitespace, Token.directive?,
      Token.isBrace]
  refine ⟨?_, notBlank⟩
  cases recognized_of_recognize h with
  | whitespace => cases notBlank
  | blockComment | openComment | verbatimString | openVerbatim => cases expects
  | pattern => simp [defaultCatalog] at inCatalog
  | _ => rfl

section

variable {source : List Char} {tokens : List PositionedToken} {scanned : Diagnostics}
  {parts before after : List Part} {t : PositionedToken} {text : List Char}

/-- What can be missing after a token is missing where the token ends, on its line. -/
theorem isShown_stop (whole : ArePartsOf source tokens scanned parts)
    (isSplit : parts = before ++ .token t text :: after) (expects : t.token.expectsMore = true) :
    IsShown source t.line t.stopColumn := by
  obtain ⟨-, line_eq, column_eq, length_eq, form, inCatalog, l, found, token_eq, rfl⟩ :=
    whole.stands before _ after isSplit
  rw [← token_eq] at expects
  obtain ⟨oneLine, notWhitespace⟩ := Form.spansLines_of_expectsMore inCatalog found expects
  have noFeed := Form.notMem_feed_of_recognize found oneLine
  obtain ⟨c, isFirst, notBlank⟩ := Form.exists_head_not_isBlank inCatalog found notWhitespace
  have onLine : c ∈ lastLine l.text := by
    rw [lastLine_of_notMem noFeed]
    exact List.mem_of_mem_head? isFirst
  have source_eq : source = (before.flatMap Part.text ++ l.text) ++ after.flatMap Part.text := by
    rw [← whole.text_eq, isSplit, List.flatMap_append, List.flatMap_cons, List.append_assoc]
    rfl
  refine ⟨_, _, source_eq, ?line, ?column,
    shows_of_before (mem_lastLine_append _ onLine) (isIndent_eq_false notBlank)⟩
  case line => rw [line_eq, lineAfter_append, List.count_eq_zero.mpr noFeed, Nat.add_zero]
  case column =>
    rw [PositionedToken.stopColumn, column_eq, length_eq, columnAfter_eq, columnAfter_eq,
      lastLine_append _ noFeed, List.length_append]
    omega

end

end SharpFront
