import SharpFront.Pattern.Reader
import SharpFront.Proofs.Scan.Progress

/-!
# What a run makes of a source text

A run of a lexer ends, whatever its forms, and accounts for every character of its source text.
Lines and columns have no bound here; `Checked.run_eq` is for counters of 32 bits.

* `Accounts`: tokens cover stretches of a text, and the characters in between are blank or reported;
* `Travelled.accounts`: what a scan that has come to the end of a text accounts for;
* `Lexer.run_ends`: how the run of a lexer ends.
-/

namespace SharpFront

/-- The token covers the characters of a text from one index up to another. -/
structure PositionedToken.Covers (source : List Char) (t : PositionedToken) (stretch : Nat × Nat) :
    Prop where
  notEmpty : stretch.1 < stretch.2
  inside : stretch.2 ≤ source.length
  line_eq : t.line = lineAfter (source.take stretch.1)
  column_eq : t.column = columnAfter (source.take stretch.1)
  length_eq : t.length = stretch.2 - stretch.1

/-- The index lies in none of the stretches. -/
def Outside (stretches : List (Nat × Nat)) (i : Nat) : Prop :=
  ∀ stretch ∈ stretches, i < stretch.1 ∨ stretch.2 ≤ i

/-- The diagnostic about a character that no form knows, behind some text. -/
def unexpectedAfter (before : List Char) (c : Char) : Diagnostic :=
  ⟨.unexpectedCharacter c, .error, lineAfter before, columnAfter before, 1⟩

/-- The diagnostic is about an unexpected character behind some text. -/
def Diagnostic.isUnexpectedAfter (before : List Char) (d : Diagnostic) : Bool :=
  d.kind.isUnexpectedCharacter && (d.line == lineAfter before && d.column == columnAfter before)

/-- Every character of a text is covered by a token, or blank, or reported once. -/
structure Accounts (source : List Char) (tokens : List PositionedToken) (diagnostics : Diagnostics)
    (stretches : List (Nat × Nat)) : Prop where
  covers : List.Forall₂ (PositionedToken.Covers source) tokens stretches
  apart : stretches.Pairwise fun a b => a.2 ≤ b.1
  outside : ∀ before c after, source = before ++ c :: after → Outside stretches before.length →
    Text.isBlank c = true ∨
      diagnostics.toList.filter (·.isUnexpectedAfter before) = [unexpectedAfter before c]
  unexpected : ∀ d ∈ diagnostics.toList, d.kind.isUnexpectedCharacter = true →
    ∃ before c after, source = before ++ c :: after ∧ Outside stretches before.length ∧
      Text.isBlank c = false ∧ d = unexpectedAfter before c

/-! ## Stretches of segments -/

namespace Segment

/-- The stretch of a token whose segment starts at an index. -/
def stretch? (n : Nat) : Segment → Option (Nat × Nat)
  | lexeme _ l => some (n, n + l.text.length)
  | _ => none

/-- The stretches of the tokens among segments that start at an index. -/
def stretches (n : Nat) : List Segment → List (Nat × Nat)
  | [] => []
  | segment :: segments =>
    (segment.stretch? n).toList ++ stretches (n + segment.text.length) segments

variable {n : Nat} {segment : Segment} {xs : List Segment} {stretch : Nat × Nat}

theorem bounds_of_stretch? (h : segment.stretch? n = some stretch) :
    n ≤ stretch.1 ∧ stretch.2 = n + segment.text.length := by
  cases segment with
  | lexeme start l =>
    cases h
    exact ⟨Nat.le_refl _, rfl⟩
  | skipped start blanks => cases h
  | rejected start c => cases h

theorem bounds_of_mem_stretches (h : stretch ∈ stretches n xs) :
    n ≤ stretch.1 ∧ stretch.2 ≤ n + (xs.flatMap text).length := by
  induction xs generalizing n with
  | nil => cases h
  | cons segment xs ih =>
    rw [List.flatMap_cons, List.length_append]
    rcases List.mem_append.mp h with here | later
    · obtain ⟨first, last⟩ := bounds_of_stretch? (Option.mem_toList.mp here)
      exact ⟨first, by omega⟩
    · obtain ⟨first, last⟩ := ih later
      exact ⟨by omega, by omega⟩

theorem stretches_append (n : Nat) (xs ys : List Segment) :
    stretches n (xs ++ ys) = stretches n xs ++ stretches (n + (xs.flatMap text).length) ys := by
  induction xs generalizing n with
  | nil => rfl
  | cons segment xs ih =>
    rw [List.cons_append, stretches, ih, stretches, List.flatMap_cons, List.length_append,
      List.append_assoc, Nat.add_assoc]

theorem pairwise_stretches (n : Nat) (xs : List Segment) :
    (stretches n xs).Pairwise fun a b => a.2 ≤ b.1 := by
  induction xs generalizing n with
  | nil => exact .nil
  | cons segment xs ih =>
    refine List.pairwise_append.mpr ⟨?_, ih _, ?_⟩
    · cases segment.stretch? n with
      | none => exact .nil
      | some stretch => exact List.pairwise_singleton _ stretch
    · intro a here b later
      rw [(bounds_of_stretch? (Option.mem_toList.mp here)).2]
      exact (bounds_of_mem_stretches later).1

/-- Every character of a text stands in one of its segments. -/
theorem exists_of_flatMap_text_eq {before after : List Char} {c : Char}
    (h : xs.flatMap text = before ++ c :: after) :
    ∃ ys segment zs left right, xs = ys ++ segment :: zs ∧ segment.text = left ++ c :: right ∧
      before = ys.flatMap text ++ left := by
  induction xs generalizing before with
  | nil => exact absurd h.symm (List.append_ne_nil_of_right_ne_nil _ (List.cons_ne_nil _ _))
  | cons segment xs ih =>
    rw [List.flatMap_cons] at h
    rcases List.append_eq_append_iff.mp h with ⟨rest, rfl, isRest⟩ | ⟨right, isText, isRest⟩
    · obtain ⟨ys, other, zs, left, right, rfl, isText, rfl⟩ := ih isRest
      exact ⟨segment :: ys, other, zs, left, right, rfl, isText, by simp⟩
    · cases right with
      | nil =>
        obtain ⟨ys, other, zs, left, right, rfl, isText', same⟩ := @ih [] isRest.symm
        refine ⟨segment :: ys, other, zs, left, right, rfl, isText', ?_⟩
        rw [List.flatMap_cons, List.append_assoc, ← same, isText, List.append_nil, List.append_nil]
      | cons d right =>
        cases isRest
        exact ⟨[], segment, xs, before, right, rfl, isText, rfl⟩

theorem unexpected?_rejected (front : List Char) (c : Char) :
    (rejected (({} : Place).after front) c).unexpected? = some (unexpectedAfter front c) := by
  rw [Place.after_eq]
  rfl

end Segment

/-! ## The end of a scan -/

/-- Of diagnostics that go strictly forward one only stands at its position. -/
theorem filter_position_eq {ds : List Diagnostic} {d : Diagnostic}
    (ordered : ds.Pairwise fun d e => d.position < e.position) (h : d ∈ ds) :
    ds.filter (fun e => e.line == d.line && e.column == d.column) = [d] := by
  have elsewhere {e : Diagnostic} (different : e.position ≠ d.position) :
      ¬(e.line == d.line && e.column == d.column) = true := by
    rw [Bool.and_eq_true, beq_iff_eq, beq_iff_eq]
    rintro ⟨line, column⟩
    exact different (congrArg₂ (fun line column => (toLex (line, column) : Position)) line column)
  obtain ⟨before, after, rfl⟩ := List.append_of_mem h
  obtain ⟨-, later, earlier⟩ := List.pairwise_append.mp ordered
  have noneBefore : before.filter (fun e => e.line == d.line && e.column == d.column) = [] :=
    List.filter_eq_nil_iff.mpr fun e isBefore =>
      elsewhere (earlier e isBefore d List.mem_cons_self).ne
  have noneAfter : after.filter (fun e => e.line == d.line && e.column == d.column) = [] :=
    List.filter_eq_nil_iff.mpr fun e isAfter =>
      elsewhere ((List.pairwise_cons.mp later).1 e isAfter).ne'
  rw [List.filter_append, List.filter_cons_of_pos (by simp), noneBefore, noneAfter]
  rfl

namespace Scan

variable {source : List Char} {s : Scan}

theorem filter_reportAll (rs : List Report) :
    (({} : Diagnostics).reportAll rs).toList.filter (·.kind.isUnexpectedCharacter) =
      unexpected rs := by
  rw [Diagnostics.reportAll_toList]
  rfl

namespace Travelled

theorem liesAfter (h : Travelled source s) {ys zs : List Segment} {segment : Segment}
    (isSplit : s.segments.reverse = ys ++ segment :: zs) :
    segment.LiesAfter (ys.flatMap Segment.text) := by
  have newestFirst : s.segments = zs.reverse ++ segment :: ys.reverse := by
    rw [← List.reverse_reverse s.segments, isSplit, List.reverse_append, List.reverse_cons,
      List.append_assoc]
    rfl
  have lies := h.lies zs.reverse segment ys.reverse newestFirst
  rwa [List.reverse_reverse] at lies

theorem text_eq (h : Travelled source s) (atEnd : s.rest = []) :
    s.segments.reverse.flatMap Segment.text = source := by
  have source_eq := h.source_eq
  rw [atEnd, List.append_nil] at source_eq
  exact source_eq.symm

/-- The tokens behind some of the segments cover their stretches. -/
theorem covers (h : Travelled source s) (atEnd : s.rest = []) (file : String)
    {ys zs : List Segment} (isSplit : s.segments.reverse = ys ++ zs) :
    List.Forall₂ (PositionedToken.Covers source) (zs.filterMap (·.token? file))
      (Segment.stretches (ys.flatMap Segment.text).length zs) := by
  induction zs generalizing ys with
  | nil => exact .nil
  | cons segment zs ih =>
    have further : s.segments.reverse = (ys ++ [segment]) ++ zs := by
      rw [isSplit, List.append_assoc]
      rfl
    have later := ih further
    rw [List.flatMap_append, List.flatMap_singleton, List.length_append] at later
    have source_eq := h.text_eq atEnd
    rw [isSplit, List.flatMap_append, List.flatMap_cons] at source_eq
    cases h.liesAfter isSplit with
    | @lexeme l covers known =>
      refine .cons ?_ later
      have seen : source.take (ys.flatMap Segment.text).length = ys.flatMap Segment.text := by
        rw [← source_eq, List.take_left]
      have place := Place.after_eq (ys.flatMap Segment.text)
      exact {
        notEmpty := Nat.lt_add_of_pos_right (List.length_pos_iff.mpr covers)
        inside := by
          rw [← source_eq, List.length_append, List.length_append]
          exact Nat.add_le_add_left (Nat.le_add_right _ _) _
        line_eq := by rw [seen, place]
        column_eq := by rw [seen, place]
        length_eq := (Nat.add_sub_cancel_left _ _).symm }
    | skipped covers areBlank => exact later
    | rejected notBlank => exact later

/-- A character outside of the tokens is blank or reported. -/
theorem blank_or_reported (h : Travelled source s) (atEnd : s.rest = []) {before after : List Char}
    {c : Char} (isSource : source = before ++ c :: after)
    (outside : Outside (Segment.stretches 0 s.segments.reverse) before.length) :
    Text.isBlank c = true ∨ unexpectedAfter before c ∈ unexpected s.reports := by
  obtain ⟨ys, segment, zs, left, right, isSplit, isText, rfl⟩ :=
    Segment.exists_of_flatMap_text_eq ((h.text_eq atEnd).trans isSource)
  cases h.liesAfter isSplit with
  | @lexeme l covers known =>
    -- The character would stand in the stretch of the token.
    rw [isSplit, Segment.stretches_append, Nat.zero_add] at outside
    have here := outside _ (List.mem_append_right _ List.mem_cons_self)
    have inside := congrArg List.length isText
    simp only [Segment.text, List.length_append, List.length_cons] at here inside
    omega
  | @skipped blanks covers areBlank =>
    have isBlanks : blanks = left ++ c :: right := isText
    refine .inl (areBlank c ?_)
    rw [isBlanks]
    exact List.mem_append_right _ List.mem_cons_self
  | @rejected d notBlank =>
    right
    obtain ⟨rfl, rest⟩ : left = [] ∧ [d] = c :: right := by
      cases left with
      | nil => exact ⟨rfl, isText⟩
      | cons e left =>
        have tooLong := congrArg List.length isText
        simp [Segment.text] at tooLong
    cases rest
    rw [List.append_nil, h.unexpected_eq, isSplit]
    exact List.mem_filterMap.mpr
      ⟨_, List.mem_append_right _ List.mem_cons_self, Segment.unexpected?_rejected _ c⟩

/-- What is reported is outside of the tokens, and no blank. -/
theorem exists_of_reported (h : Travelled source s) (atEnd : s.rest = []) {d : Diagnostic}
    (isReported : d ∈ unexpected s.reports) :
    ∃ before c after, source = before ++ c :: after ∧
      Outside (Segment.stretches 0 s.segments.reverse) before.length ∧ Text.isBlank c = false ∧
      d = unexpectedAfter before c := by
  rw [h.unexpected_eq] at isReported
  obtain ⟨segment, isSegment, reported⟩ := List.mem_filterMap.mp isReported
  obtain ⟨ys, zs, isSplit⟩ := List.append_of_mem isSegment
  cases h.liesAfter isSplit with
  | lexeme covers known => cases reported
  | skipped covers areBlank => cases reported
  | @rejected c notBlank =>
    rw [Segment.unexpected?_rejected] at reported
    refine ⟨ys.flatMap Segment.text, c, zs.flatMap Segment.text, ?_, ?_, notBlank,
      (Option.some.inj reported).symm⟩
    · rw [← h.text_eq atEnd, isSplit, List.flatMap_append, List.flatMap_cons]
      rfl
    · intro stretch isStretch
      rw [isSplit, Segment.stretches_append, Nat.zero_add] at isStretch
      rcases List.mem_append.mp isStretch with earlier | later
      · have bounds := Segment.bounds_of_mem_stretches earlier
        right
        omega
      · have bounds := Segment.bounds_of_mem_stretches (n := _ + 1) later
        left
        omega

/-- A scan that has come to the end accounts for all characters. -/
theorem accounts (h : Travelled source s) (atEnd : s.rest = []) (file : String) :
    Accounts source (s.tokens file) (({} : Diagnostics).reportAll s.reports)
      (Segment.stretches 0 s.segments.reverse) where
  covers := h.covers atEnd file (List.nil_append _).symm
  apart := Segment.pairwise_stretches 0 _
  outside := by
    intro before c after isSource outside
    refine (h.blank_or_reported atEnd isSource outside).imp_right fun isReported => ?_
    have once := filter_position_eq h.ordered isReported
    rw [← filter_reportAll, List.filter_filter] at once
    rw [← once]
    exact List.filter_congr fun e _ => Bool.and_comm _ _
  unexpected := by
    intro d isDiagnostic isUnexpected
    refine h.exists_of_reported atEnd ?_
    rw [← filter_reportAll]
    exact List.mem_filter.mpr ⟨isDiagnostic, isUnexpected⟩

end Travelled

theorem Stalls.place_eq {tiers : Tiers} {t : Scan} {m : Lexeme} (h : Stalls tiers s t m)
    (travelled : Travelled source s) :
    source = t.seen ++ t.rest ∧
      t.place = ⟨byteSize t.seen, lineAfter t.seen, columnAfter t.seen⟩ := by
  have there := travelled.found h.found
  exact ⟨there.source_eq, there.place_eq.trans (Place.after_eq _)⟩

end Scan

/-! ## The run of a lexer -/

namespace Lexer

open Scan

variable {l : Lexer} {source : SourceText}

/-- The failure of a lexer at the place behind a text. -/
def zeroLengthAt (l : Lexer) (front : List Char) (m : Lexeme) : Failure :=
  ⟨.zeroLengthMatch m.token.kindName, ⟨l.file, lineAfter front, columnAfter front⟩⟩

theorem run_of_stalls (isSource : l.source? = some source) (hasForms : l.catalog ≠ []) {n : Nat}
    {s t : Scan} {m : Lexeme} (reaches : Reaches (.build l.catalog) { rest := source.chars } n s)
    (stalls : Stalls (.build l.catalog) s t m) :
    source.chars = s.skipBlanks.seen ++ s.skipBlanks.rest ∧
      l.run.2 = .error (l.zeroLengthAt s.skipBlanks.seen m) := by
  obtain ⟨source_eq, place_eq⟩ := stalls.place_eq reaches.travelled
  have run := run_of_stuck isSource hasForms (reaches.run_eq.trans stalls.run_eq)
  rw [stalls.eq_skipBlanks] at source_eq place_eq run
  refine ⟨source_eq, ?_⟩
  rw [run, place_eq]
  rfl

/-- **Every run ends.** It fails where the first form that matches covers no text, with the place
behind the blanks there. Otherwise the tokens cover stretches of the text, one after the other, and
every other character is blank or reported once. -/
theorem run_ends (isSource : l.source? = some source) (hasForms : l.catalog ≠ []) :
    (∃ n ≤ source.chars.length, ∃ s, Reaches (.build l.catalog) { rest := source.chars } n s ∧
      (s.rest = [] ∨ ∃ t m, Stalls (.build l.catalog) s t m)) ∧
    (∀ f, l.run.2 = .error f ↔
      ∃ n s m front, Reaches (.build l.catalog) { rest := source.chars } n s ∧
        Stalls (.build l.catalog) s s.skipBlanks m ∧ source.chars = front ++ s.skipBlanks.rest ∧
        f = l.zeroLengthAt front m) ∧
    ∀ tokens, l.run.2 = .ok tokens →
      ∃ stretches, Accounts source.chars tokens l.run.1.diagnostics stretches := by
  obtain ⟨n, bound, s, reaches, outcome⟩ :=
    exists_outcome (.build l.catalog) { rest := source.chars }
  have finished (atEnd : s.rest = []) :=
    run_of_end isSource hasForms (reaches.run_eq.trans (Scan.run_of_end _ atEnd))
  refine ⟨⟨n, bound, s, reaches, outcome⟩, fun f => ⟨?fails, ?stalls⟩, ?accounts⟩
  case fails =>
    intro failed
    rcases outcome with atEnd | ⟨t, m, stalls⟩
    · rw [finished atEnd] at failed
      cases failed
    · obtain ⟨source_eq, run⟩ := run_of_stalls isSource hasForms reaches stalls
      rw [run] at failed
      exact ⟨n, s, m, _, reaches, stalls.eq_skipBlanks ▸ stalls, source_eq,
        (Except.error.inj failed).symm⟩
  case stalls =>
    rintro ⟨k, t, m, front, reaches, stalls, isFront, rfl⟩
    obtain ⟨source_eq, run⟩ := run_of_stalls isSource hasForms reaches stalls
    rw [run, List.append_cancel_right (source_eq.symm.trans isFront)]
  case accounts =>
    intro tokens succeeded
    rcases outcome with atEnd | ⟨t, m, stalls⟩
    · rw [finished atEnd] at succeeded ⊢
      cases succeeded
      exact ⟨_, reaches.travelled.accounts atEnd l.file⟩
    · rw [(run_of_stalls isSource hasForms reaches stalls).2] at succeeded
      cases succeeded

/-- A pattern that can match nothing, behind a word and blanks. -/
theorem run_ends_empty_pattern :
    let pattern : NamedPattern :=
      { name := "dollars", program := (Pattern.Program.ofText? "\\$*").get (by decide +kernel)
        trigger := none, priority := 0 }
    let l := (ofCatalog [.word, .pattern pattern]).setInput "main.cs" "ab $ \n"
    let source : SourceText := .ofRaw "ab $ \n"
    (l.source? = some source ∧ l.catalog ≠ []) ∧
      (∃ n ≤ source.chars.length, ∃ s, Reaches (.build l.catalog) { rest := source.chars } n s ∧
        (s.rest = [] ∨ ∃ t m, Stalls (.build l.catalog) s t m)) ∧
      (∀ f, l.run.2 = .error f ↔
        ∃ n s m front, Reaches (.build l.catalog) { rest := source.chars } n s ∧
          Stalls (.build l.catalog) s s.skipBlanks m ∧ source.chars = front ++ s.skipBlanks.rest ∧
          f = l.zeroLengthAt front m) ∧
      ∀ tokens, l.run.2 = .ok tokens →
        ∃ stretches, Accounts source.chars tokens l.run.1.diagnostics stretches :=
  ⟨⟨rfl, List.cons_ne_nil _ _⟩, run_ends rfl (List.cons_ne_nil _ _)⟩

end Lexer

end SharpFront
