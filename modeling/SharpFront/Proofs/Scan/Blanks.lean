import Mathlib.Data.List.Infix
import SharpFront.Pattern.Reader
import SharpFront.Proofs.Catalog.Registration
import SharpFront.Proofs.Form.Opening
import SharpFront.Proofs.Scan.Progress
import SharpFront.Proofs.Scan.Resume

/-!
# Blanks as tokens

A catalog without a form for blanks skips them, one with such a form in front makes tokens of them.
In all else the two scans of a text are the same, as long as no form matches without covering text.
Lines and columns have no bound here; `Checked.run_eq` is for counters of 32 bits.

* `Scan.unskipped`: a scan whose skipped blanks are tokens;
* `Moves.unskipped`: a step of the one scan is a step of the other, where no blank is ahead;
* `exists_runs`: the runs of the two scans;
* `Lexer.run_whitespace`: the tokens and diagnostics of the two lexers.
-/

namespace SharpFront

/-- Blanks that were skipped become a token. -/
def Segment.unskipped : Segment → Segment
  | .skipped start blanks => .lexeme start { token := .whitespace, text := blanks }
  | segment => segment

namespace Segment

theorem text_unskipped (segment : Segment) : segment.unskipped.text = segment.text := by
  cases segment <;> rfl

theorem reports_unskipped (segment : Segment) : segment.unskipped.reports = segment.reports := by
  cases segment <;> rfl

theorem solid?_unskipped (segment : Segment) : segment.unskipped.solid? = segment.solid? := by
  cases segment <;> rfl

end Segment

namespace Scan

/-- The scan as it would stand if the blanks that it has skipped were tokens. -/
def unskipped (s : Scan) : Scan := { s with segments := s.segments.map Segment.unskipped }

variable {s t : Scan} {segment : Segment} {form : Form} {l : Lexeme} {catalog : List Form}

theorem unskipped_record (s : Scan) (segment : Segment) :
    (s.record segment).unskipped = s.unskipped.record segment.unskipped := by
  rw [record, segment.text_unskipped.symm]
  rfl

theorem reports_unskipped (s : Scan) : s.unskipped.reports = s.reports := by
  rw [reports, unskipped, ← List.map_reverse, List.flatMap_map, reports]
  exact List.flatMap_congr fun segment _ => segment.reports_unskipped

/-- Blanks do not hide a `#`, nor do they show one. -/
theorem followsHash_unskipped (s : Scan) : s.unskipped.followsHash = s.followsHash := by
  have solid : Segment.solid? ∘ Segment.unskipped = Segment.solid? :=
    funext Segment.solid?_unskipped
  funext line
  rw [followsHash, unskipped, List.findSome?_map, solid, followsHash]

theorem recognize_unskipped (s : Scan) (form : Form) :
    s.unskipped.recognize form = s.recognize form := by
  rw [recognize, followsHash_unskipped, recognize]
  rfl

theorem firstMatch_unskipped (s : Scan) (forms : List Form) :
    s.unskipped.firstMatch forms = s.firstMatch forms := by
  have same : s.unskipped.recognize = s.recognize := funext s.recognize_unskipped
  rw [firstMatch, same, firstMatch]

/-! ## Steps -/

/-- The catalog has no form for blanks, and where it is to be tried no form matches without covering
text. -/
structure Skips (catalog : List Form) (text : List Char) : Prop where
  noWhitespace : .whitespace ∉ catalog
  covers : ∀ rest, rest <:+ text → ∀ form ∈ catalog, form.findsEmpty rest = false

theorem Skips.mono {text rest : List Char} (h : Skips catalog text) (isSuffix : rest <:+ text) :
    Skips catalog rest where
  noWhitespace := h.noWhitespace
  covers more isMore := h.covers more (isMore.trans isSuffix)

/-- The forms that a catalog without one for blanks tries are tried behind the blanks. -/
theorem found?_skipping (h : .whitespace ∉ catalog) (s : Scan) :
    s.found? (.build catalog) =
      (s.skipBlanks.firstMatch (Catalog.contenders catalog s.skipBlanks.rest.head?)).map
        (s.skipBlanks, ·) := by
  rw [found?_eq, Tiers.seeBlanks_build, Tiers.candidates_build, Catalog.sighted_of_notMem h]
  rfl

theorem found?_whitespace (h : .whitespace ∉ catalog) (s : Scan) :
    s.found? (.build (.whitespace :: catalog)) =
      ((s.recognize .whitespace).map (s, ·)).or
        ((s.skipBlanks.firstMatch (Catalog.contenders catalog s.skipBlanks.rest.head?)).map
          (s.skipBlanks, ·)) := by
  rw [found?_eq, Tiers.seeBlanks_build, Tiers.candidates_build, Catalog.sighted_whitespace h,
    Catalog.contenders_whitespace, firstMatch, List.findSome?_singleton]

theorem exists_form_of_found (h : .whitespace ∉ catalog)
    (found : s.found? (.build catalog) = some (t, l)) :
    t = s.skipBlanks ∧ ∃ form ∈ catalog, t.recognize form = some l := by
  rcases found?_eq_some found with ⟨-, form, isForm, -⟩ | ⟨behind, form, isForm, found⟩
  · rw [Tiers.seeBlanks_build, Catalog.sighted_of_notMem h] at isForm
    cases isForm
  · exact ⟨behind, form, Tiers.mem_of_mem_candidates isForm, found⟩

theorem found?_skipBlanks (h : .whitespace ∉ catalog) (s : Scan) :
    s.skipBlanks.found? (.build catalog) = s.found? (.build catalog) := by
  rw [found?_skipping h, found?_skipping h, skipBlanks_skipBlanks]

/-- A step that skips blanks is one from behind them. -/
theorem Moves.skipBlanks (noWhitespace : .whitespace ∉ catalog) (h : Moves (.build catalog) s t) :
    Moves (.build catalog) s.skipBlanks t := by
  have same := found?_skipBlanks noWhitespace s
  have twice := s.skipBlanks_skipBlanks
  cases h with
  | lexeme found covers => exact .lexeme (same.trans found) covers
  | rejected noLexeme next =>
    have rejects := Moves.rejected (same.trans noLexeme) ((congrArg Scan.rest twice).trans next)
    rwa [twice] at rejects
  | ended noLexeme atEnd =>
    have ends := Moves.ended (same.trans noLexeme) ((congrArg Scan.rest twice).trans atEnd)
    rwa [twice] at ends

/-- Behind the last blanks nothing is found that covers text. -/
theorem Moves.eq_skipBlanks (noWhitespace : .whitespace ∉ catalog) (h : Moves (.build catalog) s t)
    (atEnd : s.skipBlanks.rest = []) : t = s.skipBlanks := by
  cases h with
  | lexeme found covers =>
    obtain ⟨rfl, form, -, recognized⟩ := exists_form_of_found noWhitespace found
    have isPrefix := Form.recognize_isPrefix recognized
    rw [atEnd] at isPrefix
    exact absurd (List.prefix_nil.mp isPrefix) covers
  | rejected noLexeme next =>
    rw [atEnd] at next
    cases next
  | ended noLexeme => rfl

theorem Skips.not_stalls (h : Skips catalog s.rest) : ¬Stalls (.build catalog) s t l := by
  intro stalls
  obtain ⟨rfl, form, inCatalog, found⟩ := exists_form_of_found h.noWhitespace stalls.found
  have findsEmpty := Form.findsEmpty_of_recognize found stalls.empty
  rw [h.covers _ s.skipBlanks_suffix form inCatalog] at findsEmpty
  cases findsEmpty

/-! ## The steps of the other scan -/

/-- The blanks that one scan skips are a token of the other. -/
theorem moves_blanks (noWhitespace : .whitespace ∉ catalog)
    (someBlanks : s.rest.takeWhile Text.isBlank ≠ []) :
    Moves (.build (.whitespace :: catalog)) s.unskipped s.skipBlanks.unskipped := by
  have recognized : s.unskipped.recognize .whitespace =
      some { token := .whitespace, text := s.rest.takeWhile Text.isBlank } :=
    if_neg (mt List.isEmpty_iff.mp someBlanks)
  have found := found?_whitespace noWhitespace s.unskipped
  rw [recognized, Option.map_some, Option.some_or] at found
  rw [skipBlanks_eq_record someBlanks, unskipped_record]
  exact .lexeme found someBlanks

theorem found?_unskipped (noWhitespace : .whitespace ∉ catalog)
    (noBlanks : s.rest.takeWhile Text.isBlank = []) :
    s.unskipped.found? (.build (.whitespace :: catalog)) =
      (s.found? (.build catalog)).map fun found => (found.1.unskipped, found.2) := by
  have notRecognized : s.unskipped.recognize .whitespace = none :=
    if_pos (List.isEmpty_iff.mpr noBlanks)
  have sameBlanks : s.unskipped.skipBlanks = s.unskipped := skipBlanks_eq_self noBlanks
  rw [found?_whitespace noWhitespace, notRecognized, Option.map_none, Option.none_or, sameBlanks,
    firstMatch_unskipped, found?_skipping noWhitespace, skipBlanks_eq_self noBlanks,
    Option.map_map]
  rfl

/-- Where no blank is ahead, both scans make the same step. -/
theorem Moves.unskipped (noWhitespace : .whitespace ∉ catalog) (h : Moves (.build catalog) s t)
    (noBlanks : s.rest.takeWhile Text.isBlank = []) :
    Moves (.build (.whitespace :: catalog)) s.unskipped t.unskipped := by
  have same := found?_unskipped noWhitespace noBlanks
  have stays : s.skipBlanks = s := skipBlanks_eq_self noBlanks
  have staysUnskipped : s.unskipped.skipBlanks = s.unskipped := skipBlanks_eq_self noBlanks
  have ahead : s.unskipped.skipBlanks.rest = s.skipBlanks.rest := by
    rw [staysUnskipped, stays]
    rfl
  cases h with
  | lexeme found covers =>
    rw [found, Option.map_some] at same
    rw [unskipped_record]
    exact .lexeme same covers
  | rejected noLexeme next =>
    rw [noLexeme, Option.map_none] at same
    have rejects := Moves.rejected same (ahead.trans next)
    rw [staysUnskipped] at rejects
    rwa [stays, unskipped_record]
  | ended noLexeme atEnd =>
    rw [noLexeme, Option.map_none] at same
    have ends := Moves.ended same (ahead.trans atEnd)
    rw [staysUnskipped] at ends
    rwa [stays]

/-- What one step leads to is what one step, or one behind that over the blanks, leads to in the
other scan. -/
theorem Moves.run_unskipped (noWhitespace : .whitespace ∉ catalog)
    (h : Moves (.build catalog) s t) (notEnd : s.rest ≠ []) :
    s.unskipped.run (.build (.whitespace :: catalog)) =
      t.unskipped.run (.build (.whitespace :: catalog)) := by
  by_cases noBlanks : s.rest.takeWhile Text.isBlank = []
  · exact (h.unskipped noWhitespace noBlanks).run_eq notEnd
  · rw [(moves_blanks noWhitespace noBlanks).run_eq notEnd]
    by_cases atEnd : s.skipBlanks.rest = []
    · rw [h.eq_skipBlanks noWhitespace atEnd]
    · exact ((h.skipBlanks noWhitespace).unskipped noWhitespace s.noBlanks_behind).run_eq atEnd

/-! ## The runs -/

/-- No segment is a token of blanks. -/
def Plain (s : Scan) : Prop :=
  ∀ start l, Segment.lexeme start l ∈ s.segments → l.token.isWhitespace = false

theorem Plain.record (h : s.Plain)
    (plain : ∀ start l, segment = .lexeme start l → l.token.isWhitespace = false) :
    (s.record segment).Plain := by
  intro start l isSegment
  rcases List.mem_cons.mp isSegment with isLast | isEarlier
  · exact plain start l isLast.symm
  · exact h start l isEarlier

theorem Plain.skipBlanks (h : s.Plain) : s.skipBlanks.Plain := by
  by_cases noBlanks : s.rest.takeWhile Text.isBlank = []
  · rwa [skipBlanks_eq_self noBlanks]
  · rw [skipBlanks_eq_record noBlanks]
    exact h.record fun start l isLexeme => nomatch isLexeme

theorem Moves.plain (noWhitespace : .whitespace ∉ catalog) (h : Moves (.build catalog) s t)
    (plain : s.Plain) : t.Plain := by
  cases h with
  | lexeme found covers =>
    obtain ⟨rfl, form, inCatalog, recognized⟩ := exists_form_of_found noWhitespace found
    have other : form ≠ .whitespace := by
      rintro rfl
      exact noWhitespace inCatalog
    refine plain.skipBlanks.record fun start l isLexeme => ?_
    cases isLexeme
    exact Form.isWhitespace_of_ne other recognized
  | rejected noLexeme next => exact plain.skipBlanks.record fun start l isLexeme => nomatch isLexeme
  | ended noLexeme atEnd => exact plain.skipBlanks

theorem exists_runs (h : Skips catalog s.rest) (plain : s.Plain) :
    ∃ t : Scan, s.run (.build catalog) = (t, none) ∧
      s.unskipped.run (.build (.whitespace :: catalog)) = (t.unskipped, none) ∧ t.Plain := by
  induction length : s.rest.length using Nat.strongRecOn generalizing s with
  | ind k ih =>
    by_cases atEnd : s.rest = []
    · exact ⟨s, run_of_end _ atEnd, run_of_end _ atEnd, plain⟩
    · rcases moves_or_stalls (.build catalog) atEnd with ⟨t, moves⟩ | ⟨t, l, stalls⟩
      · have shorter := step_shorter atEnd moves.step_eq
        obtain ⟨u, run, runUnskipped, plain⟩ := ih _ (length ▸ shorter) (h.mono moves.suffix)
          (moves.plain h.noWhitespace plain) rfl
        refine ⟨u, ?_, ?_, plain⟩
        · rw [moves.run_eq atEnd, run]
        · rw [moves.run_unskipped h.noWhitespace atEnd, runUnskipped]
      · exact absurd stalls h.not_stalls

theorem tokens_unskipped (plain : s.Plain) (file : String) :
    (s.unskipped.tokens file).filter (!·.token.isWhitespace) = s.tokens file := by
  rw [tokens, unskipped, ← List.map_reverse, List.filterMap_map, List.filter_filterMap, tokens]
  refine List.filterMap_congr fun segment isSegment => ?_
  cases segment with
  | lexeme start l =>
    have notBlank := plain start l (List.mem_reverse.mp isSegment)
    exact if_pos (congrArg (!·) notBlank)
  | skipped start blanks => rfl
  | rejected start c => rfl

end Scan

/-! ## The two lexers -/

/-- **Making tokens of blanks adds these tokens and changes nothing else.** -/
theorem Lexer.run_whitespace {l : Lexer} {source : SourceText}
    (isSource : l.source? = some source) (hasForms : l.catalog ≠ [])
    (noWhitespace : .whitespace ∉ l.catalog)
    (covers : ∀ rest, rest <:+ source.chars → ∀ form ∈ l.catalog, form.findsEmpty rest = false) :
    ∃ tokens tokens', l.run.2 = .ok tokens ∧
      { l with catalog := .whitespace :: l.catalog }.run.2 = .ok tokens' ∧
      tokens'.filter (!·.token.isWhitespace) = tokens ∧
      { l with catalog := .whitespace :: l.catalog }.run.1.diagnostics = l.run.1.diagnostics := by
  have skips : Scan.Skips l.catalog source.chars := ⟨noWhitespace, covers⟩
  obtain ⟨s, run, runUnskipped, plain⟩ :=
    Scan.exists_runs (s := { rest := source.chars }) skips fun _ _ h => nomatch h
  have bare := run_of_end isSource hasForms run
  have unskipped := run_of_end (l := { l with catalog := .whitespace :: l.catalog }) isSource
    (List.cons_ne_nil _ _) runUnskipped
  rw [bare, unskipped, Scan.reports_unskipped]
  exact ⟨_, _, rfl, rfl, Scan.tokens_unskipped plain l.file, rfl⟩

/-- A directive message, a pattern that begins with a blank, a character that no form knows and
blanks at the end. -/
theorem Lexer.run_whitespace_directive :
    let pattern : NamedPattern :=
      { name := "dollar", program := (Pattern.Program.ofText? "\\s\\$").get (by decide +kernel)
        trigger := none, priority := 0 }
    let l := (ofCatalog [.operator .hash, .word, .pattern pattern]).setInput "main.cs"
      "# error  a \n b $ ; \t"
    let source : SourceText := .ofRaw "# error  a \n b $ ; \t"
    (l.source? = some source ∧ l.catalog ≠ [] ∧ .whitespace ∉ l.catalog ∧
      ∀ rest, rest <:+ source.chars → ∀ form ∈ l.catalog, form.findsEmpty rest = false) ∧
      ∃ tokens tokens', l.run.2 = .ok tokens ∧
        { l with catalog := .whitespace :: l.catalog }.run.2 = .ok tokens' ∧
        tokens'.filter (!·.token.isWhitespace) = tokens ∧
        { l with catalog := .whitespace :: l.catalog }.run.1.diagnostics = l.run.1.diagnostics := by
  intro pattern l source
  have covers : ∀ rest, rest <:+ source.chars →
      ∀ form ∈ l.catalog, form.findsEmpty rest = false := by
    simp only [← List.mem_tails]
    decide +kernel
  have noWhitespace : .whitespace ∉ l.catalog := by simp [l, ofCatalog, setInput, reset]
  have hasForms : l.catalog ≠ [] := List.cons_ne_nil _ _
  exact ⟨⟨rfl, hasForms, noWhitespace, covers⟩, run_whitespace rfl hasForms noWhitespace covers⟩

end SharpFront
