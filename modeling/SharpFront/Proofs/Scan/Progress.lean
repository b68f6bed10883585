import Mathlib.Data.List.TakeWhile
import SharpFront.Proofs.Diagnostic.Position
import SharpFront.Proofs.Form.Matching
import SharpFront.Proofs.Scan.Consultation
import SharpFront.Proofs.Scan.Parts

/-!
# The progress of a scan

Whatever the forms, a scan moves on with every step until nothing remains or a form matches without
covering text.

* `Reaches`: the scans that some number of steps lead to, and `exists_outcome`: where they end;
* `Reaches.run_eq`, `Stalls.run_eq`: what a scan runs through;
* `Segment.LiesAfter`: what a segment is, given the text before it;
* `Travelled`: what holds of a scan that has come from the start of a text, kept by each step;
* `Lexer.run_of_end`, `Lexer.run_of_stuck`: what a lexer makes of its scan.
-/

namespace SharpFront

namespace Scan

variable {tiers : Tiers} {start s t : Scan} {n : Nat} {form : Form} {l : Lexeme}

/-! ## Steps -/

/-- `n` steps lead from one scan to another. -/
inductive Reaches (tiers : Tiers) (start : Scan) : Nat → Scan → Prop where
  | start : Reaches tiers start 0 start
  | next {n : Nat} {s t : Scan} (reaches : Reaches tiers start n s) (notEnd : s.rest ≠ [])
    (moves : Moves tiers s t) : Reaches tiers start (n + 1) t

/-- Every step takes a character at least. -/
theorem Reaches.bound (h : Reaches tiers start n s) :
    n + s.rest.length ≤ start.rest.length := by
  induction h with
  | start => exact Nat.le_of_eq (Nat.zero_add _)
  | next reaches notEnd moves ih =>
    have shorter := step_shorter notEnd moves.step_eq
    omega

theorem Reaches.exists_outcome (h : Reaches tiers start n s) :
    ∃ m t, Reaches tiers start m t ∧ (t.rest = [] ∨ ∃ u l, Stalls tiers t u l) := by
  induction length : s.rest.length using Nat.strongRecOn generalizing n s with
  | ind k ih =>
    by_cases atEnd : s.rest = []
    · exact ⟨n, s, h, .inl atEnd⟩
    · rcases moves_or_stalls tiers atEnd with ⟨t, moves⟩ | stalls
      · have shorter := step_shorter atEnd moves.step_eq
        exact ih _ (length ▸ shorter) (.next h atEnd moves) rfl
      · exact ⟨n, s, h, .inr stalls⟩

/-- A scan comes to the end of its text, or to a form that matches without covering text, after no
more steps than there are characters. -/
theorem exists_outcome (tiers : Tiers) (start : Scan) :
    ∃ n ≤ start.rest.length, ∃ s, Reaches tiers start n s ∧
      (s.rest = [] ∨ ∃ t l, Stalls tiers s t l) := by
  have here : Reaches tiers start 0 start := .start
  obtain ⟨n, s, reaches, outcome⟩ := here.exists_outcome
  have bound := reaches.bound
  exact ⟨n, by omega, s, reaches, outcome⟩

theorem Moves.run_eq (h : Moves tiers s t) (notEnd : s.rest ≠ []) :
    s.run tiers = t.run tiers :=
  run_of_moved h.step_eq notEnd

theorem Stalls.run_eq (h : Stalls tiers s t l) : s.run tiers = (t, some l.token) :=
  run_of_stuck h.step_eq h.notEnd

theorem run_of_end (tiers : Tiers) (atEnd : s.rest = []) : s.run tiers = (s, none) := by
  rw [run, dif_pos atEnd]

theorem Reaches.run_eq (h : Reaches tiers start n s) : start.run tiers = s.run tiers := by
  induction h with
  | start => rfl
  | next reaches notEnd moves ih => exact ih.trans (moves.run_eq notEnd)

/-! ## What is found -/

/-- A lexeme is found where the scan stands, or behind the blanks. -/
theorem found?_eq_some (h : s.found? tiers = some (t, l)) :
    (t = s ∧ ∃ form ∈ tiers.seeBlanks, t.recognize form = some l) ∨
    t = s.skipBlanks ∧ ∃ form ∈ tiers.candidates t.rest.head?, t.recognize form = some l := by
  rw [found?_eq, Option.or_eq_some_iff] at h
  rcases h with here | ⟨-, behind⟩
  · obtain ⟨m, first, same⟩ := Option.map_eq_some_iff.mp here
    cases same
    exact .inl ⟨rfl, List.exists_of_findSome?_eq_some first⟩
  · obtain ⟨m, first, same⟩ := Option.map_eq_some_iff.mp behind
    cases same
    exact .inr ⟨rfl, List.exists_of_findSome?_eq_some first⟩

theorem skipBlanks_eq_record (h : s.rest.takeWhile Text.isBlank ≠ []) :
    s.skipBlanks = s.record (.skipped s.place (s.rest.takeWhile Text.isBlank)) := by
  simp only [skipBlanks, List.isEmpty_iff, h, if_false]

theorem rest_skipBlanks (s : Scan) : s.skipBlanks.rest = s.rest.dropWhile Text.isBlank := by
  have split : s.rest.takeWhile Text.isBlank ++ s.rest.dropWhile Text.isBlank = s.rest :=
    List.takeWhile_append_dropWhile
  by_cases noBlanks : s.rest.takeWhile Text.isBlank = []
  · rw [noBlanks, List.nil_append] at split
    rw [skipBlanks_eq_self noBlanks, split]
  · rw [skipBlanks_eq_record noBlanks, record_rest, Segment.text]
    have whole := List.prefix_iff_eq_append.mp (List.takeWhile_prefix Text.isBlank (l := s.rest))
    exact List.append_cancel_left (whole.trans split.symm)

theorem notBlank_behind {c : Char} {rest : List Char} (h : s.skipBlanks.rest = c :: rest) :
    Text.isBlank c = false := by
  have head := List.head?_dropWhile_not Text.isBlank s.rest
  rw [← rest_skipBlanks, h] at head
  exact head

theorem noBlanks_behind (s : Scan) : s.skipBlanks.rest.takeWhile Text.isBlank = [] := by
  cases next : s.skipBlanks.rest with
  | nil => rfl
  | cons c rest => exact List.takeWhile_cons_of_neg (Bool.eq_false_iff.mp (notBlank_behind next))

theorem skipBlanks_skipBlanks (s : Scan) : s.skipBlanks.skipBlanks = s.skipBlanks :=
  skipBlanks_eq_self s.noBlanks_behind

theorem skipBlanks_suffix (s : Scan) : s.skipBlanks.rest <:+ s.rest :=
  s.rest_skipBlanks ▸ List.dropWhile_suffix _

theorem Moves.suffix {tiers : Tiers} (h : Moves tiers s t) : t.rest <:+ s.rest := by
  cases h with
  | lexeme found covers =>
    rcases found?_eq_some found with ⟨rfl, -⟩ | ⟨rfl, -⟩
    · exact List.drop_suffix _ _
    · exact (List.drop_suffix _ _).trans s.skipBlanks_suffix
  | rejected noLexeme next => exact (List.drop_suffix _ _).trans s.skipBlanks_suffix
  | ended noLexeme atEnd => exact s.skipBlanks_suffix

/-- What matches without covering text is tried behind the blanks. -/
theorem Stalls.eq_skipBlanks {catalog : List Form} (h : Stalls (.build catalog) s t l) :
    t = s.skipBlanks := by
  rcases found?_eq_some h.found with ⟨-, form, isForm, found⟩ | ⟨behind, -⟩
  · have sees := (Tiers.mem_seeBlanks_iff.mp isForm).2
    rw [Form.eq_whitespace_of_seesBlanks sees] at found
    obtain ⟨p, isPattern⟩ := Form.exists_pattern_of_empty found h.empty
    cases isPattern
  · exact behind

end Scan

/-! ## Segments of a text -/

/-- The diagnostic about a character that no form knows. -/
def Segment.unexpected? : Segment → Option Diagnostic
  | .rejected start c => some ⟨.unexpectedCharacter c, .error, start.line, start.column, 1⟩
  | _ => none

/-- What a segment is, given the text before it. -/
inductive Segment.LiesAfter (front : List Char) : Segment → Prop where
  | lexeme {l : Lexeme} (covers : l.text ≠ []) (known : Scan.unexpected l.reports = []) :
    LiesAfter front (.lexeme (({} : Place).after front) l)
  | skipped {blanks : List Char} (covers : blanks ≠ [])
    (areBlank : ∀ c ∈ blanks, Text.isBlank c = true) :
    LiesAfter front (.skipped (({} : Place).after front) blanks)
  | rejected {c : Char} (notBlank : Text.isBlank c = false) :
    LiesAfter front (.rejected (({} : Place).after front) c)

namespace Segment.LiesAfter

variable {front : List Char} {segment : Segment} {d : Diagnostic}

theorem text_ne_nil (h : segment.LiesAfter front) : segment.text ≠ [] := by
  cases h with
  | lexeme covers known => exact covers
  | skipped covers areBlank => exact covers
  | rejected notBlank => exact List.cons_ne_nil _ _

theorem unexpected_reports (h : segment.LiesAfter front) :
    Scan.unexpected segment.reports = segment.unexpected?.toList := by
  cases h with
  | lexeme covers known => exact known
  | skipped covers areBlank => rfl
  | rejected notBlank => rfl

theorem position_unexpected (h : segment.LiesAfter front)
    (isUnexpected : segment.unexpected? = some d) :
    d.position = (({} : Place).after front).position := by
  cases h with
  | lexeme covers known => cases isUnexpected
  | skipped covers areBlank => cases isUnexpected
  | rejected notBlank =>
    cases isUnexpected
    rfl

end Segment.LiesAfter

namespace Scan

variable {tiers : Tiers} {source : List Char} {start s t : Scan} {n : Nat} {segment : Segment}
  {l : Lexeme}

/-- The scan has come from the start of a source to the place that it has reached, one segment after
the other. -/
structure Travelled (source : List Char) (s : Scan) : Prop where
  source_eq : source = s.seen ++ s.rest
  place_eq : s.place = ({} : Place).after s.seen
  lies : ∀ newer segment older, s.segments = newer ++ segment :: older →
    segment.LiesAfter (older.reverse.flatMap Segment.text)
  unexpected_eq : unexpected s.reports = s.segments.reverse.filterMap Segment.unexpected?
  behind : ∀ d ∈ unexpected s.reports, d.position < s.place.position
  ordered : (unexpected s.reports).Pairwise fun d e => d.position < e.position

namespace Travelled

theorem of_start (source : List Char) : Travelled source { rest := source } where
  source_eq := rfl
  place_eq := rfl
  lies newer segment older isSplit := by cases newer <;> cases isSplit
  unexpected_eq := rfl
  behind := List.forall_mem_nil _
  ordered := .nil

theorem record (h : Travelled source s) (isPrefix : segment.text <+: s.rest)
    (lies : segment.LiesAfter s.seen) : Travelled source (s.record segment) := by
  have place := place_record_of_isPrefix isPrefix
  have reports : unexpected (s.record segment).reports =
      unexpected s.reports ++ segment.unexpected?.toList := by
    rw [reports_record, unexpected_append, lies.unexpected_reports]
  have here : ∀ d ∈ segment.unexpected?.toList, d.position = s.place.position := by
    intro d isHere
    rw [h.place_eq]
    exact lies.position_unexpected (Option.mem_toList.mp isHere)
  have further := s.place.position_lt_after lies.text_ne_nil
  exact {
    source_eq := h.source_eq.trans (seen_append_rest_record isPrefix).symm
    place_eq := by rw [place, seen_record, Place.after_append, h.place_eq]
    lies := by
      intro newer other older isSplit
      cases newer with
      | nil =>
        cases isSplit
        exact lies
      | cons first newer => exact h.lies newer other older (List.cons.inj isSplit).2
    unexpected_eq := by
      rw [reports, h.unexpected_eq, Scan.record, List.reverse_cons, List.filterMap_append,
        List.filterMap_cons, List.filterMap_nil]
      cases segment.unexpected? <;> rfl
    behind := by
      rw [reports, place]
      refine List.forall_mem_append.mpr ⟨fun d isEarlier => (h.behind d isEarlier).trans further, ?_⟩
      intro d isHere
      exact here d isHere ▸ further
    ordered := by
      rw [reports, List.pairwise_append]
      refine ⟨h.ordered, ?_, fun d isEarlier e isHere => here e isHere ▸ h.behind d isEarlier⟩
      cases segment.unexpected? with
      | none => exact .nil
      | some d => exact List.pairwise_singleton _ d }

theorem skipBlanks (h : Travelled source s) : Travelled source s.skipBlanks := by
  by_cases noBlanks : s.rest.takeWhile Text.isBlank = []
  · rwa [skipBlanks_eq_self noBlanks]
  · rw [skipBlanks_eq_record noBlanks]
    refine h.record (List.takeWhile_prefix _) ?_
    rw [h.place_eq]
    exact .skipped noBlanks fun c isBlank => List.mem_takeWhile_imp isBlank

theorem found (h : Travelled source s) (found : s.found? tiers = some (t, l)) :
    Travelled source t := by
  rcases found?_eq_some found with ⟨rfl, -⟩ | ⟨rfl, -⟩
  · exact h
  · exact h.skipBlanks

theorem lexeme {form : Form} (h : Travelled source s) (found : s.recognize form = some l)
    (covers : l.text ≠ []) : Travelled source (s.record (.lexeme s.place l)) := by
  refine h.record (Form.recognize_isPrefix found) ?_
  rw [h.place_eq]
  exact .lexeme covers (unexpected_of_recognize found)

theorem moves (h : Travelled source s) (moves : Moves tiers s t) : Travelled source t := by
  cases moves with
  | lexeme found covers =>
    rcases found?_eq_some found with ⟨-, form, -, recognized⟩ | ⟨-, form, -, recognized⟩ <;>
      exact (h.found found).lexeme recognized covers
  | @rejected c rest noLexeme next =>
    refine h.skipBlanks.record (next ▸ ⟨rest, rfl⟩) ?_
    rw [h.skipBlanks.place_eq]
    exact .rejected (notBlank_behind next)
  | ended noLexeme atEnd => exact h.skipBlanks

end Travelled

theorem Reaches.travelled (h : Reaches tiers { rest := source } n s) : Travelled source s := by
  induction h with
  | start => exact .of_start source
  | next reaches notEnd moves ih => exact ih.moves moves

end Scan

/-! ## Runs of a lexer -/

namespace Lexer

variable {l : Lexer} {source : SourceText} {s : Scan}

theorem run_of_end (isSource : l.source? = some source) (hasForms : l.catalog ≠ [])
    (h : ({ rest := source.chars } : Scan).run (.build l.catalog) = (s, none)) :
    l.run =
      ({ l with
          scan := { s with segments := [] }
          diagnostics := ({} : Diagnostics).reportAll s.reports },
        .ok (s.tokens l.file)) := by
  have notEmpty : l.catalog.isEmpty = false := List.isEmpty_eq_false_iff.mpr hasForms
  simp only [run, reset, isSource, notEmpty, Option.isNone_some, Bool.false_eq_true, if_false,
    Option.map_some, Option.getD_some, h]

theorem run_of_stuck {token : Token} (isSource : l.source? = some source)
    (hasForms : l.catalog ≠ [])
    (h : ({ rest := source.chars } : Scan).run (.build l.catalog) = (s, some token)) :
    l.run =
      ({ l with scan := s, diagnostics := ({} : Diagnostics).reportAll s.reports },
        .error ⟨.zeroLengthMatch token.kindName, ⟨l.file, s.place.line, s.place.column⟩⟩) := by
  have notEmpty : l.catalog.isEmpty = false := List.isEmpty_eq_false_iff.mpr hasForms
  simp only [run, reset, isSource, notEmpty, Option.isNone_some, Bool.false_eq_true, if_false,
    Option.map_some, Option.getD_some, h]

end Lexer

end SharpFront
