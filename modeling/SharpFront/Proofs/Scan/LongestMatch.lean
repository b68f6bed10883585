import Mathlib
import SharpFront.Proofs.Catalog.Consulted
import SharpFront.Proofs.Form.Opening
import SharpFront.Proofs.Scan.Parts

/-!
# The longest match

Where several forms of the language match, the order in which they are consulted picks the one that
covers the most, although no step compares lengths.
Lines and columns have no bound here; `Checked.tokenize_eq_ok` is for counters of 32 bits.

* `order_outranks`: in the order of the tiers every form outranks the forms after it;
* `Takes.longest`, `Takes.noMatch`, `Takes.of_recognize`: what one step takes;
* `run_eq_guided`, `tokenize_guided`: a scan along forms that prevail over all others;
* `tokenize_longest`: every token of a text is the longest match at its place.
-/

namespace SharpFront

/-! ## The forms of the language -/

namespace Form

/-- The forms are the same, and no patterns. -/
def isSame : Form → Form → Bool
  | whitespace, whitespace | lineComment, lineComment | blockComment, blockComment | word, word
  | number, number | char, char | string, string | verbatimString, verbatimString => true
  | operator o, operator p => o == p
  | brace b, brace c => b == c
  | _, _ => false

variable {form other : Form}

theorem isSame_iff (inCatalog : form ∈ defaultCatalog) :
    form.isSame other = true ↔ form = other := by
  cases form with
  | pattern p => simp [defaultCatalog] at inCatalog
  | operator o | brace b => cases other <;> simp [isSame]
  | _ => cases other <;> simp [isSame]

theorem isSame_eq_false_iff (inCatalog : form ∈ defaultCatalog) :
    form.isSame other = false ↔ form ≠ other := by
  rw [← Bool.not_eq_true, isSame_iff inCatalog]

instance : DecidablePred (· ∈ defaultCatalog) := fun form =>
  decidable_of_iff (defaultCatalog.any (·.isSame form) = true) <| by
    rw [List.any_eq_true]
    constructor
    · rintro ⟨other, inCatalog, same⟩
      exact (isSame_iff inCatalog).mp same ▸ inCatalog
    · exact fun inCatalog => ⟨form, inCatalog, (isSame_iff inCatalog).mpr rfl⟩

end Form

namespace Scan

variable {source : List Char} {s : Scan} {l : Lexeme} {form other : Form}

/-! ## One step -/

/-- The openings and lengths decide between all the forms of the language. -/
theorem order_outranks : tiers.order.Pairwise fun f g => f.outranks g = true := by decide_cbv

/-- A form that matches is consulted. -/
theorem mem_consulted_of_recognize (inCatalog : form ∈ defaultCatalog)
    (h : s.recognize form = some l) : form ∈ tiers.consulted s.rest.head? := by
  refine Tiers.mem_consulted inCatalog ?_
  intro c waits
  exact Form.head?_of_trigger inCatalog h waits

/-- The first form that matches covers more than any other that does. -/
theorem length_lt_of_firstMatch (h : s.firstMatch (tiers.consulted s.rest.head?) = some l) :
    ∃ form ∈ defaultCatalog, s.recognize form = some l ∧
      ∀ other ∈ defaultCatalog, other ≠ form → ∀ m, s.recognize other = some m →
        m.text.length < l.text.length := by
  obtain ⟨before, form, after, isSplit, found, notFound⟩ := List.findSome?_eq_some_iff.mp h
  have outranks := order_outranks.sublist (tiers.consulted_sublist s.rest.head?)
  rw [isSplit] at outranks
  obtain ⟨-, outranks, -⟩ := List.pairwise_append.mp outranks
  have inCatalog : form ∈ defaultCatalog := by
    have isConsulted : form ∈ tiers.consulted s.rest.head? := isSplit ▸ List.mem_append_cons_self
    rcases List.mem_append.mp isConsulted with sees | isCandidate
    · exact (Tiers.mem_seeBlanks_iff.mp sees).1
    · exact Tiers.mem_of_mem_candidates isCandidate
  refine ⟨form, inCatalog, found, ?_⟩
  intro other isOther different m matched
  have isConsulted := mem_consulted_of_recognize isOther matched
  rw [isSplit] at isConsulted
  rcases List.mem_append.mp isConsulted with isEarlier | isLater
  · rw [notFound other isEarlier] at matched
    cases matched
  · rcases List.mem_cons.mp isLater with same | isLater
    · exact absurd same different
    · exact Form.length_lt_of_outranks ((List.pairwise_cons.mp outranks).1 other isLater) found
        matched

theorem Takes.firstMatch_eq {segment : Segment} (h : Takes s segment) :
    s.firstMatch (tiers.consulted s.rest.head?) =
      match segment with
      | .lexeme _ l => some l
      | _ => none := by
  unfold firstMatch Tiers.consulted
  rw [List.findSome?_append]
  cases h with
  | blank found =>
    rw [firstMatch] at found
    rw [found]
    rfl
  | lexeme noBlank found =>
    rw [firstMatch] at noBlank found
    rw [noBlank, found]
    rfl
  | rejected noBlank noLexeme next =>
    rw [firstMatch] at noBlank noLexeme
    rw [noBlank, noLexeme]
    rfl

/-- A lexeme that is taken is the longest that any form finds. -/
theorem Takes.longest {start : Place} (h : Takes s (.lexeme start l)) :
    ∃ form ∈ defaultCatalog, s.recognize form = some l ∧
      ∀ other ∈ defaultCatalog, other ≠ form → ∀ m, s.recognize other = some m →
        m.text.length < l.text.length :=
  length_lt_of_firstMatch h.firstMatch_eq

/-- A character is rejected where no form matches. -/
theorem Takes.noMatch {start : Place} {c : Char} (h : Takes s (.rejected start c)) :
    ∀ form ∈ defaultCatalog, s.recognize form = none := by
  intro form inCatalog
  cases matched : s.recognize form with
  | none => rfl
  | some l =>
    have none := List.findSome?_eq_none_iff.mp h.firstMatch_eq form
      (mem_consulted_of_recognize inCatalog matched)
    rw [matched] at none
    cases none

/-- The form outranks every other form of the language. -/
def Prevails (form : Form) : Prop :=
  ∀ other ∈ defaultCatalog, other ≠ form → form.outranks other = true

instance : DecidablePred Prevails := fun form =>
  decidable_of_iff
    (∀ other ∈ defaultCatalog, other.isSame form = false → form.outranks other = true)
    (forall₂_congr fun other isOther => by
      rw [← Form.isSame_eq_false_iff isOther])

/-- A form that prevails is taken wherever it matches. -/
theorem Takes.of_recognize (inCatalog : form ∈ defaultCatalog) (prevails : Prevails form)
    (h : s.recognize form = some l) : Takes s (.lexeme s.place l) := by
  have notEnd : s.rest ≠ [] := by
    intro atEnd
    have isPrefix := Form.recognize_isPrefix h
    rw [atEnd, List.prefix_nil] at isPrefix
    exact Form.recognize_ne_nil inCatalog h isPrefix
  obtain ⟨segment, takes⟩ := exists_takes notEnd
  have start_eq := takes.start_eq
  cases segment with
  | lexeme start m =>
    cases start_eq
    obtain ⟨other, isOther, matched, longest⟩ := takes.longest
    by_cases same : other = form
    · rw [same, h] at matched
      cases matched
      exact takes
    · have longer := longest form inCatalog (Ne.symm same) l h
      have shorter := Form.length_lt_of_outranks (prevails other isOther same) h matched
      omega
  | skipped start blanks => cases takes
  | rejected start c =>
    have none := takes.noMatch form inCatalog
    rw [h] at none
    cases none

/-- The scan after taking what the given forms find, one after the other. -/
def guided (s : Scan) : List Form → Scan
  | [] => s
  | form :: forms =>
    match s.recognize form with
    | some l => (s.record (.lexeme s.place l)).guided forms
    | none => s

/-- Forms that prevail and lead to the end are the ones that a scan takes. -/
theorem run_eq_guided {forms : List Form}
    (prevail : ∀ form ∈ forms, form ∈ defaultCatalog ∧ Prevails form)
    (atEnd : (s.guided forms).rest = []) : s.run tiers = (s.guided forms, none) := by
  induction forms generalizing s with
  | nil =>
    have isEnd : s.rest = [] := atEnd
    rw [run, dif_pos isEnd]
    rfl
  | cons form forms ih =>
    obtain ⟨⟨inCatalog, prevails⟩, later⟩ := List.forall_mem_cons.mp prevail
    rw [guided] at atEnd ⊢
    cases found : s.recognize form with
    | none =>
      rw [found] at atEnd
      have isEnd : s.rest = [] := atEnd
      rw [run, dif_pos isEnd]
    | some l =>
      rw [found] at atEnd
      have takes := Takes.of_recognize inCatalog prevails found
      rw [run_of_takes takes takes.rest_ne_nil]
      exact ih later atEnd

end Scan

/-! ## The whole text -/

/-- The tokens and reports of a text along forms that prevail. -/
theorem tokenize_guided (file raw : String) (forms : List Form) (tokens : List PositionedToken)
    {reports : List Report}
    (prevail : ∀ form ∈ forms, form ∈ defaultCatalog ∧ Scan.Prevails form)
    (atEnd : (({ rest := normalize raw.toList } : Scan).guided forms).rest = [])
    (isTokens : (({ rest := normalize raw.toList } : Scan).guided forms).tokens file = tokens)
    (isReports : (({ rest := normalize raw.toList } : Scan).guided forms).reports = reports) :
    tokenize raw file = .ok (tokens, ({} : Diagnostics).reportAll reports) := by
  have tokenized := tokenize_eq file (Scan.run_eq_guided prevail atEnd)
  rwa [isTokens, isReports] at tokenized

namespace Part

/-- What a form finds after some parts of a text. -/
def found (source : List Char) (before : List Part) (form : Form) : Option Lexeme :=
  let seen := before.flatMap text
  form.recognize (endWithHash (before.filterMap token?))
    ⟨byteSize seen, lineAfter seen, columnAfter seen⟩ (source.drop seen.length)

/-- A token is what some form of the language finds, and all the other forms find less, if they find
anything. A character is unexpected where no form finds anything. -/
def IsLongestMatch (source : List Char) (before : List Part) : Part → Prop
  | token t text =>
    ∃ earlier form later, defaultCatalog = earlier ++ form :: later ∧
      (∃ l, found source before form = some l ∧ l.token = t.token ∧ l.text = text) ∧
      ∀ other ∈ earlier ++ later, ∀ m, found source before other = some m →
        m.text.length < text.length
  | unexpected _ _ => ∀ form ∈ defaultCatalog, found source before form = none

end Part

namespace Scan

variable {source : List Char} {file : String} {s : Scan} {segment : Segment}

theorem Divides.found_eq {parts : List Part} (divides : Divides source file s parts)
    (h : Reached source s) : Part.found source parts = s.recognize := by
  have place := h.place_eq
  rw [Place.after_eq] at place
  have rest : source.drop s.seen.length = s.rest := by rw [h.source_eq, List.drop_left]
  funext form
  simp only [Part.found, divides.text_eq, divides.tokens_eq, rest, ← followsHash_eq, recognize,
    place]

theorem nodup_defaultCatalog : defaultCatalog.Nodup := by
  have names : (defaultCatalog.map Form.name).Nodup := by decide_cbv
  exact names.of_map

theorem Divides.isLongestMatch {parts : List Part} {part : Part}
    (divides : Divides source file s parts) (h : Reached source s) (takes : Takes s segment)
    (isPart : segment.part? file = some part) : part.IsLongestMatch source parts := by
  have found := divides.found_eq h
  cases segment with
  | lexeme start l =>
    obtain ⟨form, inCatalog, finds, longest⟩ := takes.longest
    cases isPart
    obtain ⟨earlier, later, isSplit⟩ := List.append_of_mem inCatalog
    refine ⟨earlier, form, later, isSplit, ⟨l, by rw [found]; exact finds, rfl, rfl⟩, ?_⟩
    intro other isOther m matched
    -- no form is listed twice
    have distinct := List.perm_middle.nodup_iff.mp (isSplit ▸ nodup_defaultCatalog)
    have different : other ≠ form := by
      rintro rfl
      exact (List.nodup_cons.mp distinct).1 isOther
    have isListed : other ∈ defaultCatalog :=
      isSplit ▸ List.perm_middle.mem_iff.mpr (List.mem_cons_of_mem form isOther)
    rw [found] at matched
    exact longest other isListed different m matched
  | skipped start blanks => cases isPart
  | rejected start c =>
    cases isPart
    intro form inCatalog
    rw [found]
    exact takes.noMatch form inCatalog

theorem Reached.longest (file : String) (h : Reached source s) :
    ∀ before part after, s.parts file = before ++ part :: after →
      part.IsLongestMatch source before :=
  h.forall_parts fun _ _ _ h takes isPart => (h.divides file).isLongestMatch h takes isPart

end Scan

/-- **Every token is the longest match at its place.** A text is divided into tokens and unexpected
characters. Where a token stands, the form that found it covers more than every other form of the
language that matches there; a character is unexpected exactly where no form matches. -/
theorem tokenize_longest (raw file : String) :
    ∃ tokens diagnostics parts, tokenize raw file = .ok (tokens, diagnostics) ∧
      ArePartsOf (normalize raw.toList) tokens diagnostics parts ∧
      ∀ before part after, parts = before ++ part :: after →
        part.IsLongestMatch (normalize raw.toList) before := by
  obtain ⟨s, reached, atEnd, tokenized⟩ := exists_scan raw file
  exact ⟨_, _, s.parts file, tokenized, (reached.divides file).arePartsOf reached atEnd,
    reached.longest file⟩

end SharpFront
