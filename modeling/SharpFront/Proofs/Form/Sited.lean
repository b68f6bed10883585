import SharpFront.Proofs.Diagnostic.Position
import SharpFront.Proofs.Form.Opening
import SharpFront.Proofs.Source

/-!
# Where lexemes are reported

What is wrong with a lexeme is reported at one of its characters, and a missing quote where the line
ends; the reports come from left to right.

* `Sited`: where a report about a lexeme can stand;
* `quotedLexeme_sited`, `recognize_sited`: the reports of a literal and of every form, in their order.
-/

namespace SharpFront

/-- Nothing more stands on the line. -/
def EndsLine (text : List Char) : Prop := ∀ c ∈ text.head?, c = '\n'

/-- A report about the first `n` characters of a text that starts at `place`: it stands at one of
them, which is no blank, or right after them at the end of a line that is not blank. -/
inductive Sited (place : Place) (text : List Char) (n : Nat) (r : Report) : Prop where
  | character {front rest : List Char} {c : Char} (split : text = front ++ c :: rest)
    (inside : front.length < n) (notBlank : Text.isBlank c = false)
    (stands : r.position = (place.after front).position)
  | lineEnd {front rest : List Char} (split : text = front ++ rest) (whole : front.length = n)
    (ends : EndsLine rest) (shown : ∃ c ∈ lastLine front, Text.isBlank c = false)
    (stands : r.position = (place.after front).position)

namespace Form

variable {form : Form} {followsHash : Nat → Bool} {place : Place} {text : List Char} {l : Lexeme}

/-! ## Escapes -/

theorem QuotedPiece.exists_of_unknown {c : Char} {rest : List Char}
    (h : (QuotedPiece.first c rest).known = false) :
    ∃ tail, (QuotedPiece.first c rest).text = '\\' :: tail := by
  unfold QuotedPiece.first at h ⊢
  split
  · cases rest with
    | nil => exact ⟨_, rfl⟩
    | cons d rest =>
      simp only [QuotedPiece.escape, QuotedPiece.codeEscape]
      split
      · exact ⟨_, rfl⟩
      · split
        · exact ⟨_, rfl⟩
        · split <;> exact ⟨_, rfl⟩
  · next notEscape =>
    rw [if_neg notEscape] at h
    cases h

theorem QuotedPiece.notMem_first_text {c : Char} (h : c ≠ '\n') (rest : List Char) :
    '\n' ∉ (QuotedPiece.first c rest).text := by
  unfold QuotedPiece.first
  split
  · cases rest with
    | nil => simp [QuotedPiece.escape]
    | cons d rest =>
      simp only [QuotedPiece.escape, QuotedPiece.codeEscape]
      split
      · simp
      · next notFeed =>
        split
        · have notDigit : Form.isHexDigit '\n' = false := by decide
          have noFeed : '\n' ∉ (rest.take 4).takeWhile isHexDigit := by
            intro isDigit
            have := List.all_eq_true.mp List.all_takeWhile _ isDigit
            rw [notDigit] at this
            cases this
          simp [noFeed]
        · split <;> simp [Ne.symm notFeed]
  · simp [Ne.symm h]

/-- A literal stays on its line. -/
theorem notMem_quotedPieces (quote : Char) (text : List Char) :
    '\n' ∉ (quotedPieces quote text).1.flatMap (·.text) := by
  fun_induction quotedPieces quote text with
  | case1 | case2 | case3 => exact List.not_mem_nil
  | case4 c rest notFeed notQuote piece pieces closed read ih =>
    rw [read] at ih
    rw [List.flatMap_cons, List.mem_append]
    exact not_or.mpr ⟨QuotedPiece.notMem_first_text notFeed rest, ih⟩

/-- The pieces of a literal cover text, and unknown ones begin with the backslash. -/
theorem mem_quotedPieces {quote : Char} {p : QuotedPiece}
    (h : p ∈ (quotedPieces quote text).1) :
    p.text ≠ [] ∧ (p.known = false → ∃ tail, p.text = '\\' :: tail) := by
  fun_induction quotedPieces quote text with
  | case1 => cases h
  | case2 rest => cases h
  | case3 rest notFeed => cases h
  | case4 c rest notFeed notQuote piece pieces closed read ih =>
    rw [read] at ih
    rcases List.mem_cons.mp h with rfl | isLater
    · exact ⟨QuotedPiece.first_text_ne_nil c rest, QuotedPiece.exists_of_unknown⟩
    · exact ih isLater

/-- A literal that is not closed goes on to the end of its line. -/
theorem quotedPieces_ends {quote : Char} (isOpen : (quotedPieces quote text).2 = false) :
    EndsLine (text.drop ((quotedPieces quote text).1.flatMap (·.text)).length) := by
  fun_induction quotedPieces quote text with
  | case1 =>
    intro c isFirst
    cases isFirst
  | case2 rest =>
    intro c isFirst
    exact (Option.some.inj isFirst).symm
  | case3 rest notFeed => cases isOpen
  | case4 c rest notFeed notQuote piece pieces closed read ih =>
    rw [read] at ih
    have later := ih isOpen
    rw [List.drop_drop] at later
    rw [List.flatMap_cons, List.length_append]
    exact later

theorem exists_of_mem_escapeReports {pieces : List QuotedPiece} {r : Report}
    (h : r ∈ escapeReports place pieces) :
    ∃ before p after, pieces = before ++ p :: after ∧ p.known = false ∧
      r.position = (place.after (before.flatMap (·.text))).position := by
  induction pieces generalizing place with
  | nil => cases h
  | cons p pieces ih =>
    have later (isLater : r ∈ escapeReports (place.after p.text) pieces) :
        ∃ before q after, p :: pieces = before ++ q :: after ∧ q.known = false ∧
          r.position = (place.after (before.flatMap (·.text))).position := by
      obtain ⟨before, q, after, rfl, unknown, stands⟩ := ih isLater
      refine ⟨p :: before, q, after, rfl, unknown, ?_⟩
      rw [List.flatMap_cons, Place.after_append]
      exact stands
    simp only [escapeReports] at h
    split at h
    · exact later h
    · next unknown =>
      rcases List.mem_cons.mp h with rfl | isLater
      · exact ⟨[], p, pieces, rfl, Bool.eq_false_iff.mpr unknown, rfl⟩
      · exact later isLater

theorem escapeReports_ordered {pieces : List QuotedPiece} (h : ∀ p ∈ pieces, p.text ≠ []) :
    (escapeReports place pieces).Pairwise fun a b => a.position < b.position := by
  induction pieces generalizing place with
  | nil => exact .nil
  | cons p pieces ih =>
    obtain ⟨notEmpty, others⟩ := List.forall_mem_cons.mp h
    have later : (escapeReports (place.after p.text) pieces).Pairwise
        fun a b => a.position < b.position := ih others
    simp only [escapeReports]
    split
    · exact later
    · refine List.pairwise_cons.mpr ⟨?_, later⟩
      intro r isLater
      obtain ⟨before, -, -, -, -, stands⟩ := exists_of_mem_escapeReports isLater
      rw [stands]
      exact (place.position_lt_after notEmpty).trans_le (Place.position_le_after _ _)

/-! ## Quoted literals -/

theorem isBlank_backslash : Text.isBlank '\\' = false := by decide +kernel

section

variable {quote : Char} {token : String → Token} {rest : List Char} {pieces : List QuotedPiece}
  {closed : Bool}

theorem quotedContent_isPrefix (arePieces : quotedPieces quote rest = (pieces, closed)) :
    pieces.flatMap (·.text) <+: rest := by
  have inside := quotedPieces_isPrefix quote rest
  rw [arePieces] at inside
  exact (List.prefix_append _ _).trans inside

/-- An unknown escape stands inside the contents of a literal. -/
theorem exists_of_mem_quotedReports (arePieces : quotedPieces quote rest = (pieces, closed))
    {r : Report} (h : r ∈ escapeReports place pieces) :
    ∃ front tail, pieces.flatMap (·.text) = front ++ '\\' :: tail ∧
      r.position = (place.after front).position := by
  obtain ⟨before, p, after, rfl, unknown, stands⟩ := exists_of_mem_escapeReports h
  have isPiece : p ∈ (quotedPieces quote rest).1 := arePieces ▸ List.mem_append_cons_self
  obtain ⟨tail, isText⟩ := (mem_quotedPieces isPiece).2 unknown
  refine ⟨before.flatMap (·.text), tail ++ after.flatMap (·.text), ?_, stands⟩
  rw [List.flatMap_append, List.flatMap_cons, isText]
  rfl

theorem sited_escape (arePieces : quotedPieces quote rest = (pieces, closed)) {n : Nat}
    (longer : (pieces.flatMap (·.text)).length < n) :
    ∀ r ∈ escapeReports (place.step quote) pieces, Sited place (quote :: rest) n r := by
  intro r isReport
  obtain ⟨front, tail, isContent, stands⟩ := exists_of_mem_quotedReports arePieces isReport
  obtain ⟨more, whole⟩ := quotedContent_isPrefix arePieces
  rw [isContent] at longer whole
  rw [List.length_append, List.length_cons] at longer
  have split : quote :: rest = (quote :: front) ++ '\\' :: (tail ++ more) := by
    rw [← whole, List.append_assoc]
    rfl
  refine .character split ?_ isBlank_backslash stands
  rw [List.length_cons]
  omega

theorem position_lt_of_escape (arePieces : quotedPieces quote rest = (pieces, closed)) :
    ∀ r ∈ escapeReports (place.step quote) pieces,
      r.position < (place.after (quote :: pieces.flatMap (·.text))).position := by
  intro r isReport
  obtain ⟨front, tail, isContent, stands⟩ := exists_of_mem_quotedReports arePieces isReport
  have further := ((place.step quote).after front).position_lt_after (List.cons_ne_nil '\\' tail)
  rw [← Place.after_append, ← isContent, ← stands] at further
  exact further

/-- A missing quote is reported where the line ends. -/
theorem sited_missingQuote (arePieces : quotedPieces quote rest = (pieces, false))
    (notBlank : Text.isBlank quote = false) {r : Report}
    (stands : r.position = (place.after (quote :: pieces.flatMap (·.text))).position) :
    Sited place (quote :: rest) (quote :: pieces.flatMap (·.text)).length r := by
  have isOpen : (quotedPieces quote rest).2 = false := by rw [arePieces]
  have ends := quotedPieces_ends isOpen
  have sameLine := notMem_quotedPieces quote rest
  obtain ⟨more, whole⟩ := quotedContent_isPrefix arePieces
  rw [arePieces] at ends sameLine
  rw [← whole, List.drop_left] at ends
  have notFeed : '\n' ≠ quote := by
    rintro rfl
    exact absurd notBlank (by decide +kernel)
  have onLine : quote ∈ lastLine (quote :: pieces.flatMap (·.text)) := by
    rw [lastLine_of_notMem (List.not_mem_cons_of_ne_of_not_mem notFeed sameLine)]
    exact List.mem_cons_self
  exact .lineEnd (congrArg (quote :: ·) whole.symm) rfl ends ⟨quote, onLine, notBlank⟩ stands

theorem quotedLexeme_sited (arePieces : quotedPieces quote rest = (pieces, closed))
    (notBlank : Text.isBlank quote = false) :
    let l := quotedLexeme quote token place pieces closed
    (∀ r ∈ l.reports, Sited place (quote :: rest) l.text.length r) ∧
      l.reports.Pairwise fun a b => a.position < b.position := by
  intro l
  have ordered : (escapeReports (place.step quote) pieces).Pairwise
      fun a b => a.position < b.position := by
    refine escapeReports_ordered fun p isPiece => ?_
    have isFirst : p ∈ (quotedPieces quote rest).1 := arePieces ▸ isPiece
    exact (mem_quotedPieces isFirst).1
  cases closed with
  | true =>
    have reports : l.reports = escapeReports (place.step quote) pieces := List.append_nil _
    rw [reports]
    refine ⟨sited_escape arePieces ?_, ordered⟩
    simp only [l, quotedLexeme, if_true, List.length_append, List.length_cons]
    omega
  | false =>
    have text : l.text = quote :: pieces.flatMap (·.text) := List.append_nil _
    rw [text]
    refine ⟨List.forall_mem_append.mpr ⟨sited_escape arePieces (Nat.lt_succ_self _), ?_⟩,
      List.pairwise_append.mpr ⟨ordered, List.pairwise_singleton _ _, ?_⟩⟩
    · exact List.forall_mem_singleton.mpr (sited_missingQuote arePieces notBlank rfl)
    · intro a isEscape b isEnd
      rw [List.mem_singleton.mp isEnd]
      exact position_lt_of_escape arePieces a isEscape

end

/-! ## All forms -/

/-- One report where the lexeme begins. -/
theorem sited_opener {c : Char} {rest : List Char} (notBlank : Text.isBlank c = false)
    (kind : DiagnosticKind) {n : Nat} (positive : 0 < n) (length : Nat) :
    Sited place (c :: rest) n ⟨kind, place.line, place.column, length⟩ :=
  .character (List.nil_append _).symm positive notBlank rfl

theorem recognize_sited (h : form.recognize followsHash place text = some l) :
    (∀ r ∈ l.reports, Sited place text l.text.length r) ∧
      l.reports.Pairwise fun a b => a.position < b.position := by
  cases recognized_of_recognize h with
  | openComment | openVerbatim =>
    exact ⟨List.forall_mem_singleton.mpr (sited_opener (by decide +kernel) _ (by simp) _),
      List.pairwise_singleton _ _⟩
  | char arePieces | string arePieces => exact quotedLexeme_sited arePieces (by decide +kernel)
  | _ => exact ⟨List.forall_mem_nil _, .nil⟩

end Form

end SharpFront
