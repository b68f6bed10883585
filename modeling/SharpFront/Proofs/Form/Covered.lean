import SharpFront.Catalog
import SharpFront.Proofs.Form.Recognized

/-!
# What forms cover

A lexeme covers the start of the text it was found in, and some of it unless it comes from a pattern:

* `recognize_isPrefix`, `exists_pattern_of_empty`, `recognize_ne_nil`: what the forms cover;
* `recognize_reports`: what the forms report.
-/

namespace SharpFront.Form

theorem append_isPrefix {xs ys text : List Char} (h : xs <+: text)
    (h' : ys <+: text.drop xs.length) : xs ++ ys <+: text := by
  rw [← List.prefix_iff_eq_append.mp h]
  exact (List.prefix_append_right_inj xs).mpr h'

/-! ## Blanks and comments -/

theorem commentBody_isPrefix (text : List Char) :
    (commentBody text).1 ++ (if (commentBody text).2 then ['*', '/'] else []) <+: text := by
  fun_induction commentBody text with
  | case1 => exact List.nil_prefix
  | case2 rest => exact ⟨rest, rfl⟩
  | case3 c rest notEnd body closed read ih =>
    rw [read] at ih
    exact List.cons_prefix_cons.mpr ⟨rfl, ih⟩

/-! ## Words -/

theorem wordText_isPrefix (text : List Char) : wordText text <+: text := by
  unfold wordText
  split
  · exact List.nil_prefix
  · split
    · exact List.cons_prefix_cons.mpr ⟨rfl, List.takeWhile_prefix _⟩
    · exact List.nil_prefix

theorem directiveMessage_isPrefix {d : Directive} {place : Place} {word text : List Char}
    (h : word <+: text) : (directiveMessage d place word (text.drop word.length)).text <+: text := by
  simp only [directiveMessage, List.append_assoc]
  refine append_isPrefix h ?_
  exact append_isPrefix (List.takeWhile_prefix _) (List.takeWhile_prefix _)

/-! ## Numbers -/

theorem Numeral.marked?_text {base : Nat} {mark : Char} {isDigit : Char → Bool}
    {rest : List Char} {n : Numeral} (h : marked? base mark isDigit rest = some n) :
    n.text <+: '0' :: mark :: rest ∧ n.text ≠ [] := by
  simp only [marked?] at h
  split at h
  · cases h
  · cases h
    refine ⟨?_, List.cons_ne_nil _ _⟩
    exact (List.prefix_append_right_inj ['0', mark]).mpr (List.takeWhile_prefix _)

theorem Numeral.decimal?_text {text : List Char} {n : Numeral} (h : decimal? text = some n) :
    n.text <+: text ∧ n.text ≠ [] := by
  have isPrefix : text.takeWhile Char.isDigit <+: text := List.takeWhile_prefix _
  simp only [decimal?] at h
  split at h
  · cases h
  · next notEmpty =>
    have hasDigit : text.takeWhile Char.isDigit ≠ [] := fun h => notEmpty (List.isEmpty_iff.mpr h)
    split at h
    · next rest afterDigits =>
      split at h
      · cases h
        exact ⟨isPrefix, hasDigit⟩
      · cases h
        refine ⟨append_isPrefix isPrefix ?_, ?_⟩
        · rw [afterDigits]
          exact List.cons_prefix_cons.mpr ⟨rfl, List.takeWhile_prefix _⟩
        · simp only [Numeral.text, ne_eq, List.append_eq_nil_iff, hasDigit, false_and,
            not_false_eq_true]
    · cases h
      exact ⟨isPrefix, hasDigit⟩

/-- A numeral is one of base 16 or base 2 behind its mark, or else a decimal one. -/
theorem Numeral.ofText?_eq_some {text : List Char} {n : Numeral} (h : ofText? text = some n) :
    (∃ mark rest, (mark = 'x' ∨ mark = 'X') ∧ text = '0' :: mark :: rest ∧
      marked? 16 mark isHexDigit rest = some n) ∨
    (∃ mark rest, (mark = 'b' ∨ mark = 'B') ∧ text = '0' :: mark :: rest ∧
      marked? 2 mark isBinaryDigit rest = some n) ∨
    decimal? text = some n := by
  simp only [ofText?] at h
  split at h
  · next special found =>
    cases h
    split at found
    · next mark rest =>
      split at found
      · next isMark => exact .inl ⟨mark, rest, by simpa using isMark, rfl, found⟩
      · split at found
        · next isMark => exact .inr (.inl ⟨mark, rest, by simpa using isMark, rfl, found⟩)
        · cases found
    · cases found
  · exact .inr (.inr h)

theorem Numeral.ofText?_text {text : List Char} {n : Numeral} (h : ofText? text = some n) :
    n.text <+: text ∧ n.text ≠ [] := by
  rcases Numeral.ofText?_eq_some h with ⟨_, _, _, rfl, found⟩ | ⟨_, _, _, rfl, found⟩ | found
  · exact marked?_text found
  · exact marked?_text found
  · exact decimal?_text found

/-! ## Quoted literals -/

theorem QuotedPiece.codeEscape_isPrefix (rest : List Char) :
    (codeEscape rest).text <+: '\\' :: 'u' :: rest := by
  have digits : (rest.take 4).takeWhile isHexDigit <+: rest :=
    (List.takeWhile_prefix _).trans (List.take_prefix 4 rest)
  exact (List.prefix_append_right_inj ['\\', 'u']).mpr digits

theorem QuotedPiece.first_isPrefix (c : Char) (rest : List Char) :
    (first c rest).text <+: c :: rest := by
  unfold first
  split
  · next isEscape =>
    subst isEscape
    cases rest with
    | nil => exact List.prefix_rfl
    | cons d rest =>
      simp only [escape]
      split
      · exact ⟨d :: rest, rfl⟩
      · split
        · next isCode =>
          rw [isCode]
          exact codeEscape_isPrefix rest
        · split <;> exact ⟨rest, rfl⟩
  · exact ⟨rest, rfl⟩

theorem quotedPieces_isPrefix (quote : Char) (text : List Char) :
    (quotedPieces quote text).1.flatMap (·.text) ++
      (if (quotedPieces quote text).2 then [quote] else []) <+: text := by
  fun_induction quotedPieces quote text with
  | case1 => exact List.nil_prefix
  | case2 rest => exact List.nil_prefix
  | case3 rest notFeed => exact ⟨rest, rfl⟩
  | case4 c rest notFeed notQuote piece pieces closed read ih =>
    rw [read] at ih
    simp only [List.flatMap_cons, List.append_assoc]
    exact append_isPrefix (QuotedPiece.first_isPrefix c rest) ih

theorem quotedLexeme_isPrefix {quote : Char} {token : String → Token} {place : Place}
    {rest : List Char} {pieces : List QuotedPiece} {closed : Bool}
    (arePieces : quotedPieces quote rest = (pieces, closed)) :
    (quotedLexeme quote token place pieces closed).text <+: quote :: rest := by
  have inside := quotedPieces_isPrefix quote rest
  rw [arePieces] at inside
  exact List.cons_prefix_cons.mpr ⟨rfl, inside⟩

/-! ## Verbatim strings -/

theorem verbatimBody_isPrefix (text : List Char) :
    doubleQuotes (verbatimBody text).1 ++ (if (verbatimBody text).2 then ['"'] else []) <+:
      text := by
  fun_induction verbatimBody text with
  | case1 => exact List.nil_prefix
  | case2 rest value closed read ih =>
    rw [read] at ih
    exact (List.prefix_append_right_inj ['"', '"']).mpr ih
  | case3 rest notDouble => exact ⟨rest, rfl⟩
  | case4 c rest notDouble notQuote value closed read ih =>
    rw [read] at ih
    simp only [doubleQuotes, List.flatMap_cons, if_neg notQuote]
    exact List.cons_prefix_cons.mpr ⟨rfl, ih⟩

/-! ## All forms -/

variable {form : Form} {followsHash : Nat → Bool} {place : Place} {text : List Char} {l : Lexeme}

theorem recognize_isPrefix (h : form.recognize followsHash place text = some l) :
    l.text <+: text := by
  cases recognized_of_recognize h with
  | whitespace => exact List.takeWhile_prefix _
  | lineComment => exact (List.prefix_append_right_inj ['/', '/']).mpr (List.takeWhile_prefix _)
  | @blockComment rest _ isBody | @openComment rest _ isBody =>
    have body := commentBody_isPrefix rest
    rw [isBody] at body
    exact (List.prefix_append_right_inj ['/', '*']).mpr (by simpa using body)
  | message => exact directiveMessage_isPrefix (wordText_isPrefix text)
  | directive | keyword | identifier => exact wordText_isPrefix text
  | operator isPrefix => exact isPrefix
  | brace => exact ⟨_, rfl⟩
  | number isNumeral => exact (Numeral.ofText?_text isNumeral).1
  | char arePieces | string arePieces => exact quotedLexeme_isPrefix arePieces
  | @verbatimString rest _ isBody | @openVerbatim rest _ isBody =>
    have body := verbatimBody_isPrefix rest
    rw [isBody] at body
    exact (List.prefix_append_right_inj ['@', '"']).mpr (by simpa [doubleQuotes] using body)
  | pattern => exact List.take_prefix _ _

/-- Only a pattern can match without covering text. -/
theorem exists_pattern_of_empty (h : form.recognize followsHash place text = some l)
    (isEmpty : l.text = []) : ∃ p, form = .pattern p := by
  cases recognized_of_recognize h with
  | pattern => exact ⟨_, rfl⟩
  | whitespace notEmpty => exact absurd isEmpty notEmpty
  | message isWord =>
    exact absurd (List.append_eq_nil_iff.mp (List.append_eq_nil_iff.mp isEmpty).1).1 isWord
  | directive isWord | keyword isWord | identifier isWord => exact absurd isEmpty isWord
  | operator => exact absurd isEmpty (Operator.chars_ne_nil _)
  | number isNumeral => exact absurd isEmpty (Numeral.ofText?_text isNumeral).2
  | _ => cases isEmpty

/-- The forms of the language find no empty lexemes. -/
theorem recognize_ne_nil (inCatalog : form ∈ defaultCatalog)
    (h : form.recognize followsHash place text = some l) : l.text ≠ [] := by
  intro isEmpty
  obtain ⟨p, rfl⟩ := exists_pattern_of_empty h isEmpty
  simp [defaultCatalog] at inCatalog

/-! ## Reports -/

theorem escapeReports_kind {place : Place} {pieces : List QuotedPiece} {r : Report}
    (h : r ∈ escapeReports place pieces) : r.kind = .unrecognizedEscape := by
  induction pieces generalizing place with
  | nil => cases h
  | cons p pieces ih =>
    simp only [escapeReports] at h
    split at h
    · exact ih h
    · rcases List.mem_cons.mp h with rfl | later
      · rfl
      · exact ih later

theorem quotedLexeme_reports {quote : Char} {token : String → Token} {pieces : List QuotedPiece}
    {closed : Bool} {r : Report}
    (reported : r ∈ (quotedLexeme quote token place pieces closed).reports) :
    r.kind = .unrecognizedEscape ∨ r.kind = .newlineInConstant := by
  rcases List.mem_append.mp reported with escape | ending
  · exact .inl (escapeReports_kind escape)
  · cases closed with
    | true => cases ending
    | false =>
      rw [List.mem_singleton.mp ending]
      exact .inr rfl

/-- A form reports only what is wrong with the literal or comment that it finds. -/
theorem recognize_reports (h : form.recognize followsHash place text = some l) {r : Report}
    (reported : r ∈ l.reports) :
    r.kind = .unrecognizedEscape ∨ r.kind = .newlineInConstant ∨
      r.kind = .unterminatedString ∨ r.kind = .unterminatedComment := by
  cases recognized_of_recognize h with
  | openComment =>
    rw [List.mem_singleton.mp reported]
    exact .inr (.inr (.inr rfl))
  | char | string => exact (quotedLexeme_reports reported).imp_right .inl
  | openVerbatim =>
    rw [List.mem_singleton.mp reported]
    exact .inr (.inr (.inl rfl))
  | _ => cases reported

end SharpFront.Form
