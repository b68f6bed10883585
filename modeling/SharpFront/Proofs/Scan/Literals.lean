import SharpFront.Proofs.Form.Spelling
import SharpFront.Proofs.Form.Verbatim
import SharpFront.Proofs.Scan.LongestMatch
import SharpFront.Proofs.Scan.Path

/-!
# Texts that are literals

A literal that stands alone is one token with the value that was written, and so is a verbatim
string at the start of a text. What follows a verbatim string matters only if it is a quote.

* `OpensWith`: the first token of a text and the text that it covers;
* `tokenize_spelled`: a literal alone, whatever way its characters are spelled;
* `tokenize_verbatim`: verbatim strings with their values, read and written.
-/

namespace SharpFront

/-! ## The first token -/

/-- The first token covers the text, with which the source text begins, and nothing is reported
before the end of it. -/
def OpensWith (raw file : String) (first : PositionedToken) (text : List Char) : Prop :=
  ∃ later diagnostics parts, tokenize raw file = .ok (first :: later, diagnostics) ∧
    ArePartsOf (normalize raw.toList) (first :: later) diagnostics (.token first text :: parts) ∧
    ∀ d ∈ diagnostics.toList, (({} : Place).after text).position ≤ d.position

theorem OpensWith.unique {raw file : String} {first first' : PositionedToken}
    {text text' : List Char} (h : OpensWith raw file first text)
    (h' : OpensWith raw file first' text') : first = first' := by
  obtain ⟨later, diagnostics, parts, tokenized, -⟩ := h
  obtain ⟨later', diagnostics', parts', tokenized', -⟩ := h'
  rw [tokenized] at tokenized'
  exact (List.cons.inj (Prod.mk.inj (Except.ok.inj tokenized')).1).1

/-- The token that a lexeme at the start of a text becomes. -/
def Lexeme.opener (l : Lexeme) (file : String) : PositionedToken :=
  { token := l.token, file, line := 1, column := 1, length := l.text.length }

namespace Scan

variable {source : List Char} {raw : String} {l : Lexeme}

/-- The lexeme of the first step is the first token. -/
theorem Takes.opensWith (takes : Takes { rest := source } (.lexeme {} l)) (quiet : l.reports = [])
    (isSource : normalize raw.toList = source) (file : String) :
    OpensWith raw file (l.opener file) l.text := by
  obtain ⟨xs, later, atEnd⟩ := exists_path (({ rest := source } : Scan).record (.lexeme {} l))
  have path : Path { rest := source } (.lexeme {} l :: xs) := .cons takes later
  refine ⟨_, _, xs.filterMap (·.part? file), path.tokenize_eq atEnd isSource file, ?_, ?_⟩
  · rw [isSource]
    exact path.arePartsOf atEnd file
  · intro d isDiagnostic
    rw [Diagnostics.reportAll_toList] at isDiagnostic
    obtain ⟨r, isReport, resolved⟩ := List.mem_filterMap.mp isDiagnostic
    obtain ⟨severity, -, rfl⟩ := Option.map_eq_some_iff.mp resolved
    obtain ⟨segment, isSegment, isReport⟩ := List.mem_flatMap.mp isReport
    rcases List.mem_cons.mp isSegment with rfl | isLater
    · rw [Segment.reports, quiet] at isReport
      cases isReport
    · have behind := later.position_le_of_mem_reports segment isLater r isReport
      rwa [takes.place_record] at behind

end Scan

/-! ## Literals on one line -/

theorem Quote.form_prevails (quote : Quote) :
    quote.form ∈ defaultCatalog ∧ Scan.Prevails quote.form := by
  cases quote <;> decide

/-- **A literal alone reads as its text**, whatever way its characters are spelled: it is one token
with the text as its value, and nothing is reported. -/
theorem tokenize_spelled (quote : Quote) (file value : String) {words : List (List Char)}
    (h : List.Forall₂ (Form.Spelling quote) value.toList words) :
    tokenize (String.ofList (quote.enclose words.flatten)) file =
      .ok ([{ token := quote.token value, file, line := 1, column := 1
              length := (quote.enclose words.flatten).length }], {}) := by
  let text := quote.enclose words.flatten
  let l : Lexeme := { token := quote.token value, text }
  have found : ({ rest := text } : Scan).recognize quote.form = some l := by
    have found := Form.recognize_of_spellings h ({ rest := text } : Scan).followsHash {} []
    rwa [String.ofList_toList, List.append_nil] at found
  have isSource : normalize (String.ofList text).toList = text := by
    rw [String.toList_ofList]
    exact normalize_of_plain (Form.plain_of_spellings h)
  obtain ⟨inCatalog, prevails⟩ := quote.form_prevails
  have path : Scan.Path { rest := text } [.lexeme {} l] :=
    .single (.of_recognize inCatalog prevails found)
  have atEnd : (({ rest := text } : Scan).recordAll [.lexeme {} l]).rest = [] :=
    List.drop_length
  exact path.tokenize_eq atEnd isSource file

/-- Between two quotes, each character written in some way: an escape in front of a digit, codes with
digits in both cases, a quote and a backslash that end nothing, and a character as itself. -/
def mixedWords : List (List Char) :=
  [['\\', '0'], ['1'], ['\\', 'u', '0', '0', 'E', 'a'], ['\\', 'u', '0', '0', '2', '2'], ['\\', '\\'],
    ['𝔸']]

theorem spelling_mixedWords :
    List.Forall₂ (Form.Spelling .double) "\x001ê\"\\𝔸".toList mixedWords := by
  have letter : Form.Spelling .double 'ê' ['\\', 'u', '0', '0', 'E', 'a'] := by
    have digits : List.Forall₂ Form.IsHexDigitOf [0, 0, 14, 10] ['0', '0', 'E', 'a'] :=
      .cons (.inl rfl) (.cons (.inl rfl) (.cons (.inr rfl) (.cons (.inl rfl) .nil)))
    exact .code rfl digits rfl
  have quote : Form.Spelling .double '"' ['\\', 'u', '0', '0', '2', '2'] := by
    have digits : List.Forall₂ Form.IsHexDigitOf [0, 0, 2, 2] ['0', '0', '2', '2'] :=
      .cons (.inl rfl) (.cons (.inl rfl) (.cons (.inl rfl) (.cons (.inl rfl) .nil)))
    exact .code rfl digits rfl
  exact .cons (.escape (by decide)) (.cons (.itself (by decide)) (.cons letter (.cons quote
    (.cons (.escape (by decide)) (.cons (.itself (by decide)) .nil)))))

theorem tokenize_mixedWords :
    List.Forall₂ (Form.Spelling .double) "\x001ê\"\\𝔸".toList mixedWords ∧
      tokenize "\"\\01\\u00Ea\\u0022\\\\𝔸\"" "main.cs" =
        .ok ([{ token := .string "\x001ê\"\\𝔸", file := "main.cs", line := 1, column := 1
                length := 20 }], {}) := by
  have source : String.ofList (Quote.double.enclose mixedWords.flatten) =
      "\"\\01\\u00Ea\\u0022\\\\𝔸\"" := rfl
  have tokenized := tokenize_spelled .double "main.cs" _ spelling_mixedWords
  rw [source] at tokenized
  exact ⟨spelling_mixedWords, tokenized⟩

/-! ## Verbatim strings -/

open Form (verbatimText)

theorem verbatimString_prevails :
    Form.verbatimString ∈ defaultCatalog ∧ Scan.Prevails .verbatimString := by decide

/-- The token of a verbatim string at the start of a text. -/
def verbatimToken (file value : String) : PositionedToken :=
  { token := .verbatimString value, file, line := 1, column := 1
    length := (verbatimText value.toList).length }

theorem opensWith_verbatimToken {raw value : String} {rest : List Char}
    (isSource : normalize raw.toList = verbatimText value.toList ++ rest)
    (alone : rest.head? ≠ some '"') (file : String) :
    OpensWith raw file (verbatimToken file value) (verbatimText value.toList) := by
  let source := verbatimText value.toList ++ rest
  have found : ({ rest := source } : Scan).recognize .verbatimString =
      some { token := .verbatimString value, text := verbatimText value.toList } := by
    have found := Form.recognize_verbatimText value.toList alone
      ({ rest := source } : Scan).followsHash {}
    rwa [String.ofList_toList] at found
  obtain ⟨inCatalog, prevails⟩ := verbatimString_prevails
  have takes := Scan.Takes.of_recognize inCatalog prevails found
  exact takes.opensWith rfl isSource file

/-- A string without an end is reported where the token begins. -/
def Diagnostics.tellUnterminated (diagnostics : Diagnostics) (t : PositionedToken) : Prop :=
  ∃ d ∈ diagnostics.toList, d.kind = .unterminatedString ∧ d.line = t.line ∧ d.column = t.column

namespace Scan

variable {source : List Char} {xs : List Segment}

theorem Path.text_of_verbatimString (path : Path { rest := source } xs) {file value : String}
    {t : PositionedToken} {text : List Char}
    (isPart : .token t text ∈ xs.filterMap (·.part? file))
    (isVerbatim : t.token = .verbatimString value)
    (notTold : ¬(({} : Diagnostics).reportAll (xs.flatMap Segment.reports)).tellUnterminated t) :
    text = verbatimText value.toList := by
  obtain ⟨segment, isSegment, becomes⟩ := List.mem_filterMap.mp isPart
  obtain ⟨before, after, rfl⟩ := List.append_of_mem isSegment
  have takes := path.takes
  have start_eq := takes.start_eq
  cases segment with
  | lexeme start l =>
    cases becomes
    obtain ⟨form, -, found⟩ := takes.exists_form
    rcases Form.text_of_verbatimString found isVerbatim with isText | reports
    · exact isText
    · let told : Report := ⟨.unterminatedString, start.line, start.column, 2⟩
      have isReport : told ∈ (before ++ .lexeme start l :: after).flatMap Segment.reports := by
        refine List.mem_flatMap.mpr ⟨_, isSegment, ?_⟩
        rw [Segment.reports, reports, ← start_eq]
        exact List.mem_singleton_self told
      have kept := ({} : Diagnostics).mem_reportAll_of_isError isReport rfl
      exact absurd ⟨_, kept, rfl, rfl, rfl⟩ notTold
  | skipped start blanks => cases becomes
  | rejected start c => cases becomes

end Scan

/-- **Verbatim strings and their values.** What is written as the text of a value is read as that
value, whatever follows it but a quote. Every verbatim string that is not told to be without an end
covers the text of its value. -/
theorem tokenize_verbatim (file : String) :
    (∀ value more : String, (∀ c ∈ value.toList, c ≠ '\r' ∧ c ≠ '\x00') →
      (normalize more.toList).head? ≠ some '"' →
      OpensWith (String.ofList (verbatimText value.toList) ++ more) file (verbatimToken file value)
        (verbatimText value.toList)) ∧
    ∀ raw : String, ∃ tokens diagnostics parts, tokenize raw file = .ok (tokens, diagnostics) ∧
      ArePartsOf (normalize raw.toList) tokens diagnostics parts ∧
      ∀ t text value, .token t text ∈ parts → t.token = .verbatimString value →
        ¬diagnostics.tellUnterminated t → text = verbatimText value.toList := by
  refine ⟨?read, ?written⟩
  case read =>
    intro value more plain alone
    refine opensWith_verbatimToken ?_ alone file
    rw [String.toList_append, String.toList_ofList]
    exact normalize_append_of_plain (Form.plain_verbatimText plain) more.toList
  case written =>
    intro raw
    obtain ⟨xs, path, atEnd⟩ := Scan.exists_path { rest := normalize raw.toList }
    refine ⟨_, _, _, path.tokenize_eq atEnd rfl file, path.arePartsOf atEnd file, ?_⟩
    intro t text value isPart isVerbatim notTold
    exact path.text_of_verbatimString isPart isVerbatim notTold

/-- A line feed between two quotes as the value, and behind the string a NUL that hides no quote. -/
theorem tokenize_verbatim_quotes :
    ((∀ c ∈ "\"\n\"".toList, c ≠ '\r' ∧ c ≠ '\x00') ∧
      (normalize "\x00x".toList).head? ≠ some '"' ∧
      OpensWith "@\"\"\"\n\"\"\"\x00x" "main.cs" (verbatimToken "main.cs" "\"\n\"")
        "@\"\"\"\n\"\"\"".toList) ∧
    ∃ tokens diagnostics parts text,
      tokenize "@\"\"\"\n\"\"\"\x00x" "main.cs" = .ok (tokens, diagnostics) ∧
      ArePartsOf (normalize "@\"\"\"\n\"\"\"\x00x".toList) tokens diagnostics parts ∧
      .token (verbatimToken "main.cs" "\"\n\"") text ∈ parts ∧
      ¬diagnostics.tellUnterminated (verbatimToken "main.cs" "\"\n\"") ∧
      text = verbatimText "\"\n\"".toList := by
  obtain ⟨read, written⟩ := tokenize_verbatim "main.cs"
  have plain : ∀ c ∈ "\"\n\"".toList, c ≠ '\r' ∧ c ≠ '\x00' := by simp
  have alone : (normalize "\x00x".toList).head? ≠ some '"' := by decide
  have opens := read "\"\n\"" "\x00x" plain alone
  have raw : String.ofList (verbatimText "\"\n\"".toList) ++ "\x00x" =
      "@\"\"\"\n\"\"\"\x00x" := rfl
  rw [raw] at opens
  obtain ⟨tokens, diagnostics, parts, tokenized, whole, texts⟩ :=
    written "@\"\"\"\n\"\"\"\x00x"
  obtain ⟨later, told, -, tokenized', -, behind⟩ := id opens
  obtain ⟨rfl, rfl⟩ := Prod.mk.inj (Except.ok.inj (tokenized.symm.trans tokenized'))
  have isToken : verbatimToken "main.cs" "\"\n\"" ∈ parts.filterMap Part.token? := by
    rw [whole.tokens_eq]
    exact List.mem_cons_self
  obtain ⟨part, isPart, isToken⟩ := List.mem_filterMap.mp isToken
  cases part with
  | unexpected d c => cases isToken
  | token t text =>
    obtain rfl : t = _ := Option.some.inj isToken
    have notTold : ¬diagnostics.tellUnterminated (verbatimToken "main.cs" "\"\n\"") := by
      rintro ⟨d, isDiagnostic, -, line, column⟩
      have after := behind d isDiagnostic
      rw [Diagnostic.position, line, column] at after
      exact absurd after (not_le.mpr (({} : Place).position_lt_after (List.cons_ne_nil _ _)))
    exact ⟨⟨plain, alone, opens⟩, _, _, parts, text, tokenized, whole, isPart, notTold,
      texts _ text _ isPart rfl notTold⟩

/-- A NUL does not part the string from a quote: the text is that of another value. -/
theorem not_opensWith_verbatimToken :
    (∀ c ∈ "a".toList, c ≠ '\r' ∧ c ≠ '\x00') ∧ "\x00\"\"".toList.head? ≠ some '"' ∧
      ¬OpensWith (String.ofList (verbatimText "a".toList) ++ "\x00\"\"") "shell"
        (verbatimToken "shell" "a") (verbatimText "a".toList) := by
  refine ⟨by simp, by decide, ?_⟩
  intro opens
  have isSource :
      normalize (String.ofList (verbatimText "a".toList) ++ "\x00\"\"").toList =
        verbatimText "a\"".toList ++ [] := rfl
  have other := opensWith_verbatimToken isSource nofun "shell"
  have same := congrArg PositionedToken.token (opens.unique other)
  exact absurd same (by decide)

end SharpFront
