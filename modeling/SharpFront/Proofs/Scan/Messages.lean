import SharpFront.Proofs.Form.LastLine
import SharpFront.Proofs.Form.Word
import SharpFront.Proofs.Scan.RegionLine

/-!
# Messages

For no words but `warning` and `error` does it matter what comes before them. After a `#` on their
line they take the rest of the line, whatever that would be otherwise.
Lines and columns have no bound here; `Checked.tokenize_eq_ok` is for counters of 32 bits.

* `FollowsHash`: what the scanner looks for before the word;
* `IsMessage`: what a message is in a text;
* `Takes.eq_word`, `Takes.message`: the step over such a word;
* `Path.past_lineEnd`, `Reached.message_eq`: how far a message goes, and what comes after it;
* `tokenize_messages`: every such word, and every message, of a text.
-/

namespace SharpFront

/-! ## The `#` before a word -/

/-- The nearest of the tokens that is no blank is a `#` on the line. -/
def FollowsHash (tokens : List PositionedToken) (line : Nat) : Prop :=
  ∃ earlier hash gap, tokens = earlier ++ hash :: gap ∧ hash.token = .operator .hash ∧
    hash.line = line ∧ ∀ t ∈ gap, t.token.isWhitespace = true

theorem endWithHash_iff {tokens : List PositionedToken} {line : Nat} :
    endWithHash tokens line = true ↔ FollowsHash tokens line := by
  rw [endWithHash, Option.any_eq_true]
  constructor
  · rintro ⟨hash, found, isHash⟩
    obtain ⟨-, gap, earlier, isSplit, areBlank⟩ := List.find?_eq_some_iff_append.mp found
    obtain ⟨sameLine, isHash⟩ := Bool.and_eq_true_iff.mp isHash
    refine ⟨earlier.reverse, hash, gap.reverse, ?_, eq_of_beq isHash, eq_of_beq sameLine, ?_⟩
    · rw [← List.reverse_reverse tokens, isSplit, List.reverse_append, List.reverse_cons,
        List.append_assoc, List.singleton_append]
    · intro t isGap
      simpa using areBlank t (List.mem_reverse.mp isGap)
  · rintro ⟨earlier, hash, gap, rfl, isHash, sameLine, areBlank⟩
    refine ⟨hash, List.find?_eq_some_iff_append.mpr
      ⟨by rw [isHash]; rfl, gap.reverse, earlier.reverse, ?_, ?_⟩, ?_⟩
    · rw [List.reverse_append, List.reverse_cons, List.append_assoc, List.singleton_append]
    · intro t isGap
      rw [areBlank t (List.mem_reverse.mp isGap)]
      rfl
    · rw [isHash, sameLine, beq_self_eq_true]
      rfl

/-! ## What a message is -/

theorem Directive.takesMessage_iff {d : Directive} :
    d.takesMessage = true ↔ d = .warning ∨ d = .error := by
  cases d <;> decide

/-- A token with a message, where a text and its parts are divided before and after the token. -/
structure IsMessage (source : List Char) (before after : List Part) (diagnostics : Diagnostics)
    (t : PositionedToken) (d : Directive) (m : Span) : Prop where
  isWord : d = .warning ∨ d = .error
  followsHash : FollowsHash (before.filterMap Part.token?) t.line
  /-- The message is what the line has after the word, without the blanks in front, and the token
  goes on to the end of the line. -/
  isRest : ∃ line rest, (SourceText.mk source).line? t.line = some line ∧
    line.drop (t.column - 1) = d.word.toList ++ rest ∧ t.length = d.word.length + rest.length ∧
    m = .ofChars
      (byteSize (before.flatMap Part.text ++ (d.word.toList ++ rest.takeWhile Text.isBlank)))
      (rest.dropWhile Text.isBlank)
  isLast : ∀ u ∈ after.filterMap Part.token?, u.line = t.line → u.token.isWhitespace = true
  unreported : ∀ x ∈ diagnostics.toList, x.line = t.line → x.column < t.column

namespace Scan

variable {source : List Char} {s : Scan} {segment : Segment} {xs : List Segment} {d : Directive}
  {m : Span} {start : Place} {l : Lexeme}

/-! ## The segment of a message -/

/-- A directive word is taken as such. -/
theorem Takes.eq_word (takes : Takes s segment) (isWord : Form.wordText s.rest = d.word.toList) :
    segment = .lexeme s.place (if d.takesMessage && s.followsHash s.place.line then
      Form.directiveMessage d s.place d.word.toList (s.rest.drop d.word.length)
      else { token := .directive d, text := d.word.toList }) := by
  have found : s.recognize .word = some _ := Form.word?_of_wordText isWord
  exact takes.unique (.of_recognize (by decide) (by decide_cbv) found)

/-- Only a directive word that takes a message has one. -/
theorem Takes.message (takes : Takes s (.lexeme start l))
    (isMessage : l.token = .directiveMessage d m) :
    Form.wordText s.rest = d.word.toList ∧ d.takesMessage = true ∧
      s.followsHash s.place.line = true ∧
      (s.record (.lexeme start l)).place.line = s.place.line ∧
      l = Form.directiveMessage d s.place d.word.toList (s.rest.drop d.word.length) := by
  obtain ⟨form, -, found⟩ := takes.exists_form
  have names : l.token.directive? = some d := by
    rw [isMessage]
    rfl
  obtain rfl := Form.eq_word_of_directive? found names
  have isWord := Form.wordText_of_directive? found names
  have lexeme := Form.word?_of_directive? found names
  split at lexeme
  · next takesIt =>
    obtain ⟨takesMessage, follows⟩ := Bool.and_eq_true_iff.mp takesIt
    have oneLine : '\n' ∉ (Segment.lexeme start l).text :=
      Form.notMem_feed_of_recognize found rfl
    refine ⟨isWord, takesMessage, follows, ?_, lexeme⟩
    rw [takes.place_record, Place.line_after_of_notMem _ oneLine]
  · rw [lexeme] at isMessage
    cases isMessage

theorem followsHash_recordAll (source : List Char) (front : List Segment) (file : String) (line : Nat) :
    (({ rest := source } : Scan).recordAll front).followsHash line = true ↔
      FollowsHash ((front.filterMap (·.part? file)).filterMap Part.token?) line := by
  have tokens : (({ rest := source } : Scan).recordAll front).tokens file = _ :=
    tokens_recordAll file front
  rw [followsHash_eq _ file, tokens, tokens_parts, endWithHash_iff]

/-! ## From the end of a line on -/

/-- From the end of a line on nothing is found or reported on that line, but blanks. -/
theorem Path.past_lineEnd (path : Path s xs) (ends : EndsLine s.rest) :
    ∀ segment ∈ xs,
      (∀ file, ∀ t ∈ segment.token? file, t.line = s.place.line →
        t.token.isWhitespace = true) ∧
        ∀ r ∈ segment.reports, s.place.line < r.line := by
  cases path with
  | nil => exact List.forall_mem_nil _
  | @cons _ first more takes later =>
    obtain ⟨c, rest, isRest⟩ := List.exists_cons_of_ne_nil takes.rest_ne_nil
    obtain rfl : c = '\n' := ends c (by rw [isRest]; rfl)
    have isFeed : s.rest.head? = some '\n' := by
      rw [isRest]
      rfl
    have feedIsBlank : Text.isBlank '\n' = true := by decide +kernel
    have isBlank := takes.eq_whitespace isFeed feedIsBlank
    have below : s.place.line < (s.record first).place.line := by
      have isFirst : first.text = '\n' :: rest.takeWhile Text.isBlank := by
        rw [isBlank, isRest]
        exact List.takeWhile_cons_of_pos feedIsBlank
      rw [takes.place_record, Place.line_after, isFirst, List.count_cons_self]
      omega
    refine List.forall_mem_cons.mpr ⟨?_, ?_⟩
    · rw [isBlank]
      refine ⟨?_, List.forall_mem_nil _⟩
      intro file t isToken _
      cases isToken
      rfl
    · intro segment isLater
      have starts := (later.line_of_mem segment isLater).1
      constructor
      · intro file t isToken onLine
        have := Segment.line_of_token? isToken
        omega
      · intro r isReport
        have := later.line_le_of_mem_reports segment isLater r isReport
        omega

/-! ## Where messages stand -/

/-- A message goes from its word to the end of the line. -/
theorem Reached.message_eq (reached : Reached source s) (takes : Takes s (.lexeme start l))
    (isMessage : l.token = .directiveMessage d m) :
    ∃ line rest, (SourceText.mk source).line? s.place.line = some line ∧
      line.drop (s.place.column - 1) = d.word.toList ++ rest ∧
      l = { token := .directiveMessage d (.ofChars
              (byteSize (s.seen ++ (d.word.toList ++ rest.takeWhile Text.isBlank)))
              (rest.dropWhile Text.isBlank))
            text := d.word.toList ++ rest } ∧
      EndsLine (s.record (.lexeme start l)).rest := by
  obtain ⟨isWord, -, -, -, lexeme⟩ := takes.message isMessage
  have noFeed := Form.notMem_wordText s.rest
  rw [isWord] at noFeed
  have place := reached.place_eq
  obtain ⟨more, isRest⟩ : d.word.toList <+: s.rest := isWord ▸ Form.wordText_isPrefix s.rest
  have after : s.rest.drop d.word.length = more := by
    rw [← isRest, ← String.length_toList, List.drop_left]
  have whole : Form.restOfLine s.rest = d.word.toList ++ Form.restOfLine more := by
    rw [← isRest, Form.restOfLine_append noFeed]
  have isLine := line?_lineAfter s.seen s.rest
  rw [← reached.source_eq, whole] at isLine
  rw [after, Form.directiveMessage_eq, place, ← Place.after_append] at lexeme
  simp only [Place.after_eq] at lexeme place
  refine ⟨_, Form.restOfLine more, by rw [place]; exact isLine, ?_, lexeme, ?_⟩
  · rw [place, columnAfter_eq, Nat.add_sub_cancel, List.drop_left]
  · rw [record_rest, Segment.text, lexeme, ← whole]
    exact Form.endsLine_drop s.rest

/-- What comes before a word is not reported from the word on. -/
theorem Reached.position_lt_of_word (reached : Reached source s)
    (isWord : Form.wordText s.rest = d.word.toList) :
    ∀ r ∈ s.reports, r.position < s.place.position := by
  intro r isReport
  refine (reached.position_lt_or r isReport).resolve_right ?_
  rintro ⟨-, ends⟩
  obtain ⟨c, cs, isText⟩ : ∃ c cs, d.word.toList = c :: cs := by cases d <;> exact ⟨_, _, rfl⟩
  have isPrefix := Form.wordText_isPrefix s.rest
  have noFeed := Form.notMem_wordText s.rest
  rw [isWord, isText] at isPrefix noFeed
  have isFeed := ends c (Opening.head?_of_isPrefix isPrefix rfl)
  rw [isFeed] at noFeed
  exact noFeed List.mem_cons_self

/-- A message reports nothing, and nothing is reported in it. -/
theorem Path.unreported (reached : Reached source s) (path : Path s (.lexeme start l :: xs))
    (isMessage : l.token = .directiveMessage d m) :
    ∀ r ∈ s.reports ++ (Segment.lexeme start l :: xs).flatMap Segment.reports,
      r.line = s.place.line → r.column < s.place.column := by
  obtain ⟨takes, later⟩ := path.of_cons
  obtain ⟨isWord, -, -, sameLine, -⟩ := takes.message isMessage
  obtain ⟨line, rest, -, -, lexeme, ends⟩ := reached.message_eq takes isMessage
  have past := later.past_lineEnd ends
  rw [sameLine] at past
  intro r isReport onLine
  rcases List.mem_append.mp isReport with isEarlier | isReport
  · rcases Prod.Lex.toLex_lt_toLex.mp (reached.position_lt_of_word isWord r isEarlier) with
      above | ⟨-, before⟩
    · omega
    · exact before
  · rw [List.flatMap_cons] at isReport
    rcases List.mem_append.mp isReport with isHere | isLater
    · rw [Segment.reports, lexeme] at isHere
      cases isHere
    · obtain ⟨segment, isSegment, isReport⟩ := List.mem_flatMap.mp isLater
      have := (past segment isSegment).2 r isReport
      omega

/-- What becomes of a path that goes over a message. -/
theorem Path.isMessage {front back : List Segment}
    (path : Path { rest := source } (front ++ .lexeme start l :: back))
    (isMessage : l.token = .directiveMessage d m) (file : String) {t : PositionedToken}
    (isToken : (Segment.lexeme start l).token? file = some t) :
    IsMessage source (front.filterMap (·.part? file)) (back.filterMap (·.part? file))
      (({} : Diagnostics).reportAll ((front ++ .lexeme start l :: back).flatMap Segment.reports))
      t d m := by
  obtain ⟨behind, ahead⟩ := path.of_append
  have takes := path.takes
  have reached := behind.reached .start
  have seen : (({ rest := source } : Scan).recordAll front).seen =
      (front.filterMap (·.part? file)).flatMap Part.text := by
    rw [behind.text_parts, Scan.seen, segments_recordAll, List.append_nil, List.reverse_reverse]
  have followsHash := followsHash_recordAll source front file
  have unreported := ahead.unreported reached isMessage
  rw [reports_recordAll, ← List.flatMap_append] at unreported
  generalize ({ rest := source } : Scan).recordAll front = s at *
  obtain ⟨-, takesMessage, follows, sameLine, -⟩ := takes.message isMessage
  obtain ⟨line, rest, isLine, isRest, lexeme, ends⟩ := reached.message_eq takes isMessage
  obtain ⟨line_eq, column_eq⟩ := takes.token_place isToken
  rw [← line_eq] at follows isLine unreported
  rw [← column_eq] at isRest unreported
  constructor
  case isWord => exact Directive.takesMessage_iff.mp takesMessage
  case followsHash => exact (followsHash _).mp follows
  case isRest =>
    refine ⟨line, rest, isLine, isRest, ?_, ?_⟩
    · have length_eq : t.length = l.text.length := by
        cases isToken
        rfl
      rw [length_eq, lexeme, List.length_append, String.length_toList]
    · rw [lexeme, seen] at isMessage
      exact (Token.directiveMessage.inj isMessage).2.symm
  case isLast =>
    rw [tokens_parts]
    intro u isLater onLine
    obtain ⟨segment, isSegment, isToken⟩ := List.mem_filterMap.mp isLater
    refine (ahead.of_cons.2.past_lineEnd ends segment isSegment).1 file u isToken ?_
    rw [onLine, line_eq, sameLine]
  case unreported =>
    intro x isKept onLine
    obtain ⟨r, isReport, resolved⟩ := Diagnostics.exists_of_mem_reportAll isKept
    obtain ⟨r_line, r_column⟩ := WarningPolicy.resolve?_place resolved
    rw [r_line] at onLine
    rw [r_column]
    exact unreported r isReport onLine

/-- A word that can take a message does so after a `#` on its line, and else stands alone. -/
theorem Path.word_eq {front back : List Segment}
    (path : Path { rest := source } (front ++ segment :: back)) (file : String)
    (takesMessage : d.takesMessage = true)
    (isWord : Form.wordText
      (source.drop ((front.filterMap (·.part? file)).flatMap Part.text).length) = d.word.toList) :
    ∃ t text, segment.part? file = some (.token t text) ∧
      ((∃ m, t.token = .directiveMessage d m) ↔
        FollowsHash ((front.filterMap (·.part? file)).filterMap Part.token?) t.line) ∧
      (t.token = .directive d ↔
        ¬FollowsHash ((front.filterMap (·.part? file)).filterMap Part.token?) t.line) := by
  have behind := path.of_append.1
  have takes := path.takes
  have source_eq : source = _ := behind.rest_eq
  rw [behind.text_parts, source_eq, List.drop_left] at isWord
  have followsHash := followsHash_recordAll source front file
  generalize ({ rest := source } : Scan).recordAll front = s at *
  rw [takes.eq_word isWord]
  refine ⟨_, _, rfl, ?_⟩
  rw [← followsHash, takesMessage, Bool.true_and]
  cases follows : s.followsHash s.place.line with
  | true => simp [Form.directiveMessage]
  | false => simp

end Scan

/-- **A message is the rest of its line, whatever that looks like.** Where scanning comes to a word
`warning` or `error`, it takes it for a directive with a message when the nearest token before it
that is no blank is a `#` on its line, and for the word alone otherwise. There are no other messages.
A message is what follows the word on the line without the blanks in front. Nothing but blanks starts
on the line after it, and no diagnostic of scanning stands in it. -/
theorem tokenize_messages (raw file : String) :
    ∃ tokens diagnostics parts, tokenize raw file = .ok (tokens, diagnostics) ∧
      ArePartsOf (normalize raw.toList) tokens diagnostics parts ∧
      ∀ before part after, parts = before ++ part :: after →
        let rest := (normalize raw.toList).drop (before.flatMap Part.text).length
        let earlier := before.filterMap Part.token?
        (∀ d, d = .warning ∨ d = .error → Form.wordText rest = d.word.toList →
          ∃ t text, part = .token t text ∧
            ((∃ m, t.token = .directiveMessage d m) ↔ FollowsHash earlier t.line) ∧
            (t.token = .directive d ↔ ¬FollowsHash earlier t.line)) ∧
        ∀ t text d m, part = .token t text → t.token = .directiveMessage d m →
          IsMessage (normalize raw.toList) before after diagnostics t d m := by
  obtain ⟨xs, path, atEnd⟩ := Scan.exists_path { rest := normalize raw.toList }
  refine ⟨_, _, xs.filterMap (·.part? file), path.tokenize_eq atEnd rfl file,
    path.arePartsOf atEnd file, ?_⟩
  intro before part after isSplit
  obtain ⟨front, segment, back, rfl, isPart, rfl, rfl⟩ := exists_of_filterMap_eq isSplit
  constructor
  · intro d takesMessage isWord
    obtain ⟨t, text, isToken, becomes⟩ :=
      path.word_eq file (Directive.takesMessage_iff.mpr takesMessage) isWord
    exact ⟨t, text, Option.some.inj (isPart.symm.trans isToken), becomes⟩
  · rintro t text d m rfl isMessage
    cases segment with
    | lexeme start l =>
      cases isPart
      exact path.isMessage isMessage file rfl
    | skipped start blanks => cases isPart
    | rejected start c => cases isPart

/-- In a message an apostrophe opens no literal, and a word on the next line takes no message. -/
theorem tokenize_messages_apostrophe :
    ∃ tokens diagnostics parts,
      tokenize "# error  it's\nerror" "main.cs" = .ok (tokens, diagnostics) ∧
      ArePartsOf (normalize "# error  it's\nerror".toList) tokens diagnostics parts ∧
      (∃ before t text after, parts = before ++ .token t text :: after ∧
        IsMessage (normalize "# error  it's\nerror".toList) before after diagnostics t .error
          ⟨9, "it's"⟩) ∧
      ∃ before t text after, parts = before ++ .token t text :: after ∧
        t.token = .directive .error ∧ ¬FollowsHash (before.filterMap Part.token?) t.line := by
  obtain ⟨tokens, diagnostics, parts, tokenized, whole, each⟩ :=
    tokenize_messages "# error  it's\nerror" "main.cs"
  have scanned := tokenize_guided "main.cs" "# error  it's\nerror"
    [.operator .hash, .whitespace, .word, .whitespace, .word]
    ([⟨.operator .hash, "main.cs", 1, 1, 1, false⟩, ⟨.whitespace, "main.cs", 1, 2, 1, false⟩] ++
      ⟨.directiveMessage .error ⟨9, "it's"⟩, "main.cs", 1, 3, 11, false⟩ ::
      ([⟨.whitespace, "main.cs", 1, 14, 1, false⟩] ++
      ⟨.directive .error, "main.cs", 2, 1, 5, false⟩ :: []))
    (by decide) (by decide_cbv) (by cbv) rfl
  have isTokens := congrArg Prod.fst (Except.ok.inj (tokenized.symm.trans scanned))
  have tokens_eq := whole.tokens_eq.trans isTokens
  refine ⟨tokens, diagnostics, parts, tokenized, whole, ?message, ?alone⟩
  case message =>
    obtain ⟨before, text, after, isSplit, -⟩ := exists_parts_split tokens_eq
    exact ⟨before, _, text, after, isSplit, (each _ _ _ isSplit).2 _ _ _ _ rfl rfl⟩
  case alone =>
    rw [← List.cons_append, ← List.append_assoc] at tokens_eq
    obtain ⟨before, text, after, isSplit, -⟩ := exists_parts_split tokens_eq
    obtain ⟨-, -, -, -, form, -, l, recognized, token_eq, -⟩ := whole.stands _ _ _ isSplit
    have names : l.token.directive? = some .error := by
      rw [token_eq]
      rfl
    obtain rfl := Form.eq_word_of_directive? recognized names
    have isWord := Form.wordText_of_directive? recognized names
    obtain ⟨t, covered, isPart, -, alone⟩ := (each _ _ _ isSplit).1 .error (.inr rfl) isWord
    cases isPart
    exact ⟨before, _, text, after, isSplit, rfl, alone.mp rfl⟩

end SharpFront
