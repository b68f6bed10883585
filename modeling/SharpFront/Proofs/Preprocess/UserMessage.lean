import SharpFront.Proofs.Form.Word
import SharpFront.Proofs.Preprocess.Fates
import SharpFront.Proofs.Preprocess.LeadingHash
import SharpFront.Proofs.Scan.LongestMatch

/-!
# The messages of `#warning` and `#error`

The scanner reads the rest of the line after `warning` or `error` as a message if a `#` is the last
token before it, blanks aside. A directive skips comments too, so its word may be one that the
scanner took for a plain word.

* `endWithHash_of_insignificant`: what the scanner sees of a `#` before a word;
* `userMessages_journal`: a message is the only one about its line;
* `message_eq`: the message of a directive line in the text;
* `userMessage_eq`: what the output says, and where a message is lost;
* `KeepsMessages`: that none is lost, which fails after a comment.
-/

namespace SharpFront

/-! ## The `#` before a word -/

/-- After a `#` and some blanks and comments, the `#` is still the last token but blanks when no
comment is among them. -/
theorem endWithHash_of_insignificant {earlier gap : List PositionedToken} {hash : PositionedToken}
    (isHash : hash.token.isOperator .hash = true)
    (insignificant : ∀ t ∈ gap, t.token.isSignificant = false) :
    endWithHash (earlier ++ hash :: gap) hash.line = !gap.any (·.token.isComment) := by
  have notBlank : hash.token.isWhitespace = false := by
    rw [eq_of_beq isHash]
    rfl
  have found : (earlier ++ hash :: gap).reverse.find? (!·.token.isWhitespace) =
      (gap.reverse.find? (!·.token.isWhitespace)).or (some hash) := by
    rw [List.reverse_append, List.reverse_cons, List.append_assoc, List.find?_append,
      List.singleton_append, List.find?_cons_of_pos (by simp [notBlank])]
  rw [endWithHash, found]
  cases last : gap.reverse.find? (!·.token.isWhitespace) with
  | none =>
    have noComment : gap.any (·.token.isComment) = false := by
      refine List.any_eq_false.mpr ?_
      intro t isGap isComment
      have isBlank := List.find?_eq_none.mp last t (List.mem_reverse.mpr isGap)
      cases token : t.token <;> simp_all [Token.isWhitespace, Token.isComment]
    rw [noComment]
    simp [isHash]
  | some t =>
    have isGap : t ∈ gap := List.mem_reverse.mp (List.mem_of_find?_eq_some last)
    have isComment : t.token.isComment = true := by
      have notBlank := List.find?_some last
      have dull := insignificant t isGap
      simp only [Token.isSignificant] at dull
      simp_all
    have notHash : t.token.isOperator .hash = false := by
      cases token : t.token <;> simp_all [Token.isComment, Token.isOperator]
    have hasComment : gap.any (·.token.isComment) = true :=
      List.any_eq_true.mpr ⟨t, isGap, isComment⟩
    rw [hasComment]
    simp [notHash]

/-! ## What the directives report -/

/-- What `#warning` and `#error` report their message as. -/
def Directive.userKind? : Directive → Option (String → DiagnosticKind)
  | .warning => some .userWarning
  | .error => some .userError
  | _ => none

/-- The message comes from the text. -/
def DiagnosticKind.isOfUser : DiagnosticKind → Bool
  | userWarning _ | userError _ => true
  | _ => false

theorem isOfUser_of_userKind? {w : Directive} {kind : String → DiagnosticKind}
    (h : w.userKind? = some kind) (message : String) : (kind message).isOfUser = true := by
  cases w <;> cases h <;> rfl

theorem takesMessage_of_userKind? {w : Directive} {kind : String → DiagnosticKind}
    (h : w.userKind? = some kind) : w.takesMessage = true := by
  cases w <;> cases h <;> rfl

namespace Standing

/-- In included code `#warning` and `#error` report their message, and nothing else but a `#` that
does not lead its line. -/
theorem events_of_userKind? {s : Standing} (included : s.includesCode = true)
    (hash : PositionedToken) (leads : Bool) {d : DirectiveLine} {w : Directive}
    {kind : String → DiagnosticKind} (names : d.word.token.directive? = some w)
    (isUser : w.userKind? = some kind) :
    s.events (.directive hash leads (d.word :: d.operands)) =
      (if leads then [] else [.report (hash.report .notFirstCharacter)]) ++
        [.report (d.word.report (kind d.message))] := by
  cases w with
  | warning | error =>
    cases isUser
    simp [events, bodyEvents, directiveEvents, reports, names, included]
  | _ => cases isUser

end Standing

namespace Diagnostics

/-- The messages from the text that a sink keeps about a line. -/
def userMessages (s : Diagnostics) (line : Nat) : List Diagnostic :=
  s.toList.filter fun d => d.kind.isOfUser && d.line == line

/-- Other reports leave the messages about a line as they are. -/
theorem userMessages_hearAll (s : Diagnostics) {events : List Event} {line : Nat}
    (h : ∀ r, .report r ∈ events → r.kind.isOfUser = true → r.line ≠ line) :
    (s.hearAll events).userMessages line = s.userMessages line := by
  induction events generalizing s with
  | nil => rfl
  | cons event events ih =>
    have report (r : Report) (other : r.kind.isOfUser = true → r.line ≠ line) :
        (s.report r).userMessages line = s.userMessages line := by
      rw [userMessages, report_toList, List.filter_append]
      cases resolved : s.policy.resolve? r with
      | none => exact List.append_nil _
      | some d =>
        obtain ⟨severity, -, rfl⟩ := Option.map_eq_some_iff.mp resolved
        simpa [userMessages] using other
    rw [hearAll_cons, ih _ fun r isLater => h r (List.mem_cons_of_mem event isLater)]
    cases event with
    | report r => exact report r (h r List.mem_cons_self)
    | badCode item => exact report (item.report .invalidNumber) Bool.noConfusion
    | entry e => rfl

theorem userMessages_report (s : Diagnostics) {r : Report} (isUser : r.kind.isOfUser = true) :
    (s.report r).userMessages r.line =
      s.userMessages r.line ++ (s.policy.resolve? r).toList := by
  rw [userMessages, report_toList, List.filter_append]
  cases resolved : s.policy.resolve? r with
  | none => rfl
  | some d =>
    obtain ⟨severity, -, rfl⟩ := Option.map_eq_some_iff.mp resolved
    simp [userMessages, isUser]

/-- The only message about a line is kept as the policy at the end says. -/
theorem userMessages_hearAll_only (s : Diagnostics) {earlier later : List Event} {r : Report}
    (isUser : r.kind.isOfUser = true)
    (settled : (earlier ++ .report r :: later).Pairwise Event.Settles)
    (notEarlier : ∀ other, .report other ∈ earlier → other.kind.isOfUser = true →
      other.line ≠ r.line)
    (notLater : ∀ other, .report other ∈ later → other.kind.isOfUser = true →
      other.line ≠ r.line) :
    let sink := s.hearAll (earlier ++ .report r :: later)
    sink.userMessages r.line = s.userMessages r.line ++ (sink.policy.resolve? r).toList := by
  intro sink
  have said := (s.hearAll earlier).userMessages_report isUser
  rw [s.userMessages_hearAll notEarlier] at said
  simp only [sink]
  rw [resolve?_hearAll _ settled, hearAll_append, hearAll_cons, userMessages_hearAll _ notLater]
  exact said

end Diagnostics

section

variable {tokens : List PositionedToken} {before after : List SourceItem} {hash : PositionedToken}
  {leads : Bool} {d : DirectiveLine} {w : Directive} {kind : String → DiagnosticKind}

/-- No other event is a message about the line of a directive. -/
theorem exists_journal_split (settings : Settings) (inLines : InLines tokens)
    (isSplit : SourceItem.ofTokens none tokens =
      before ++ .directive hash leads (d.word :: d.operands) :: after)
    (names : d.word.token.directive? = some w) (isUser : w.userKind? = some kind)
    (included :
      ((PreprocessState.ofSettings settings).standing.steps before).1.includesCode = true) :
    ∃ earlier later,
      journal settings tokens = earlier ++ .report (d.word.report (kind d.message)) :: later ∧
      (∀ r, .report r ∈ earlier → r.kind.isOfUser = true → r.line ≠ hash.line) ∧
      ∀ r, .report r ∈ later → r.kind.isOfUser = true → r.line ≠ hash.line := by
  let item : SourceItem := .directive hash leads (d.word :: d.operands)
  let s := (PreprocessState.ofSettings settings).standing
  let reached := (s.steps before).1
  have whole : ∀ other ∈ before ++ item :: after, other.IsWhole := by
    rw [← isSplit]
    exact SourceItem.isWhole_of_mem_ofTokens
  have ordered : SourceItem.InOrder (before ++ item :: after) := by
    rw [← isSplit]
    exact SourceItem.ofTokens_inOrder inLines
  have elsewhere := Standing.line_ne_of_mem_journal whole ordered rfl
  refine ⟨s.journal before ++ if leads then [] else [.report (hash.report .notFirstCharacter)],
    (reached.step item).1.journal after ++ (s.steps (before ++ item :: after)).1.closing tokens,
    ?heard, ?notEarlier, ?notLater⟩
  case heard =>
    have events := Standing.events_of_userKind? included hash leads names isUser
    simp only [journal, Standing.unitJournal, isSplit, Standing.journal_append, Standing.journal,
      events, reached, s, item, List.append_assoc, List.cons_append, List.nil_append]
  case notEarlier =>
    intro r isEarlier ofUser
    rcases List.mem_append.mp isEarlier with isEarlier | notFirst
    · exact (elsewhere s).1 _ isEarlier
    · cases leads with
      | true => cases notFirst
      | false =>
        cases List.mem_singleton.mp notFirst
        cases ofUser
  case notLater =>
    intro r isLater ofUser
    rcases List.mem_append.mp isLater with isLater | isClosing
    · exact (elsewhere _).2 _ isLater
    · obtain ⟨last, -, same⟩ := Standing.exists_of_mem_closing isClosing
      cases same
      cases ofUser

theorem userMessages_journal (settings : Settings) (inLines : InLines tokens)
    (isSplit : SourceItem.ofTokens none tokens =
      before ++ .directive hash leads (d.word :: d.operands) :: after)
    (names : d.word.token.directive? = some w) (isUser : w.userKind? = some kind)
    (included :
      ((PreprocessState.ofSettings settings).standing.steps before).1.includesCode = true) :
    let sink := ({ policy := settings.policy } : Diagnostics).hearAll (journal settings tokens)
    sink.userMessages hash.line =
      (sink.policy.resolve? (d.word.report (kind d.message))).toList := by
  obtain ⟨earlier, later, heard, notEarlier, notLater⟩ :=
    exists_journal_split settings inLines isSplit names isUser included
  have isItem : SourceItem.directive hash leads (d.word :: d.operands) ∈
      SourceItem.ofTokens none tokens := isSplit ▸ List.mem_append_cons_self
  have line : d.word.line = hash.line :=
    (SourceItem.isWhole_of_mem_ofTokens _ isItem).2 d.word List.mem_cons_self
  have settled : (journal settings tokens).Pairwise Event.Settles :=
    Standing.unitJournal_settled inLines _
  rw [heard] at settled ⊢
  rw [← line] at notEarlier notLater ⊢
  exact Diagnostics.userMessages_hearAll_only _ (isOfUser_of_userKind? isUser d.message) settled
    notEarlier notLater

end

/-! ## The message in the text -/

/-- The text without the blanks at its ends. -/
def Text.trim (cs : List Char) : List Char := trimEnd (cs.dropWhile isBlank)

/-- What follows a directive word after some parts on the same line, without the blanks at its
ends. -/
def messageAfter (source : List Char) (before : List Part) (w : Directive) : String :=
  let seen := before.flatMap Part.text
  String.ofList (Text.trim (Form.restOfLine (source.drop (seen.length + w.word.length))))

theorem Part.any_isComment (parts : List Part) :
    (parts.filterMap Part.token?).any (·.token.isComment) = parts.any Part.isComment := by
  induction parts with
  | nil => rfl
  | cons part parts ih =>
    cases part with
    | token t text => simp [Part.token?, Part.isComment, ih]
    | unexpected d c => simpa [Part.token?, Part.isComment] using ih

section

variable {source : List Char} {tokens : List PositionedToken} {scanned : Diagnostics}
  {parts front between back : List Part} {hash word : PositionedToken} {text covered : List Char}
  {w : Directive}

/-- A directive line with a message has what follows its word on the line, unless a comment comes
between the `#` and the word. Then it has none. -/
theorem message_eq (whole : ArePartsOf source tokens scanned parts)
    (isSplit : parts =
      front ++ Part.token hash text :: (between ++ Part.token word covered :: back))
    (isHash : hash.token.isOperator .hash = true) (sameLine : word.line = hash.line)
    (insignificant : ∀ t ∈ between.filterMap Part.token?, t.token.isSignificant = false)
    (names : word.token.directive? = some w) (takes : w.takesMessage = true)
    (operands : List PositionedToken) :
    DirectiveLine.message ⟨word, operands⟩ =
      if between.any Part.isComment then ""
      else messageAfter source (front ++ Part.token hash text :: between) w := by
  let before := front ++ Part.token hash text :: between
  have isSplit' : parts = before ++ .token word covered :: back := by
    rw [isSplit, List.append_assoc, List.cons_append]
  obtain ⟨-, -, -, -, form, -, l, found, token_eq, -⟩ := whole.stands _ _ _ isSplit'
  have tokensBefore : before.filterMap Part.token? =
      front.filterMap Part.token? ++ hash :: between.filterMap Part.token? := by
    rw [List.filterMap_append, List.filterMap_cons]
    rfl
  have follows : endWithHash (before.filterMap Part.token?) word.line =
      !between.any Part.isComment := by
    rw [tokensBefore, sameLine, endWithHash_of_insignificant isHash insignificant,
      Part.any_isComment]
  rw [← token_eq] at names
  obtain rfl := Form.eq_word_of_directive? found names
  have lexeme := Form.word?_of_directive? found names
  rw [takes, Bool.true_and, follows] at lexeme
  simp only [DirectiveLine.message, ← token_eq]
  cases hasComment : between.any Part.isComment with
  | true =>
    rw [hasComment, Bool.not_true, if_neg Bool.false_ne_true] at lexeme
    rw [lexeme, if_pos rfl]
  | false =>
    rw [hasComment, Bool.not_false, if_pos rfl] at lexeme
    rw [lexeme, if_neg Bool.false_ne_true]
    simp only [Form.directiveMessage, Span.ofChars, String.toList_ofList, messageAfter,
      Text.trim, Form.dropWhile_restOfLine, List.drop_drop]
    rfl

/-- The parts of the `#` and of the word, with what is between. -/
theorem exists_word_parts {earlier gap later : List PositionedToken}
    (h : parts.filterMap Part.token? = earlier ++ hash :: (gap ++ word :: later)) :
    ∃ front text between covered back,
      parts = front ++ Part.token hash text :: (between ++ Part.token word covered :: back) ∧
      between.filterMap Part.token? = gap := by
  have atWord : parts.filterMap Part.token? = (earlier ++ hash :: gap) ++ word :: later := by
    rw [h, List.append_assoc, List.cons_append]
  obtain ⟨upTo, covered, back, rfl, isUpTo⟩ := exists_parts_split atWord
  obtain ⟨front, text, between, rfl, isFront⟩ := exists_parts_split isUpTo
  refine ⟨front, text, between, covered, back, List.append_assoc _ _ _, ?_⟩
  rw [List.filterMap_append, isFront, List.append_cancel_left_eq, List.filterMap_cons] at isUpTo
  exact (List.cons.inj isUpTo).2

end

/-! ## The whole text -/

/-- Scanning keeps no message. -/
theorem Scan.Reached.userMessages_scanned {source : List Char} {s : Scan}
    (reached : Reached source s) (line : Nat) :
    (({} : Diagnostics).reportAll s.reports).userMessages line = [] := by
  rw [Diagnostics.userMessages, List.filter_eq_nil_iff]
  intro d isKept isMessage
  obtain ⟨ofUser, -⟩ := Bool.and_eq_true_iff.mp isMessage
  refine reached.not_mem_scanned ?_ isKept
  cases kind : d.kind with
  | userWarning message | userError message => rfl
  | _ =>
    rw [kind] at ofUser
    cases ofUser

/-- The output has the message of a directive in included code, and no other about its line. -/
theorem userMessages_output {file raw : String} {settings : Settings} {s : Scan} {output : Output}
    (reached : Scan.Reached (normalize raw.toList) s)
    (tokenized : tokenize raw file = .ok (s.tokens file, ({} : Diagnostics).reportAll s.reports))
    (run : preprocess file raw settings = .ok output) {before after : List SourceItem}
    {hash : PositionedToken} {leads : Bool} {d : DirectiveLine} {w : Directive}
    {kind : String → DiagnosticKind}
    (isSplit : SourceItem.ofTokens none (s.tokens file) =
      before ++ .directive hash leads (d.word :: d.operands) :: after)
    (names : d.word.token.directive? = some w) (isUser : w.userKind? = some kind)
    (included :
      ((PreprocessState.ofSettings settings).steps .default before).1.includesCode = true) :
    output.diagnostics.userMessages hash.line =
      (output.policy.resolve? (d.word.report (kind d.message))).toList := by
  obtain ⟨output', run', policy, diagnostics⟩ := exists_preprocess settings tokenized
  obtain rfl : output' = output := Except.ok.inj (run'.symm.trans run)
  rw [PreprocessState.includesCode_eq, (standing_steps _ before).1] at included
  have told := userMessages_journal settings (reached.inLines file) isSplit names isUser included
  simp only [← policy] at told
  rw [← told, diagnostics, Diagnostics.userMessages, Diagnostics.extend_toList,
    Diagnostics.extend_toList, List.filter_append, List.filter_append]
  have scanned := reached.userMessages_scanned hash.line
  rw [Diagnostics.userMessages] at scanned
  rw [scanned]
  rfl

/-- **A message is the rest of its line.** Every `#warning` or `#error` in included code gives one
diagnostic of its kind, as the policy has it, with the text after the word up to the end of the
line. But where a comment comes between the `#` and the word, the message is empty. -/
theorem userMessage_eq (file raw : String) (settings : Settings) :
    ∃ output tokens scanned, preprocess file raw settings = .ok output ∧
      tokenize raw file = .ok (tokens, scanned) ∧
      (∃ parts, ArePartsOf (normalize raw.toList) tokens scanned parts) ∧
      ∀ parts, ArePartsOf (normalize raw.toList) tokens scanned parts →
        ∀ before hash leads word operands after w kind,
          SourceItem.ofTokens none tokens =
            before ++ .directive hash leads (word :: operands) :: after →
          word.token.directive? = some w → w.userKind? = some kind →
          ((PreprocessState.ofSettings settings).steps .default before).1.includesCode = true →
          ∃ front text between covered back,
            parts = front ++ Part.token hash text :: (between ++ Part.token word covered :: back) ∧
            (∀ t ∈ between.filterMap Part.token?, t.token.isSignificant = false) ∧
            let message := if between.any Part.isComment then ""
              else messageAfter (normalize raw.toList) (front ++ Part.token hash text :: between) w
            output.diagnostics.userMessages hash.line =
              (output.policy.resolve? (word.report (kind message))).toList := by
  obtain ⟨s, reached, atEnd, tokenized⟩ := exists_scan raw file
  obtain ⟨output, run, -, -⟩ := exists_preprocess settings tokenized
  refine ⟨output, s.tokens file, _, run, tokenized,
    ⟨_, (reached.divides file).arePartsOf reached atEnd⟩, ?parts⟩
  intro parts whole before hash leads word operands after w kind isSplit names isUser included
  have isItem : .directive hash leads (word :: operands) ∈
      SourceItem.ofTokens none (s.tokens file) := by
    rw [isSplit]
    exact List.mem_append_cons_self
  obtain ⟨earlier, gap, later, tokens_eq, isHash, insignificant, sameLine⟩ :=
    SourceItem.exists_word_of_mem_ofTokens isItem
  obtain ⟨front, text, between, covered, back, isParts, isGap⟩ :=
    exists_word_parts (whole.tokens_eq.trans tokens_eq)
  rw [← isGap] at insignificant
  refine ⟨front, text, between, covered, back, isParts, insignificant, ?_⟩
  have message := message_eq whole isParts isHash sameLine insignificant names
    (takesMessage_of_userKind? isUser) operands
  have said := userMessages_output (d := ⟨word, operands⟩) reached tokenized run isSplit names
    isUser included
  rw [message] at said
  exact said

/-- What should hold of the text: comments between the `#` and the word make no difference. -/
def KeepsMessages (file raw : String) (settings : Settings) : Prop :=
  ∀ output tokens scanned parts, preprocess file raw settings = .ok output →
    tokenize raw file = .ok (tokens, scanned) →
    ArePartsOf (normalize raw.toList) tokens scanned parts →
    ∀ before hash leads word operands after w kind front text between covered back,
      SourceItem.ofTokens none tokens =
        before ++ .directive hash leads (word :: operands) :: after →
      word.token.directive? = some w → w.userKind? = some kind →
      ((PreprocessState.ofSettings settings).steps .default before).1.includesCode = true →
      parts = front ++ Part.token hash text :: (between ++ Part.token word covered :: back) →
      let before := front ++ Part.token hash text :: between
      let message := messageAfter (normalize raw.toList) before w
      output.diagnostics.userMessages hash.line =
        (output.policy.resolve? (word.report (kind message))).toList

/-- A comment before the word takes the message away. -/
theorem not_keepsMessages_comment : ¬KeepsMessages "main.cs" "#/**/error x" {} := by
  intro keepsMessages
  obtain ⟨s, s_eq⟩ : ∃ s, s = ({ rest := normalize "#/**/error x".toList } : Scan).guided
    [.operator .hash, .blockComment, .word, .whitespace, .word] := ⟨_, rfl⟩
  have run : ({ rest := normalize "#/**/error x".toList } : Scan).run Scan.tiers = (s, none) := by
    rw [s_eq]
    exact Scan.run_eq_guided (by decide) (by decide_cbv)
  obtain ⟨s', run', atEnd, reached⟩ := Scan.exists_reached_end
    (@Scan.Reached.start (normalize "#/**/error x".toList))
  obtain rfl : s' = s := congrArg Prod.fst (run'.symm.trans run)
  have tokenized := tokenize_eq "main.cs" run
  have whole := (reached.divides "main.cs").arePartsOf reached atEnd
  obtain ⟨output, preprocessed, -, -⟩ := exists_preprocess {} tokenized
  have isSplit : s'.parts "main.cs" =
      [] ++ .token ⟨.operator .hash, "main.cs", 1, 1, 1, false⟩ ['#'] ::
        ([.token ⟨.blockComment ⟨3, ""⟩, "main.cs", 1, 2, 4, false⟩ ['/', '*', '*', '/']] ++
          .token ⟨.directive .error, "main.cs", 1, 6, 5, false⟩ ['e', 'r', 'r', 'o', 'r'] ::
          [.token ⟨.whitespace, "main.cs", 1, 11, 1, false⟩ [' '],
            .token ⟨.identifier ⟨11, "x"⟩, "main.cs", 1, 12, 1, false⟩ ['x']]) := by
    rw [s_eq]
    cbv
  have items : SourceItem.ofTokens none (s'.tokens "main.cs") =
      [] ++ .directive ⟨.operator .hash, "main.cs", 1, 1, 1, false⟩ true
        (⟨.directive .error, "main.cs", 1, 6, 5, false⟩ ::
          [⟨.identifier ⟨11, "x"⟩, "main.cs", 1, 12, 1, false⟩]) :: [] := by
    rw [← whole.tokens_eq, isSplit]
    simp [SourceItem.ofTokens, Part.token?, Token.isOperator, Token.isSignificant,
      Token.isWhitespace, Token.isComment]
  have kept := keepsMessages output _ _ _ preprocessed tokenized whole _ _ _ _ _ _ .error .userError
    _ _ _ _ _ items rfl rfl rfl isSplit
  have lost := userMessages_output reached tokenized preprocessed
    (d := ⟨⟨.directive .error, "main.cs", 1, 6, 5, false⟩, _⟩) items rfl rfl rfl
  rw [lost] at kept
  have message : messageAfter (normalize "#/**/error x".toList)
      ([] ++ [.token ⟨.operator .hash, "main.cs", 1, 1, 1, false⟩ ['#'],
        .token ⟨.blockComment ⟨3, ""⟩, "main.cs", 1, 2, 4, false⟩ ['/', '*', '*', '/']]) .error =
      "x" := rfl
  simp only [message] at kept
  have same : DiagnosticKind.userError "" = .userError "x" :=
    congrArg Diagnostic.kind (List.cons.inj kept).1
  exact absurd (DiagnosticKind.userError.inj same) (by decide)

end SharpFront
