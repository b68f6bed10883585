import SharpFront.Preprocess.Run
import SharpFront.Proofs.Form.LastLine
import SharpFront.Proofs.Preprocess.Item
import SharpFront.Proofs.Scan.LongestMatch

/-!
# The lines that begin with a directive

Tokens that go over the end of a line are blanks, block comments and verbatim strings. The tokens of
a text come line by line, so every line has one directive at most, and it takes in all that starts
on the line behind its `#`. Lines have no bound here; `Checked.tokenize_eq_ok` is for lines that are
counted in 32 bits.

* `spansLines_of_recognize`: the tokens that go over the end of a line;
* `HashLine`, `hashLines`: the directive lines of some tokens;
* `HashLine.carryOut`, `state_run`: a run carries them out, one after the other;
* `hashLines_increasing`, `body_of_mem_hashLines`: no line comes twice, and each has a whole body;
* `exists_mem_hashLines`: no line with a `#` is left out;
* `run_hashLines`: what holds of every text and every run over its tokens.
-/

namespace SharpFront

/-! ## Tokens over several lines -/

/-- Tokens of this kind can go over the end of a line. -/
def Token.spansLines : Token → Bool
  | whitespace | blockComment _ | verbatimString _ => true
  | _ => false

theorem Form.spansLines_of_recognize {form : Form} {followsHash : Nat → Bool} {place : Place}
    {text : List Char} {l : Lexeme} (inCatalog : form ∈ defaultCatalog)
    (h : form.recognize followsHash place text = some l) (hasFeed : '\n' ∈ l.text) :
    l.token.spansLines = true := by
  cases spans : form.spansLines with
  | false => exact absurd hasFeed (notMem_feed_of_recognize h spans)
  | true =>
    cases recognized_of_recognize h with
    | whitespace | blockComment | openComment | verbatimString | openVerbatim => rfl
    | pattern => simp [defaultCatalog] at inCatalog
    | _ => cases spans

theorem ArePartsOf.spansLines {source : List Char} {tokens : List PositionedToken}
    {diagnostics : Diagnostics} {parts : List Part}
    (whole : ArePartsOf source tokens diagnostics parts) {t : PositionedToken} {text : List Char}
    (isPart : .token t text ∈ parts) (hasFeed : '\n' ∈ text) : t.token.spansLines = true := by
  obtain ⟨before, after, isSplit⟩ := List.append_of_mem isPart
  obtain ⟨-, -, -, -, form, inCatalog, l, found, isToken, rfl⟩ :=
    whole.stands before _ after isSplit
  exact isToken ▸ Form.spansLines_of_recognize inCatalog found hasFeed

/-! ## Directive lines -/

/-- The `#` of a directive line, whether it leads the line, and what is behind it, blanks and
comments left out. -/
structure HashLine where
  hash : PositionedToken
  leads : Bool
  body : List PositionedToken
  deriving DecidableEq, Repr

def SourceItem.hashLine? : SourceItem → Option HashLine
  | token _ => none
  | directive hash leads body => some ⟨hash, leads, body⟩

/-- The directive lines of a text, in order. -/
def hashLines (tokens : List PositionedToken) : List HashLine :=
  (SourceItem.ofTokens none tokens).filterMap SourceItem.hashLine?

/-- Reports the `#` that does not lead its line, and runs the directive. -/
def HashLine.carryOut (line : HashLine) (table : DirectiveTable) (s : PreprocessState) :
    PreprocessState :=
  table.dispatch line.hash line.body
    (if line.leads then s else s.report (line.hash.report .notFirstCharacter))

theorem mem_hashLines_iff {tokens : List PositionedToken} {line : HashLine} :
    line ∈ hashLines tokens ↔
      .directive line.hash line.leads line.body ∈ SourceItem.ofTokens none tokens := by
  rw [hashLines, List.mem_filterMap]
  constructor
  · rintro ⟨item, isItem, isLine⟩
    cases item with
    | token t => cases isLine
    | directive hash leads body =>
      cases isLine
      exact isItem
  · intro isItem
    exact ⟨_, isItem, rfl⟩

/-! ## Runs -/

/-- Nothing but the directive lines among items acts on the state. -/
theorem PreprocessState.steps_fst (table : DirectiveTable) (s : PreprocessState)
    (items : List SourceItem) :
    (s.steps table items).1 =
      (items.filterMap SourceItem.hashLine?).foldl (fun s line => line.carryOut table s) s := by
  induction items generalizing s with
  | nil => rfl
  | cons item items ih =>
    cases item with
    | token t => exact ih s
    | directive hash leads body => exact ih (HashLine.carryOut ⟨hash, leads, body⟩ table s)

theorem Preprocessor.state_run (p : Preprocessor) (tokens : List PositionedToken) :
    (p.setInput tokens).run.1.state =
      ((hashLines tokens).foldl (fun s line => line.carryOut p.table s)
        (p.setInput tokens).state).finish tokens :=
  congrArg (PreprocessState.finish · tokens) (PreprocessState.steps_fst p.table _ _)

/-! ## Lines in order -/

theorem hashLines_increasing {tokens : List PositionedToken} (h : InLines tokens) :
    (hashLines tokens).Pairwise fun a b => a.hash.line < b.hash.line := by
  refine (SourceItem.ofTokens_inOrder h).filterMap _ ?_
  intro item other ⟨_, apart⟩ line isLine line' isLine'
  cases item with
  | token t => cases isLine
  | directive hash leads body =>
    cases other with
    | token t => cases isLine'
    | directive hash' leads' body' =>
      cases isLine
      cases isLine'
      exact apart rfl

theorem body_of_mem_hashLines {tokens : List PositionedToken} (h : InLines tokens)
    {line : HashLine} (isLine : line ∈ hashLines tokens) :
    line.hash.token.isOperator .hash = true ∧
      ∃ before after, tokens = before ++ line.hash :: after ∧
        line.body = after.filter fun t => t.token.isSignificant && t.line == line.hash.line := by
  obtain ⟨before, after, rfl, -, isHash, body⟩ :=
    SourceItem.exists_body_of_mem_ofTokens (mem_hashLines_iff.mp isLine)
  refine ⟨isHash, before, after, rfl, ?_⟩
  rw [body, SourceItem.takeWhile_sameLine (List.pairwise_append.mp h).2.1, List.filter_filter]

/-- The first `#` on a line is that of a directive line. -/
theorem exists_mem_hashLines {tokens before after : List PositionedToken} {hash : PositionedToken}
    (h : InLines tokens) (isSplit : tokens = before ++ hash :: after)
    (isHash : hash.token.isOperator .hash = true)
    (isFirst : ∀ t ∈ before, t.token.isOperator .hash = true → t.line ≠ hash.line) :
    ∃ leads, ⟨hash, leads,
      after.filter fun t => t.token.isSignificant && t.line == hash.line⟩ ∈ hashLines tokens := by
  obtain ⟨leads, isItem⟩ := SourceItem.exists_directive_mem_ofTokens h isSplit isHash isFirst
  exact ⟨leads, mem_hashLines_iff.mpr isItem⟩

/-! ## The whole text -/

/-- **One directive a line, with all that starts on it.** Only blanks, block comments and verbatim
strings go over the end of a line, and no token starts on an earlier line than one before it. What a
run does to its state is to carry out the directive lines, whatever the handlers. Each stands on a
later line than those before it, and its body is what starts on its line behind the `#`, blanks and
comments left out. The first `#` on a line always has a directive line. -/
theorem run_hashLines (raw file : String) :
    ∃ tokens diagnostics parts, tokenize raw file = .ok (tokens, diagnostics) ∧
      ArePartsOf (normalize raw.toList) tokens diagnostics parts ∧
      (∀ t text, .token t text ∈ parts → '\n' ∈ text → t.token.spansLines = true) ∧
      InLines tokens ∧
      (∀ p : Preprocessor, (p.setInput tokens).run.1.state =
        ((hashLines tokens).foldl (fun s line => line.carryOut p.table s)
          (p.setInput tokens).state).finish tokens) ∧
      (hashLines tokens).Pairwise (fun a b => a.hash.line < b.hash.line) ∧
      (∀ line ∈ hashLines tokens, line.hash.token.isOperator .hash = true ∧
        ∃ before after, tokens = before ++ line.hash :: after ∧
          line.body = after.filter fun t => t.token.isSignificant && t.line == line.hash.line) ∧
      ∀ before hash after, tokens = before ++ hash :: after →
        hash.token.isOperator .hash = true →
        (∀ t ∈ before, t.token.isOperator .hash = true → t.line ≠ hash.line) →
        ∃ leads, ⟨hash, leads, after.filter fun t =>
          t.token.isSignificant && t.line == hash.line⟩ ∈ hashLines tokens := by
  obtain ⟨s, reached, atEnd, tokenized⟩ := exists_scan raw file
  have inLines := reached.inLines file
  have whole := (reached.divides file).arePartsOf reached atEnd
  exact ⟨_, _, _, tokenized, whole, fun _ _ => whole.spansLines, inLines,
    fun p => p.state_run _, hashLines_increasing inLines, fun _ => body_of_mem_hashLines inLines,
    fun _ _ _ => exists_mem_hashLines inLines⟩

/-- The tokens of a line that ends within a comment, up to the end of the comment. -/
def openedLine : List PositionedToken :=
  [⟨.operator .hash, "main.cs", 1, 1, 1, false⟩, ⟨.directive .ifWord, "main.cs", 1, 2, 2, false⟩,
    ⟨.whitespace, "main.cs", 1, 4, 1, false⟩, ⟨.identifier ⟨4, "A"⟩, "main.cs", 1, 5, 1, false⟩,
    ⟨.whitespace, "main.cs", 1, 6, 1, false⟩, ⟨.blockComment ⟨8, "\n"⟩, "main.cs", 1, 7, 5, false⟩,
    ⟨.whitespace, "main.cs", 2, 3, 1, false⟩]

/-- The tokens of the line in which the comment ends. -/
def closedLine : List PositionedToken :=
  [⟨.operator .hash, "main.cs", 2, 4, 1, false⟩, ⟨.directive .endif, "main.cs", 2, 5, 5, false⟩]

/-- A comment goes over to the second line, whose `#` does not lead it and still has a directive. -/
theorem run_hashLines_comment :
    ∃ tokens diagnostics, tokenize "#if A /*\n*/ #endif" "main.cs" = .ok (tokens, diagnostics) ∧
      ∃ first ∈ hashLines tokens, ∃ second ∈ hashLines tokens,
        first.hash.line = 1 ∧
        first.body.map (·.token) = [.directive .ifWord, .identifier ⟨4, "A"⟩] ∧
        second.hash.line = 2 ∧ second.hash.column = 4 ∧
        second.body.map (·.token) = [.directive .endif] := by
  have scanned := tokenize_guided "main.cs" "#if A /*\n*/ #endif"
    [.operator .hash, .word, .whitespace, .word, .whitespace, .blockComment, .whitespace,
      .operator .hash, .word]
    (openedLine ++ closedLine) (by decide) (by decide_cbv) (by cbv) rfl
  obtain ⟨tokens, found, -, tokenized, -, -, -, -, -, -, begins⟩ :=
    run_hashLines "#if A /*\n*/ #endif" "main.cs"
  obtain rfl : tokens = openedLine ++ closedLine :=
    congrArg Prod.fst (Except.ok.inj (tokenized.symm.trans scanned))
  obtain ⟨leads, isFirst⟩ :=
    begins [] ⟨.operator .hash, "main.cs", 1, 1, 1, false⟩ _ rfl rfl (by decide)
  obtain ⟨leads', isSecond⟩ :=
    begins openedLine ⟨.operator .hash, "main.cs", 2, 4, 1, false⟩ _ rfl rfl (by decide)
  exact ⟨_, found, tokenized, _, isFirst, _, isSecond, rfl, rfl, rfl, rfl, rfl⟩

end SharpFront
