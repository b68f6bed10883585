import SharpFront.Condition.Expression

/-!
# The grammar of conditions

A condition is a term followed by any number of connectives, each with a term after it; a term is a
word or a condition in parentheses:

* `Expr`, `Chain`, `Operand`: derivation trees, with the tokens that they derive and their values;
* `Expr.evaluate_tokens`: what is derived is evaluated without a report, from left to right;
* `holds_readFrom`: as long as nothing is reported, the groups being read spell out the tokens seen;
* `evaluate_reports_eq_nil_iff`: nothing is reported of derivable conditions only.
-/

namespace SharpFront.Condition

def Connective.token : Connective → Token
  | conj => .operator .and
  | disj => .operator .or

/-- The tokens that are words of a condition. -/
inductive IsWord : Token → Prop where
  | identifier (text : Span) : IsWord (.identifier text)
  | keyword (word : String) : IsWord (.keyword word)
  | directive (d : Directive) : IsWord (.directive d)
  | directiveMessage (d : Directive) (text : Span) : IsWord (.directiveMessage d text)

/-- `true` and `false` are constants, another word is true when it is defined. -/
def wordValue (defined : String → Bool) : Token → Bool
  | .keyword "true" => true
  | .keyword "false" => false
  | .keyword word => defined word
  | .identifier text => defined text.text
  | .directive d | .directiveMessage d _ => defined d.word
  | _ => false

/-! ## Derivation trees -/

mutual

inductive Expr where
  | mk (first : Operand) (more : Chain)

/-- Connectives, each with the term after it. -/
inductive Chain where
  | done
  | next (o : Connective) (sign : PositionedToken) (isSign : sign.token = o.token)
    (operand : Operand) (more : Chain)

inductive Operand where
  | word (t : PositionedToken) (isWord : IsWord t.token)
  | group (opener : PositionedToken) (isOpener : opener.token = .brace .parenOpen) (inner : Expr)
    (closer : PositionedToken) (isCloser : closer.token = .brace .parenClose)

end

mutual

def Expr.tokens : Expr → List PositionedToken
  | .mk first more => first.tokens ++ more.tokens

def Chain.tokens : Chain → List PositionedToken
  | .done => []
  | .next _ sign _ operand more => sign :: (operand.tokens ++ more.tokens)

def Operand.tokens : Operand → List PositionedToken
  | .word t _ => [t]
  | .group opener _ inner closer _ => opener :: (inner.tokens ++ [closer])

end

mutual

def Expr.value (defined : String → Bool) : Expr → Bool
  | .mk first more => more.value defined (first.value defined)

/-- Takes the terms one after the other to the value of what stands before them, be it by `&&` or by
`||`. -/
def Chain.value (defined : String → Bool) : Chain → Bool → Bool
  | .done, b => b
  | .next .conj _ _ operand more, b => more.value defined (b && operand.value defined)
  | .next .disj _ _ operand more, b => more.value defined (b || operand.value defined)

def Operand.value (defined : String → Bool) : Operand → Bool
  | .word t _ => wordValue defined t.token
  | .group _ _ inner _ _ => inner.value defined

end

theorem Operand.tokens_ne_nil (t : Operand) : t.tokens ≠ [] := by
  cases t <;> simp [Operand.tokens]

theorem Expr.tokens_ne_nil (e : Expr) : e.tokens ≠ [] := by
  cases e with
  | mk first more => simp [Expr.tokens, first.tokens_ne_nil]

variable {defined : String → Bool}

/-! ## Single tokens -/

theorem term?_connective (o : Connective) : term? defined o.token = some (.connective o) := by
  cases o <;> rfl

theorem isWord_iff {t : Token} : IsWord t ↔ t.word?.isSome = true := by
  constructor
  · rintro (_ | _ | _ | _) <;> rfl
  · intro isSome
    cases t with
    | identifier text => exact .identifier text
    | keyword word => exact .keyword word
    | directive d => exact .directive d
    | directiveMessage d text => exact .directiveMessage d text
    | _ => cases isSome

theorem wordValue_of_word? {t : Token} {w : String} (isWord : t.word? = some w)
    (notTrue : w ≠ "true") (notFalse : w ≠ "false") : wordValue defined t = defined w := by
  cases t with
  | identifier | directive | directiveMessage =>
    cases isWord
    rfl
  | keyword =>
    cases isWord
    simp only [wordValue]
  | _ => cases isWord

theorem term?_word {t : Token} (h : t.word?.isSome = true) :
    term? defined t = some (.value (wordValue defined t)) := by
  unfold term?
  split
  · cases h
  · cases h
  · rfl
  · rfl
  · next noTrue noFalse =>
    obtain ⟨word, isWord⟩ := Option.isSome_iff_exists.mp h
    rw [isWord, Option.map_some]
    cases t with
    | identifier | directive | directiveMessage =>
      cases isWord
      rfl
    | keyword =>
      cases isWord
      have notTrue : word ≠ "true" := fun isTrue => noTrue (isTrue ▸ rfl)
      have notFalse : word ≠ "false" := fun isFalse => noFalse (isFalse ▸ rfl)
      rw [wordValue_of_word? rfl notTrue notFalse]
    | _ => cases isWord

/-- What a token stands for says what it is. -/
theorem term?_eq_some {t : Token} {term : Term} (h : term? defined t = some term) :
    (∃ o, term = .connective o ∧ t = o.token) ∨
    (term = .value (wordValue defined t) ∧ t.word?.isSome = true) := by
  by_cases isWord : t.word?.isSome = true
  · rw [term?_word isWord] at h
    exact .inr ⟨(Option.some.inj h).symm, isWord⟩
  · refine .inl ?_
    unfold term? at h
    split at h
    · exact ⟨.conj, (Option.some.inj h).symm, rfl⟩
    · exact ⟨.disj, (Option.some.inj h).symm, rfl⟩
    · exact absurd rfl isWord
    · exact absurd rfl isWord
    · rw [Option.not_isSome_iff_eq_none.mp isWord] at h
      cases h

/-! ## Reading on from some token -/

def Reading.readFrom (defined : String → Bool) (r : Reading) (n : Nat)
    (tokens : List PositionedToken) : Reading :=
  (tokens.zipIdx n).foldl (Reading.step defined) r

theorem readFrom_nil (r : Reading) (n : Nat) : r.readFrom defined n [] = r := rfl

theorem readFrom_cons (r : Reading) (n : Nat) (t : PositionedToken) (ts : List PositionedToken) :
    r.readFrom defined n (t :: ts) = (r.step defined (t, n)).readFrom defined (n + 1) ts := rfl

theorem readFrom_append (r : Reading) (n : Nat) (xs ys : List PositionedToken) :
    r.readFrom defined n (xs ++ ys) =
      (r.readFrom defined n xs).readFrom defined (n + xs.length) ys := by
  unfold Reading.readFrom
  rw [List.zipIdx_append, List.foldl_append]

def Reading.add (r : Reading) (term : PlacedTerm) : Reading :=
  { r with group := r.group.add term }

theorem step_opener (r : Reading) (n : Nat) {t : PositionedToken}
    (h : t.token = .brace .parenOpen) :
    r.step defined (t, n) =
      { r with group := { opener := some (n, t) }, outer := r.group :: r.outer } := by
  simp only [Reading.step, h, Token.isBrace, beq_self_eq_true, if_true]

theorem step_closer (r : Reading) (n : Nat) {t : PositionedToken} {parent : Group}
    {outer : List Group} (h : t.token = .brace .parenClose) (isInner : r.outer = parent :: outer) :
    r.step defined (t, n) =
      { group := parent.add (.value (Reading.closeGroup r.group n).1, t), outer,
        reports := (Reading.closeGroup r.group n).2.reverse ++ r.reports } := by
  have notOpener : (Token.brace .parenClose == Token.brace .parenOpen) = false := by decide
  simp only [Reading.step, h, Token.isBrace, notOpener, beq_self_eq_true, if_true,
    Bool.false_eq_true, if_false, isInner]

theorem step_closer_of_whole (r : Reading) (n : Nat) {t : PositionedToken}
    (h : t.token = .brace .parenClose) (isWhole : r.outer = []) :
    r.step defined (t, n) = r.report (t.report .invalidExpression) := by
  have notOpener : (Token.brace .parenClose == Token.brace .parenOpen) = false := by decide
  simp only [Reading.step, h, Token.isBrace, notOpener, beq_self_eq_true, if_true,
    Bool.false_eq_true, if_false, isWhole]

/-- Parentheses are not words. -/
theorem step_plain (r : Reading) (n : Nat) {t : PositionedToken}
    (h : t.token ≠ .brace .parenOpen) (h' : t.token ≠ .brace .parenClose) :
    r.step defined (t, n) =
      match term? defined t.token with
      | some term => r.add (term, t)
      | none => r.report (t.report .invalidExpression) := by
  have notOpener : t.token.isBrace .parenOpen = false := beq_eq_false_iff_ne.mpr h
  have notCloser : t.token.isBrace .parenClose = false := beq_eq_false_iff_ne.mpr h'
  simp only [Reading.step, notOpener, notCloser, Bool.false_eq_true, if_false]
  rfl

theorem step_term (r : Reading) (n : Nat) {t : PositionedToken} {term : Term}
    (h : term? defined t.token = some term) : r.step defined (t, n) = r.add (term, t) := by
  have notOpener : t.token ≠ .brace .parenOpen := fun isOpener => by
    rw [isOpener] at h
    cases h
  have notCloser : t.token ≠ .brace .parenClose := fun isCloser => by
    rw [isCloser] at h
    cases h
  rw [step_plain r n notOpener notCloser, h]

/-- What the token at index `n` can do to a reading. -/
inductive Reading.Stepped (defined : String → Bool) (r : Reading) (n : Nat) (t : PositionedToken) :
    Reading → Prop where
  | opened (isOpener : t.token = .brace .parenOpen) :
    Stepped defined r n t
      { r with group := { opener := some (n, t) }, outer := r.group :: r.outer }
  | closed {parent outer} (isCloser : t.token = .brace .parenClose)
    (isInner : r.outer = parent :: outer) :
    Stepped defined r n t
      { group := parent.add (.value (closeGroup r.group n).1, t), outer,
        reports := (closeGroup r.group n).2.reverse ++ r.reports }
  | strayCloser (isCloser : t.token = .brace .parenClose) (isWhole : r.outer = []) :
    Stepped defined r n t (r.report (t.report .invalidExpression))
  | added {term} (notOpener : t.token ≠ .brace .parenOpen)
    (notCloser : t.token ≠ .brace .parenClose) (isTerm : term? defined t.token = some term) :
    Stepped defined r n t (r.add (term, t))
  | alien (notOpener : t.token ≠ .brace .parenOpen) (notCloser : t.token ≠ .brace .parenClose)
    (notTerm : term? defined t.token = none) :
    Stepped defined r n t (r.report (t.report .invalidExpression))

theorem stepped_step (defined : String → Bool) (r : Reading) (n : Nat) (t : PositionedToken) :
    r.Stepped defined n t (r.step defined (t, n)) := by
  by_cases isOpener : t.token = .brace .parenOpen
  · rw [step_opener r n isOpener]
    exact .opened isOpener
  by_cases isCloser : t.token = .brace .parenClose
  · cases isInner : r.outer with
    | nil =>
      rw [step_closer_of_whole r n isCloser isInner]
      exact .strayCloser isCloser isInner
    | cons parent outer =>
      rw [step_closer r n isCloser isInner]
      exact .closed isCloser isInner
  · rw [step_plain r n isOpener isCloser]
    cases isTerm : term? defined t.token with
    | none => exact .alien isOpener isCloser isTerm
    | some term => exact .added isOpener isCloser isTerm

/-! ## What is derived is read without a report -/

/-- The token that a report about a term points at. -/
def Operand.place : Operand → PositionedToken
  | .word t _ => t
  | .group _ _ _ closer _ => closer

def Operand.term (defined : String → Bool) (t : Operand) : PlacedTerm :=
  (.value (t.value defined), t.place)

def Chain.terms (defined : String → Bool) : Chain → List PlacedTerm
  | .done => []
  | .next o sign _ operand more =>
    (.connective o, sign) :: operand.term defined :: more.terms defined

def Expr.terms (defined : String → Bool) : Expr → List PlacedTerm
  | .mk first more => first.term defined :: more.terms defined

theorem Chain.foldTerms_terms (c : Chain) (b : Bool) :
    foldTerms (.value b) (c.terms defined) = (c.value defined b, []) := by
  cases c with
  | done => rfl
  | next o sign isSign operand more =>
    cases o with
    | conj => exact more.foldTerms_terms (b && operand.value defined)
    | disj => exact more.foldTerms_terms (b || operand.value defined)

theorem Expr.foldTerms_terms (e : Expr) :
    foldTerms .start (e.terms defined) = (e.value defined, []) := by
  cases e with
  | mk first more => exact more.foldTerms_terms (first.value defined)

theorem foldl_add (r : Reading) (terms : List PlacedTerm) :
    terms.foldl Reading.add r = { r with group.terms := terms.reverse ++ r.group.terms } := by
  induction terms generalizing r with
  | nil => rfl
  | cons term terms ih =>
    rw [List.foldl_cons, ih]
    simp only [Reading.add, Group.add, List.reverse_cons, List.append_assoc, List.cons_append,
      List.nil_append]

mutual

theorem Expr.readFrom_tokens (e : Expr) (r : Reading) (n : Nat) :
    r.readFrom defined n e.tokens = (e.terms defined).foldl Reading.add r := by
  cases e with
  | mk first more =>
    rw [Expr.tokens, readFrom_append, first.readFrom_tokens, more.readFrom_tokens]
    rfl

theorem Chain.readFrom_tokens (c : Chain) (r : Reading) (n : Nat) :
    r.readFrom defined n c.tokens = (c.terms defined).foldl Reading.add r := by
  cases c with
  | done => rfl
  | next o sign isSign operand more =>
    have read : r.step defined (sign, n) = r.add (.connective o, sign) :=
      step_term r n (by rw [isSign, term?_connective])
    rw [Chain.tokens, readFrom_cons, read, readFrom_append, operand.readFrom_tokens,
      more.readFrom_tokens]
    rfl

theorem Operand.readFrom_tokens (t : Operand) (r : Reading) (n : Nat) :
    r.readFrom defined n t.tokens = r.add (t.term defined) := by
  cases t with
  | word t isWord =>
    rw [Operand.tokens, readFrom_cons, readFrom_nil,
      step_term r n (term?_word (isWord_iff.mp isWord))]
    rfl
  | group opener isOpener inner closer isCloser =>
    rw [Operand.tokens, readFrom_cons, step_opener r n isOpener, readFrom_append,
      inner.readFrom_tokens, readFrom_cons, readFrom_nil, foldl_add,
      step_closer _ _ isCloser rfl]
    have notEmpty : n + 1 ≠ n + 1 + inner.tokens.length := by
      have := List.length_pos_iff.mpr inner.tokens_ne_nil
      omega
    simp only [Reading.closeGroup, notEmpty, if_false, List.append_nil, List.reverse_reverse,
      inner.foldTerms_terms, List.reverse_nil, List.nil_append]
    rfl

end

/-! ## Open parentheses -/

theorem trackDepth_opener (state : Nat × Nat) (n : Nat) {t : PositionedToken}
    (h : t.token = .brace .parenOpen) :
    trackDepth state (t, n) = (state.1 + 1, if state.1 = 0 then n else state.2) := by
  simp only [trackDepth, h, Token.isBrace, beq_self_eq_true, if_true]

theorem trackDepth_closer (state : Nat × Nat) (n : Nat) {t : PositionedToken}
    (h : t.token = .brace .parenClose) : trackDepth state (t, n) = (state.1 - 1, state.2) := by
  have notOpener : (Token.brace .parenClose == Token.brace .parenOpen) = false := by decide
  simp only [trackDepth, h, Token.isBrace, notOpener, beq_self_eq_true, if_true,
    Bool.false_eq_true, if_false]

theorem trackDepth_plain (state : Nat × Nat) (n : Nat) {t : PositionedToken}
    (h : t.token ≠ .brace .parenOpen) (h' : t.token ≠ .brace .parenClose) :
    trackDepth state (t, n) = state := by
  simp only [trackDepth, Token.isBrace, beq_iff_eq, h, h', if_false]

/-- What opens or closes a group while the condition is read does so for the depth as well. -/
theorem trackDepth_fst (r : Reading) (state : Nat × Nat) (n : Nat) (t : PositionedToken)
    (h : state.1 = r.outer.length) :
    (trackDepth state (t, n)).1 = (r.step defined (t, n)).outer.length := by
  have stepped := stepped_step defined r n t
  generalize r.step defined (t, n) = next at stepped ⊢
  cases stepped with
  | opened isOpener =>
    rw [trackDepth_opener state n isOpener, List.length_cons, h]
  | closed isCloser isInner =>
    rw [trackDepth_closer state n isCloser, h, isInner, List.length_cons, Nat.add_sub_cancel]
  | strayCloser isCloser isWhole =>
    rw [trackDepth_closer state n isCloser, h, Reading.report, isWhole, List.length_nil]
  | added notOpener notCloser =>
    rw [trackDepth_plain state n notOpener notCloser, h]
    rfl
  | alien notOpener notCloser =>
    rw [trackDepth_plain state n notOpener notCloser, h]
    rfl

theorem foldl_trackDepth_fst (tokens : List PositionedToken) (r : Reading) (state : Nat × Nat)
    (n : Nat) (h : state.1 = r.outer.length) :
    ((tokens.zipIdx n).foldl trackDepth state).1 =
      (r.readFrom defined n tokens).outer.length :=
  List.foldl_rel (r := fun state (r : Reading) => state.1 = r.outer.length) h
    fun entry _ state r same => trackDepth_fst r state entry.2 entry.1 same

/-- While some `(` is open, the outermost one has been seen. -/
theorem foldl_trackDepth_snd (tokens : List PositionedToken) (state : Nat × Nat) (n : Nat)
    (h : 0 < state.1 → state.2 < n) :
    0 < ((tokens.zipIdx n).foldl trackDepth state).1 →
      ((tokens.zipIdx n).foldl trackDepth state).2 < n + tokens.length := by
  induction tokens generalizing state n with
  | nil => exact h
  | cons t tokens ih =>
    have seen : 0 < (trackDepth state (t, n)).1 → (trackDepth state (t, n)).2 < n + 1 := by
      simp only [trackDepth]
      split
      · split
        · intro _
          exact Nat.lt_succ_self n
        · intro _
          have := h (by omega)
          omega
      · split
        · intro depth
          have := h (by omega)
          omega
        · intro depth
          have := h depth
          omega
    intro depth
    have := ih (trackDepth state (t, n)) (n + 1) seen depth
    simp only [List.zipIdx_cons, List.foldl_cons, List.length_cons]
    omega

theorem unclosed?_eq_none_iff (defined : String → Bool) (tokens : List PositionedToken) :
    unclosed? tokens = none ↔ (Reading.read defined tokens).outer = [] := by
  have depth : (tokens.zipIdx.foldl trackDepth (0, 0)).1 =
      (Reading.readFrom defined {} 0 tokens).outer.length :=
    foldl_trackDepth_fst tokens {} (0, 0) 0 rfl
  rw [← List.length_eq_zero_iff]
  simp only [unclosed?, Reading.read, Reading.readFrom] at depth ⊢
  rw [depth]
  split
  · next isOpen => exact ⟨nofun, by omega⟩
  · next isClosed =>
    refine ⟨?_, ?_⟩
    · intro _
      omega
    · intro _
      rfl

theorem lt_of_unclosed? {tokens : List PositionedToken} {start : Nat}
    (h : unclosed? tokens = some start) : start < tokens.length := by
  simp only [unclosed?] at h
  split at h
  · next isOpen =>
    have seen := foldl_trackDepth_snd tokens (0, 0) 0 (nofun) isOpen
    rw [← Option.some.inj h]
    omega
  · cases h

theorem Expr.evaluate_tokens (e : Expr) (anchor : PositionedToken) :
    evaluate defined e.tokens anchor = (e.value defined, []) := by
  have read : Reading.read defined e.tokens = (e.terms defined).foldl Reading.add {} :=
    e.readFrom_tokens {} 0
  rw [foldl_add] at read
  have closed : unclosed? e.tokens = none := (unclosed?_eq_none_iff defined e.tokens).mpr (by
    rw [read])
  have notEmpty : e.tokens.isEmpty = false := List.isEmpty_eq_false_iff.mpr e.tokens_ne_nil
  simp only [evaluate, notEmpty, closed, read, Bool.false_eq_true, if_false, List.append_nil,
    List.reverse_reverse, e.foldTerms_terms, List.reverse_nil]

/-- A condition that is one word has the value of the word, unless that is a constant. -/
theorem evaluate_word {t : PositionedToken} {w : String} (isWord : t.token.word? = some w)
    (notTrue : w ≠ "true") (notFalse : w ≠ "false") (anchor : PositionedToken) :
    evaluate defined [t] anchor = (defined w, []) := by
  have value : wordValue defined t.token = defined w :=
    wordValue_of_word? isWord notTrue notFalse
  rw [← value]
  exact Expr.evaluate_tokens
    (.mk (.word t (isWord_iff.mpr (Option.isSome_of_eq_some isWord))) .done) anchor

/-! ## What is read without a report is derived -/

/-- A term stands for the tokens of a connective or of an operand. Whether the operand has the value
of the term does not matter to what is reported. -/
def Piece (term : PlacedTerm) (tokens : List PositionedToken) : Prop :=
  match term.1 with
  | .connective o => ∃ sign : PositionedToken, sign.token = o.token ∧ tokens = [sign]
  | .value _ => ∃ t : Operand, t.tokens = tokens

inductive Spells : List PlacedTerm → List PositionedToken → Prop where
  | nil : Spells [] []
  | cons {term terms piece tokens} (head : Piece term piece) (tail : Spells terms tokens) :
    Spells (term :: terms) (piece ++ tokens)

theorem Spells.concat {terms : List PlacedTerm} {tokens : List PositionedToken} {term : PlacedTerm}
    {piece : List PositionedToken} (h : Spells terms tokens) (last : Piece term piece) :
    Spells (terms ++ [term]) (tokens ++ piece) := by
  induction h with
  | nil => simpa using Spells.cons last .nil
  | cons head _ ih =>
    rw [List.append_assoc]
    exact .cons head ih

theorem Spells.of_cons {term : PlacedTerm} {terms : List PlacedTerm}
    {tokens : List PositionedToken} (h : Spells (term :: terms) tokens) :
    ∃ piece rest, tokens = piece ++ rest ∧ Piece term piece ∧ Spells terms rest := by
  cases h with
  | cons head tail => exact ⟨_, _, rfl, head, tail⟩

theorem exists_chain (b : Bool) : ∀ {terms : List PlacedTerm} {tokens : List PositionedToken},
    Spells terms tokens → (foldTerms (.value b) terms).2 = [] → ∃ c : Chain, c.tokens = tokens
  | [], tokens, h, _ => by
    cases h
    exact ⟨.done, rfl⟩
  | (.value _, _) :: _, _, _, noReport => nomatch noReport
  | [(.connective _, _)], _, _, noReport => nomatch noReport
  | (.connective _, _) :: (.connective _, _) :: _, _, _, noReport => nomatch noReport
  | (.connective o, _) :: (.value c, _) :: terms, tokens, h, noReport => by
    obtain ⟨_, _, rfl, ⟨sign, isSign, rfl⟩, afterSign⟩ := h.of_cons
    obtain ⟨_, _, rfl, ⟨operand, rfl⟩, afterOperand⟩ := afterSign.of_cons
    obtain ⟨more, rfl⟩ := exists_chain (o.apply b c) afterOperand noReport
    exact ⟨.next o sign isSign operand more, rfl⟩

theorem exists_expr {terms : List PlacedTerm} {tokens : List PositionedToken}
    (h : Spells terms tokens) (notEmpty : tokens ≠ [])
    (noReport : (foldTerms .start terms).2 = []) : ∃ e : Expr, e.tokens = tokens := by
  match terms with
  | [] =>
    cases h
    exact absurd rfl notEmpty
  | (.connective _, _) :: _ => exact nomatch noReport
  | (.value b, _) :: terms =>
    obtain ⟨_, rest, rfl, ⟨first, rfl⟩, spelled⟩ := h.of_cons
    obtain ⟨more, rfl⟩ := exists_chain b spelled noReport
    exact ⟨.mk first more, rfl⟩

/-- The groups being read spell out the tokens seen, the outer ones up to the `(` of the next. -/
inductive Holds : Group → List Group → List PositionedToken → Prop where
  | whole {terms seen} (inside : Spells terms.reverse seen) :
    Holds { opener := none, terms } [] seen
  | nested {terms parent outer before opener tokens} (around : Holds parent outer before)
    (isOpener : opener.token = .brace .parenOpen) (inside : Spells terms.reverse tokens) :
    Holds { opener := some (before.length, opener), terms } (parent :: outer)
      (before ++ opener :: tokens)

theorem Holds.add {g : Group} {outer : List Group} {seen piece : List PositionedToken}
    {term : PlacedTerm} (h : Holds g outer seen) (last : Piece term piece) :
    Holds (g.add term) outer (seen ++ piece) := by
  cases h with
  | whole inside =>
    refine .whole ?_
    rw [List.reverse_cons]
    exact inside.concat last
  | nested around isOpener inside =>
    rw [List.append_assoc, List.cons_append]
    refine .nested around isOpener ?_
    rw [List.reverse_cons]
    exact inside.concat last

theorem Holds.opened {g : Group} {outer : List Group} {seen : List PositionedToken}
    {t : PositionedToken} (h : Holds g outer seen) (isOpener : t.token = .brace .parenOpen) :
    Holds { opener := some (seen.length, t) } (g :: outer) (seen ++ [t]) :=
  .nested h isOpener .nil

theorem Holds.closed {g parent : Group} {outer : List Group} {seen : List PositionedToken}
    {t : PositionedToken} (b : Bool) (h : Holds g (parent :: outer) seen)
    (isCloser : t.token = .brace .parenClose)
    (noReport : (Reading.closeGroup g seen.length).2 = []) :
    Holds (parent.add (.value b, t)) outer (seen ++ [t]) := by
  cases h with
  | @nested terms _ _ before opener tokens around isOpener inside =>
    cases tokens with
    | nil => simp [Reading.closeGroup] at noReport
    | cons first rest =>
      simp only [Reading.closeGroup, List.length_append, List.length_cons] at noReport
      rw [if_neg (by omega)] at noReport
      obtain ⟨inner, spelled⟩ := exists_expr inside (List.cons_ne_nil _ _) noReport
      have piece : Piece (.value b, t) (opener :: (inner.tokens ++ [t])) :=
        ⟨.group opener isOpener inner t isCloser, rfl⟩
      rw [List.append_assoc, List.cons_append, ← spelled]
      exact around.add piece

/-! Reports are never taken back. -/

theorem step_reports (r : Reading) (n : Nat) (t : PositionedToken)
    (h : (r.step defined (t, n)).reports = []) : r.reports = [] := by
  have stepped := stepped_step defined r n t
  generalize r.step defined (t, n) = next at stepped h
  cases stepped with
  | opened | added => exact h
  | closed => exact (List.append_eq_nil_iff.mp h).2
  | strayCloser | alien => cases h

theorem readFrom_reports (tokens : List PositionedToken) (r : Reading) (n : Nat)
    (h : (r.readFrom defined n tokens).reports = []) : r.reports = [] := by
  induction tokens generalizing r n with
  | nil => exact h
  | cons t tokens ih => exact step_reports r n t (ih _ _ h)

theorem holds_step {r : Reading} {seen : List PositionedToken} {t : PositionedToken}
    (h : Holds r.group r.outer seen) (noReport : (r.step defined (t, seen.length)).reports = []) :
    Holds (r.step defined (t, seen.length)).group (r.step defined (t, seen.length)).outer
      (seen ++ [t]) := by
  have stepped := stepped_step defined r seen.length t
  generalize r.step defined (t, seen.length) = next at stepped noReport ⊢
  cases stepped with
  | opened isOpener => exact h.opened isOpener
  | closed isCloser isInner =>
    rw [isInner] at h
    have noReport := (List.append_eq_nil_iff.mp noReport).1
    exact h.closed _ isCloser (List.reverse_eq_nil_iff.mp noReport)
  | added _ _ isTerm =>
    refine h.add ?_
    rcases term?_eq_some isTerm with ⟨o, rfl, isSign⟩ | ⟨rfl, isWord⟩
    · exact ⟨t, isSign, rfl⟩
    · exact ⟨.word t (isWord_iff.mpr isWord), rfl⟩
  | strayCloser | alien => cases noReport

theorem holds_readFrom (tokens : List PositionedToken) {r : Reading} {seen : List PositionedToken}
    (h : Holds r.group r.outer seen)
    (noReport : (r.readFrom defined seen.length tokens).reports = []) :
    Holds (r.readFrom defined seen.length tokens).group
      (r.readFrom defined seen.length tokens).outer (seen ++ tokens) := by
  induction tokens generalizing r seen with
  | nil => simpa only [readFrom_nil, List.append_nil] using h
  | cons t tokens ih =>
    rw [readFrom_cons] at noReport ⊢
    have next := holds_step h (readFrom_reports tokens _ _ noReport)
    have length : seen.length + 1 = (seen ++ [t]).length := by rw [List.length_append]; rfl
    rw [length] at noReport ⊢
    rw [List.append_cons seen t tokens]
    exact ih next noReport

/-- Without a report, what was read is an expression. -/
theorem exists_expr_of_evaluate {tokens : List PositionedToken} {anchor : PositionedToken}
    (noReport : (evaluate defined tokens anchor).2 = []) : ∃ e : Expr, e.tokens = tokens := by
  unfold evaluate at noReport
  by_cases isEmpty : tokens.isEmpty = true
  · rw [if_pos isEmpty] at noReport
    cases noReport
  · rw [if_neg isEmpty] at noReport
    cases open? : unclosed? tokens with
    | some start =>
      rw [open?] at noReport
      have unread := (List.append_eq_nil_iff.mp noReport).2
      simp [lt_of_unclosed? open?] at unread
    | none =>
      rw [open?] at noReport
      obtain ⟨noReport, noFault⟩ := List.append_eq_nil_iff.mp noReport
      have isWhole := (unclosed?_eq_none_iff defined tokens).mp open?
      have holds : Holds (Reading.read defined tokens).group (Reading.read defined tokens).outer
          tokens :=
        @holds_readFrom defined tokens {} [] (.whole .nil) (List.reverse_eq_nil_iff.mp noReport)
      rw [isWhole] at holds
      cases readGroup : (Reading.read defined tokens).group with
      | mk opener terms =>
        rw [readGroup] at holds noFault
        cases holds with
        | whole inside =>
          exact exists_expr inside (fun h => isEmpty (List.isEmpty_iff.mpr h)) noFault

/-- **A condition is read as the grammar derives it.** Nothing is reported of one just when there is
a derivation. The value is then that of the derivation: the terms taken from left to right, `&&` and
`||` alike. -/
theorem evaluate_reports_eq_nil_iff (defined : String → Bool) (tokens : List PositionedToken)
    (anchor : PositionedToken) :
    ((evaluate defined tokens anchor).2 = [] ↔ ∃ e : Expr, e.tokens = tokens) ∧
      ∀ e : Expr, e.tokens = tokens →
        (evaluate defined tokens anchor).1 = e.value defined := by
  refine ⟨⟨exists_expr_of_evaluate, ?_⟩, ?_⟩
  · rintro ⟨e, rfl⟩
    rw [e.evaluate_tokens]
  · rintro e rfl
    rw [e.evaluate_tokens]

/-- `#if a || b && (class || region)`, where `&&` takes in what stands before it. -/
theorem evaluate_reports_eq_nil_iff_mixed :
    let t (token : Token) (column length : Nat) : PositionedToken :=
      { token, file := "main.cs", line := 1, column, length }
    let inner : Expr :=
      .mk (.word (t (.keyword "class") 16 5) (.keyword _))
        (.next .disj (t (.operator .or) 22 2) rfl
          (.word (t (.directive .region) 25 6) (.directive _)) .done)
    let e : Expr :=
      .mk (.word (t (.identifier ⟨4, "a"⟩) 5 1) (.identifier _))
        (.next .disj (t (.operator .or) 7 2) rfl
          (.word (t (.identifier ⟨9, "b"⟩) 10 1) (.identifier _))
          (.next .conj (t (.operator .and) 12 2) rfl
            (.group (t (.brace .parenOpen) 15 1) rfl inner (t (.brace .parenClose) 31 1) rfl)
            .done))
    let anchor := t (.directive .ifWord) 2 2
    evaluate (· ∈ ["a"]) e.tokens anchor = (false, []) ∧
      evaluate (· ∈ ["a", "region"]) e.tokens anchor = (true, []) := by
  intro t inner e anchor
  have read (defined : String → Bool) :
      evaluate defined e.tokens anchor = (e.value defined, []) := by
    have grammar := evaluate_reports_eq_nil_iff defined e.tokens anchor
    exact Prod.ext (grammar.2 e rfl) (grammar.1.mpr ⟨e, rfl⟩)
  have onlyA : e.value (· ∈ ["a"]) = false := by decide
  have andRegion : e.value (· ∈ ["a", "region"]) = true := by decide
  exact ⟨onlyA ▸ read _, andRegion ▸ read _⟩

end SharpFront.Condition
