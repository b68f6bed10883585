import Mathlib.Data.List.TakeWhile
import SharpFront.Preprocess.Item
import SharpFront.Proofs.Scan.Lines

/-!
# Dividing tokens into directive lines

* `ofTokens_append`: where the items of a text can be cut in two;
* `of_token_mem_ofTokens`: a token that is kept is one of them and no `#`;
* `exists_body_of_mem_ofTokens`, `exists_word_of_mem_ofTokens`: where the tokens of a directive line
  stand among the others;
* `sublist_of_mem_ofTokens`: they are in their order;
* `exists_directive_mem_ofTokens`: every line with a `#` has a directive;
* `line_of_mem_ofTokens`, `ofTokens_inOrder`: an item stands on the line of one of the tokens, and
  nothing stands on the line of a directive after it;
* `lastLine_eq_some_iff`: a `#` leads its line when no significant token starts on it before.
-/

namespace SharpFront

/-- One of the tokens is a `#` on the line. -/
def hashOn (tokens : List PositionedToken) (line : Nat) : Bool :=
  tokens.any fun t => t.token.isOperator .hash && t.line == line

theorem hashOn_eq_true_iff {tokens : List PositionedToken} {line : Nat} :
    hashOn tokens line = true ↔ ∃ t ∈ tokens, t.token.isOperator .hash = true ∧ t.line = line := by
  simp only [hashOn, List.any_eq_true, Bool.and_eq_true, beq_iff_eq]

theorem hashOn_eq_false_iff {tokens : List PositionedToken} {line : Nat} :
    hashOn tokens line = false ↔ ∀ t ∈ tokens, t.token.isOperator .hash = true → t.line ≠ line := by
  simp only [hashOn, List.any_eq_false, Bool.and_eq_true, beq_iff_eq, not_and, ne_eq]

theorem hashOn_append (xs ys : List PositionedToken) (line : Nat) :
    hashOn (xs ++ ys) line = (hashOn xs line || hashOn ys line) := List.any_append

theorem hashOn_eq_false_of_lt {tokens : List PositionedToken} {line : Nat}
    (h : ∀ t ∈ tokens, t.line < line) : hashOn tokens line = false := by
  refine hashOn_eq_false_iff.mpr ?_
  intro t isToken _
  exact Nat.ne_of_lt (h t isToken)

theorem isSignificant_iff {t : Token} :
    t.isSignificant = true ↔ t.isWhitespace = false ∧ t.isComment = false := by
  simp only [Token.isSignificant, Bool.and_eq_true, Bool.not_eq_true']

theorem isSignificant_of_isHash {t : Token} (h : t.isOperator .hash = true) :
    t.isSignificant = true := by
  rw [eq_of_beq h]
  rfl

namespace SourceItem

/-- The line of the last significant token, where `last` is the one before the tokens. -/
def lastLine (last : Option Nat) (tokens : List PositionedToken) : Option Nat :=
  tokens.foldl (fun last t => if t.token.isSignificant then some t.line else last) last

theorem lastLine_append (last : Option Nat) (xs ys : List PositionedToken) :
    lastLine last (xs ++ ys) = lastLine (lastLine last xs) ys := List.foldl_append

theorem lastLine_cons {t : PositionedToken} (h : t.token.isSignificant = true)
    (last : Option Nat) (rest : List PositionedToken) :
    lastLine last (t :: rest) = lastLine (some t.line) rest := by
  simp only [lastLine, List.foldl_cons, h, if_true]

theorem lastLine_of_sameLine {line : Nat} {tokens : List PositionedToken}
    (h : ∀ t ∈ tokens, t.line = line) : lastLine (some line) tokens = some line := by
  induction tokens with
  | nil => rfl
  | cons t tokens ih =>
    have same : t.line = line := h t List.mem_cons_self
    have rest := ih fun u isLater => h u (List.mem_cons_of_mem t isLater)
    simp only [lastLine, List.foldl_cons, same, ite_self]
    exact rest

/-- Among tokens in lines, only one on the last line can be the last significant one there. -/
theorem lastLine_eq_some_iff {tokens : List PositionedToken} {line : Nat} (h : InLines tokens)
    (upTo : ∀ t ∈ tokens, t.line ≤ line) :
    lastLine none tokens = some line ↔ ∃ t ∈ tokens, t.token.isSignificant = true ∧ t.line = line := by
  induction tokens using List.reverseRecOn with
  | nil => simp [lastLine]
  | append_singleton tokens t ih =>
    obtain ⟨earlier, -, ordered⟩ := List.pairwise_append.mp h
    have rest := ih earlier fun u isEarlier => upTo u (List.mem_append_left _ isEarlier)
    have here : t.line ≤ line := upTo t (by simp)
    rw [lastLine_append]
    by_cases significant : t.token.isSignificant = true
    · simp only [lastLine, List.foldl_cons, List.foldl_nil, significant, if_true, Option.some.injEq]
      constructor
      · intro same
        exact ⟨t, by simp, significant, same⟩
      · rintro ⟨u, isToken, -, same⟩
        rcases List.mem_append.mp isToken with isEarlier | isLast
        · have := ordered u isEarlier t List.mem_cons_self
          omega
        · rw [← List.mem_singleton.mp isLast]
          exact same
    · have skipped : lastLine (lastLine none tokens) [t] = lastLine none tokens := by
        simp [lastLine, significant]
      rw [skipped, rest]
      constructor
      · rintro ⟨u, isEarlier, found⟩
        exact ⟨u, List.mem_append_left _ isEarlier, found⟩
      · rintro ⟨u, isToken, isSignificant, same⟩
        rcases List.mem_append.mp isToken with isEarlier | isLast
        · exact ⟨u, isEarlier, isSignificant, same⟩
        · rw [List.mem_singleton.mp isLast] at isSignificant
          exact absurd isSignificant significant

/-! ## Cutting -/

theorem takeWhile_append_stop {p : PositionedToken → Bool} {xs ys : List PositionedToken}
    (h : ∀ y ∈ ys.head?, p y = false) : (xs ++ ys).takeWhile p = xs.takeWhile p := by
  induction xs with
  | nil =>
    cases ys with
    | nil => rfl
    | cons y ys => exact List.takeWhile_cons_of_neg (by simp [h y rfl])
  | cons x xs ih =>
    rw [List.cons_append, List.takeWhile_cons, List.takeWhile_cons, ih]

theorem dropWhile_append_stop {p : PositionedToken → Bool} {xs ys : List PositionedToken}
    (h : ∀ y ∈ ys.head?, p y = false) : (xs ++ ys).dropWhile p = xs.dropWhile p ++ ys := by
  induction xs with
  | nil =>
    cases ys with
    | nil => rfl
    | cons y ys => exact List.dropWhile_cons_of_neg (by simp [h y rfl])
  | cons x xs ih =>
    rw [List.cons_append, List.dropWhile_cons, List.dropWhile_cons, ih]
    split <;> rfl

theorem sameLine_of_mem_takeWhile {line : Nat} {tokens : List PositionedToken} :
    ∀ t ∈ tokens.takeWhile (·.line == line), t.line = line := by
  intro t isTaken
  exact eq_of_beq (List.all_eq_true.mp List.all_takeWhile t isTaken)

theorem lastLine_directive {t : PositionedToken} (isHash : t.token.isOperator .hash = true)
    (last : Option Nat) {taken : List PositionedToken} (sameLine : ∀ u ∈ taken, u.line = t.line) :
    lastLine last (t :: taken) = some t.line := by
  rw [lastLine_cons (isSignificant_of_isHash isHash), lastLine_of_sameLine sameLine]

theorem lastLine_cons_hash {t : PositionedToken} (isHash : t.token.isOperator .hash = true)
    (last : Option Nat) (rest : List PositionedToken) :
    lastLine last (t :: rest) = lastLine (some t.line) (rest.dropWhile (·.line == t.line)) := by
  have body : lastLine (some t.line) (rest.takeWhile (·.line == t.line)) = some t.line :=
    lastLine_of_sameLine sameLine_of_mem_takeWhile
  have split := lastLine_append (some t.line) (rest.takeWhile (·.line == t.line))
    (rest.dropWhile (·.line == t.line))
  rw [List.takeWhile_append_dropWhile, body] at split
  rw [lastLine_cons (isSignificant_of_isHash isHash), split]

/-- The items of a text can be cut before a token that stands on no earlier directive line. -/
theorem ofTokens_append (last : Option Nat) (xs : List PositionedToken)
    {ys : List PositionedToken} (h : ∀ y ∈ ys.head?, hashOn xs y.line = false) :
    ofTokens last (xs ++ ys) = ofTokens last xs ++ ofTokens (lastLine last xs) ys := by
  fun_induction ofTokens last xs with
  | case1 last => rfl
  | case2 last t rest isHash body ih =>
    have elsewhere : ∀ y ∈ ys.head?, (y.line == t.line) = false := by
      intro y isFirst
      have := hashOn_eq_false_iff.mp (h y isFirst) t List.mem_cons_self isHash
      exact beq_eq_false_iff_ne.mpr (Ne.symm this)
    have later : ∀ y ∈ ys.head?, hashOn (rest.dropWhile (·.line == t.line)) y.line = false := by
      intro y isFirst
      refine hashOn_eq_false_iff.mpr ?_
      intro u isLater
      exact hashOn_eq_false_iff.mp (h y isFirst) u
        (List.mem_cons_of_mem t ((List.dropWhile_suffix _).subset isLater))
    rw [List.cons_append, ofTokens, if_pos isHash, takeWhile_append_stop elsewhere,
      dropWhile_append_stop elsewhere, ih later, lastLine_cons_hash isHash]
    rfl
  | case3 last t rest notHash ih =>
    have later : ∀ y ∈ ys.head?, hashOn rest y.line = false := by
      intro y isFirst
      refine hashOn_eq_false_iff.mpr ?_
      intro u isLater
      exact hashOn_eq_false_iff.mp (h y isFirst) u (List.mem_cons_of_mem t isLater)
    have others := ih later
    simp only [dite_eq_ite] at others
    rw [List.cons_append, ofTokens, if_neg notHash, others]
    rfl

theorem ofTokens_token {t : PositionedToken} (notHash : t.token.isOperator .hash = false)
    (last : Option Nat) : ofTokens last [t] = [token t] := by
  rw [ofTokens, if_neg (by simp [notHash]), ofTokens]

theorem ofTokens_directive {t : PositionedToken} (isHash : t.token.isOperator .hash = true)
    (last : Option Nat) {rest : List PositionedToken} (sameLine : ∀ u ∈ rest, u.line = t.line) :
    ofTokens last (t :: rest) =
      [directive t (last != some t.line) (rest.filter (·.token.isSignificant))] := by
  have all : ∀ u ∈ rest, (u.line == t.line) = true := fun u isLater =>
    beq_iff_eq.mpr (sameLine u isLater)
  simp only [ofTokens, if_pos isHash, List.takeWhile_eq_self_iff.mpr all,
    List.dropWhile_eq_nil_iff.mpr all]

/-! ## The lines of items -/

def line : SourceItem → Nat
  | token t => t.line
  | directive hash _ _ => hash.line

def isDirective : SourceItem → Bool
  | token _ => false
  | directive .. => true

/-- The tokens that an item is made of stand on its line, and its `#` is one. -/
def IsWhole : SourceItem → Prop
  | token t => t.token.isOperator .hash = false
  | directive hash _ body => hash.token.isOperator .hash = true ∧ ∀ t ∈ body, t.line = hash.line

/-- Nothing stands on the line of a directive after it, or before the line of any item. -/
def InOrder (items : List SourceItem) : Prop :=
  items.Pairwise fun a b => a.line ≤ b.line ∧ (a.isDirective = true → a.line < b.line)

/-! ## The tokens of an item -/

theorem of_token_mem_ofTokens {last : Option Nat} {tokens : List PositionedToken}
    {t : PositionedToken} (h : token t ∈ ofTokens last tokens) :
    t ∈ tokens ∧ t.token.isOperator .hash = false := by
  fun_induction ofTokens last tokens with
  | case1 last => cases h
  | case2 last u rest isHash body ih =>
    rcases List.mem_cons.mp h with same | isLater
    · cases same
    · obtain ⟨isToken, notHash⟩ := ih isLater
      exact ⟨List.mem_cons_of_mem u ((List.dropWhile_suffix _).subset isToken), notHash⟩
  | case3 last u rest notHash ih =>
    rcases List.mem_cons.mp h with same | isLater
    · cases same
      exact ⟨List.mem_cons_self, Bool.eq_false_iff.mpr notHash⟩
    · obtain ⟨isToken, notHash⟩ := ih isLater
      exact ⟨List.mem_cons_of_mem u isToken, notHash⟩

/-- The `#` of a directive and its body among the tokens. -/
theorem exists_body_of_mem_ofTokens {last : Option Nat} {tokens : List PositionedToken}
    {hash : PositionedToken} {leads : Bool} {body : List PositionedToken}
    (h : directive hash leads body ∈ ofTokens last tokens) :
    ∃ before after, tokens = before ++ hash :: after ∧
      leads = (lastLine last before != some hash.line) ∧ hash.token.isOperator .hash = true ∧
      body = (after.takeWhile (·.line == hash.line)).filter (·.token.isSignificant) := by
  fun_induction ofTokens last tokens with
  | case1 last => cases h
  | case2 last t rest isHash body' ih =>
    rcases List.mem_cons.mp h with same | isLater
    · obtain ⟨rfl, rfl, rfl⟩ := directive.inj same
      exact ⟨[], rest, rfl, rfl, isHash, rfl⟩
    · obtain ⟨before, after, isSplit, leads_eq, found⟩ := ih isLater
      have whole := List.takeWhile_append_dropWhile (p := (·.line == t.line)) (l := rest)
      refine ⟨t :: (rest.takeWhile (·.line == t.line) ++ before), after, ?_, ?_, found⟩
      · rw [List.cons_append, List.append_assoc, ← isSplit, whole]
      · rw [leads_eq, lastLine_cons (isSignificant_of_isHash isHash), lastLine_append,
          lastLine_of_sameLine sameLine_of_mem_takeWhile]
  | case3 last t rest notHash ih =>
    rcases List.mem_cons.mp h with same | isLater
    · cases same
    · obtain ⟨before, after, isSplit, leads_eq, found⟩ := ih isLater
      refine ⟨t :: before, after, by rw [isSplit]; rfl, ?_, found⟩
      simp only [dite_eq_ite] at leads_eq
      exact leads_eq

theorem sublist_of_mem_ofTokens {tokens : List PositionedToken} {last : Option Nat}
    {hash : PositionedToken} {leads : Bool} {body : List PositionedToken}
    (h : directive hash leads body ∈ ofTokens last tokens) : (hash :: body).Sublist tokens := by
  obtain ⟨before, after, rfl, -, -, rfl⟩ := exists_body_of_mem_ofTokens h
  refine .trans ?_ (List.sublist_append_right before _)
  exact (List.filter_sublist.trans (List.takeWhile_sublist _)).cons_cons hash

theorem line_of_mem_ofTokens {tokens : List PositionedToken} {last : Option Nat} :
    ∀ item ∈ ofTokens last tokens, ∃ t ∈ tokens, item.line = t.line
  | token t, isItem => ⟨t, (of_token_mem_ofTokens isItem).1, rfl⟩
  | directive hash _ _, isItem =>
    ⟨hash, (sublist_of_mem_ofTokens isItem).subset List.mem_cons_self, rfl⟩

theorem isWhole_of_mem_ofTokens {tokens : List PositionedToken} {last : Option Nat} :
    ∀ item ∈ ofTokens last tokens, item.IsWhole
  | token _, isItem => (of_token_mem_ofTokens isItem).2
  | directive _ _ _, isItem => by
    obtain ⟨before, after, -, -, isHash, rfl⟩ := exists_body_of_mem_ofTokens isItem
    refine ⟨isHash, fun t isBody => ?_⟩
    exact sameLine_of_mem_takeWhile t (List.mem_filter.mp isBody).1

/-- Between the `#` of a directive and its word there are only blanks and comments, on its line. -/
theorem exists_word_of_mem_ofTokens {last : Option Nat} {tokens : List PositionedToken}
    {hash word : PositionedToken} {leads : Bool} {operands : List PositionedToken}
    (h : directive hash leads (word :: operands) ∈ ofTokens last tokens) :
    ∃ before gap after, tokens = before ++ hash :: (gap ++ word :: after) ∧
      hash.token.isOperator .hash = true ∧ (∀ t ∈ gap, t.token.isSignificant = false) ∧
      word.line = hash.line := by
  obtain ⟨before, after, isSplit, -, isHash, body⟩ := exists_body_of_mem_ofTokens h
  obtain ⟨gap, more, taken, gapIs, -, -⟩ := List.filter_eq_cons_iff.mp body.symm
  have isWord : word ∈ after.takeWhile (·.line == hash.line) := by
    rw [taken]
    exact List.mem_append_right _ List.mem_cons_self
  have whole := List.takeWhile_append_dropWhile (p := (·.line == hash.line)) (l := after)
  rw [taken, List.append_assoc, List.cons_append] at whole
  refine ⟨before, gap, _, by rw [isSplit, ← whole], isHash, ?_, sameLine_of_mem_takeWhile _ isWord⟩
  intro t isGap
  exact Bool.eq_false_iff.mpr (gapIs t isGap)

/-- Past the line of the first token, tokens in lines stand on later lines. -/
theorem lt_of_mem_dropWhile {t : PositionedToken} {rest : List PositionedToken}
    (h : InLines (t :: rest)) : ∀ u ∈ rest.dropWhile (·.line == t.line), t.line < u.line := by
  obtain ⟨first, ordered⟩ := List.pairwise_cons.mp h
  have suffix : rest.dropWhile (·.line == t.line) <:+ rest := List.dropWhile_suffix _
  cases dropped : rest.dropWhile (·.line == t.line) with
  | nil =>
    intro u isLater
    cases isLater
  | cons v more =>
    rw [dropped] at suffix
    have atHead : (v.line == t.line) = false := by
      have stops := List.head?_dropWhile_not (p := (·.line == t.line)) (l := rest)
      rw [dropped] at stops
      simpa using stops
    have beyond : t.line < v.line := by
      have := first v (suffix.subset List.mem_cons_self)
      have := beq_eq_false_iff_ne.mp atHead
      omega
    intro u isLater
    rcases List.mem_cons.mp isLater with rfl | isLater
    · exact beyond
    · have := (List.pairwise_cons.mp (ordered.sublist suffix.sublist)).1 u isLater
      omega

/-- Among tokens in lines, those on the line of the first come before all others. -/
theorem takeWhile_sameLine {t : PositionedToken} {rest : List PositionedToken}
    (h : InLines (t :: rest)) :
    rest.takeWhile (·.line == t.line) = rest.filter (·.line == t.line) := by
  have here : (rest.takeWhile (·.line == t.line)).filter (·.line == t.line) =
      rest.takeWhile (·.line == t.line) :=
    List.filter_eq_self.mpr (List.all_eq_true.mp List.all_takeWhile)
  have elsewhere : (rest.dropWhile (·.line == t.line)).filter (·.line == t.line) = [] := by
    refine List.filter_eq_nil_iff.mpr ?_
    intro u isLater same
    exact Nat.ne_of_gt (SourceItem.lt_of_mem_dropWhile h u isLater) (eq_of_beq same)
  calc rest.takeWhile (·.line == t.line)
    _ = (rest.takeWhile (·.line == t.line) ++ rest.dropWhile (·.line == t.line)).filter
        (·.line == t.line) := by rw [List.filter_append, here, elsewhere, List.append_nil]
    _ = rest.filter (·.line == t.line) := by rw [List.takeWhile_append_dropWhile]

/-- The first `#` on a line begins a directive, which takes in all that starts on the line behind
it, blanks and comments left out. -/
theorem exists_directive_mem_ofTokens {tokens before after : List PositionedToken}
    {hash : PositionedToken} (h : InLines tokens) (isSplit : tokens = before ++ hash :: after)
    (isHash : hash.token.isOperator .hash = true)
    (isFirst : ∀ t ∈ before, t.token.isOperator .hash = true → t.line ≠ hash.line) :
    ∃ leads, directive hash leads (after.filter fun t =>
      t.token.isSignificant && t.line == hash.line) ∈ ofTokens none tokens := by
  have alone : ∀ y ∈ (hash :: after).head?, hashOn before y.line = false := by
    intro y isHead
    cases isHead
    exact hashOn_eq_false_iff.mpr isFirst
  have body := takeWhile_sameLine (List.pairwise_append.mp (isSplit ▸ h)).2.1
  refine ⟨lastLine none before != some hash.line, ?_⟩
  rw [isSplit, ofTokens_append none before alone, ofTokens, if_pos isHash, body, List.filter_filter]
  exact List.mem_append_right _ List.mem_cons_self

theorem ofTokens_inOrder {tokens : List PositionedToken} {last : Option Nat} (h : InLines tokens) :
    InOrder (ofTokens last tokens) := by
  fun_induction ofTokens last tokens with
  | case1 last => exact .nil
  | case2 last t rest isHash body ih =>
    obtain ⟨-, ordered⟩ := List.pairwise_cons.mp h
    have suffix : rest.dropWhile (·.line == t.line) <:+ rest := List.dropWhile_suffix _
    refine List.pairwise_cons.mpr ⟨?_, ih (ordered.sublist suffix.sublist)⟩
    intro item isItem
    obtain ⟨u, isLater, same⟩ := line_of_mem_ofTokens item isItem
    have beyond := lt_of_mem_dropWhile h u isLater
    rw [same]
    exact ⟨Nat.le_of_lt beyond, fun _ => beyond⟩
  | case3 last t rest notHash ih =>
    obtain ⟨first, ordered⟩ := List.pairwise_cons.mp h
    refine List.pairwise_cons.mpr ⟨?_, ih ordered⟩
    intro item isItem
    obtain ⟨u, isLater, same⟩ := line_of_mem_ofTokens item isItem
    have beyond := first u isLater
    rw [same]
    exact ⟨beyond, fun isDirective => by cases isDirective⟩

end SourceItem

end SharpFront
