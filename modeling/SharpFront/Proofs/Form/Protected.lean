import SharpFront.Proofs.Form.Sited
import SharpFront.Proofs.Form.Spelling

/-!
# What a backslash protects

Where a literal between quotes ends can be said with no escape in mind: a backslash protects the
character after it, and the literal ends at the first quote that nothing protects, or with its line.

* `isProtected`, `Scanned`: what a text protects, and where a literal ends;
* `UnknownEscape`: a backslash that begins no way to write a character;
* `Stretch`: the pieces of a literal protect nothing behind them;
* `scanned_quotedPieces`, `unknown_quotedPieces_iff`: the pieces end where the literal does, and the
  unknown ones are the unknown escapes;
* `recognize_quoted`: what is read and reported of a text that begins with a quote.
-/

namespace SharpFront

theorem Quote.mark_ne_feed (quote : Quote) : quote.mark ≠ '\n' := by cases quote <;> decide

theorem Quote.isHexDigit_mark (quote : Quote) : Form.isHexDigit quote.mark = false := by
  cases quote <;> decide

namespace Form

/-- Whether the character after a text is protected: the last one is a backslash, and nothing
protects that. -/
def isProtected (text : List Char) : Bool :=
  text.foldl (fun inside c => c == '\\' && !inside) false

/-- The contents of a literal after its quote: they go on to the first quote that nothing protects,
which closes the literal, or else to the end of the line. -/
structure Scanned (quote : Quote) (text content : List Char) (closed : Bool) : Prop where
  oneLine : '\n' ∉ content
  quotes : ∀ before after, content = before ++ quote.mark :: after → isProtected before = true
  ends : ∃ later, text = content ++ later ∧
    if closed then later.head? = some quote.mark ∧ isProtected content = false else EndsLine later

/-- A backslash on the line of what it stands before, with which no way to write a character
begins. -/
def UnknownEscape (quote : Quote) (text : List Char) : Prop :=
  (∃ next more, text = '\\' :: next :: more ∧ next ≠ '\n') ∧
    ∀ c spelled, Spelling quote c spelled → ¬spelled <+: text

variable {quote : Quote} {text content : List Char} {c : Char} {rest : List Char}

/-! ## A literal ends in one way only -/

theorem Scanned.isPrefix {closed : Bool} (h : Scanned quote text content closed) :
    content <+: text := by
  obtain ⟨later, rfl, -⟩ := h.ends
  exact List.prefix_append _ _

/-- Of two ways in which a literal could end neither goes further than the other. -/
theorem Scanned.not_further {gap : List Char} {d : Char} {closed closed' : Bool}
    (h : Scanned quote text content closed)
    (h' : Scanned quote text (content ++ d :: gap) closed') : False := by
  obtain ⟨later, rfl, ends⟩ := h.ends
  obtain ⟨more, isText⟩ := h'.isPrefix
  rw [List.append_assoc] at isText
  obtain rfl := List.append_cancel_left isText
  split at ends
  · obtain ⟨isQuote, notProtected⟩ := ends
    rw [h'.quotes content gap (Option.some.inj isQuote ▸ rfl)] at notProtected
    cases notProtected
  · exact h'.oneLine (ends d rfl ▸ List.mem_append_cons_self)

/-- A quote does not end the line. -/
theorem Scanned.not_closed (isOpen : Scanned quote text content false)
    (isClosed : Scanned quote text content true) : False := by
  obtain ⟨later, rfl, ends⟩ := isOpen.ends
  obtain ⟨later', isText, isQuote, -⟩ := isClosed.ends
  obtain rfl := List.append_cancel_left isText
  exact quote.mark_ne_feed (ends quote.mark isQuote)

theorem Scanned.closed_unique {closed closed' : Bool} (h : Scanned quote text content closed)
    (h' : Scanned quote text content closed') : closed' = closed := by
  cases closed <;> cases closed'
  · rfl
  · exact (h.not_closed h').elim
  · exact (h'.not_closed h).elim
  · rfl

theorem Scanned.unique {content' : List Char} {closed closed' : Bool}
    (h : Scanned quote text content closed) (h' : Scanned quote text content' closed') :
    content' = content ∧ closed' = closed := by
  rcases List.prefix_or_prefix_of_prefix h.isPrefix h'.isPrefix with ⟨gap, rfl⟩ | ⟨gap, rfl⟩
  · cases gap with
    | nil =>
      rw [List.append_nil] at h' ⊢
      exact ⟨rfl, h.closed_unique h'⟩
    | cons d gap => exact (h.not_further h').elim
  · cases gap with
    | nil =>
      rw [List.append_nil] at h ⊢
      exact ⟨rfl, h.closed_unique h'⟩
    | cons d gap => exact (h'.not_further h).elim

/-! ## The pieces of a literal -/

theorem isProtected_append (before after : List Char) (h : isProtected before = false) :
    isProtected (before ++ after) = isProtected after := by
  unfold isProtected at h ⊢
  rw [List.foldl_append, h]

/-- A character, or an escape: a text that protects nothing behind it. -/
inductive Stretch : List Char → Prop where
  | plain {c : Char} (notBackslash : c ≠ '\\') : Stretch [c]
  | escape {d : Char} {digits : List Char} (areDigits : ∀ c ∈ digits, isHexDigit c = true) :
    Stretch ('\\' :: d :: digits)

theorem isHexDigit_backslash : isHexDigit '\\' = false := by decide

theorem isProtected_of_digits {digits : List Char} (h : ∀ c ∈ digits, isHexDigit c = true) :
    isProtected digits = false := by
  induction digits with
  | nil => rfl
  | cons c digits ih =>
    obtain ⟨isDigit, others⟩ := List.forall_mem_cons.mp h
    have here : isProtected [c] = false := by
      have notBackslash : c ≠ '\\' := by
        rintro rfl
        rw [isHexDigit_backslash] at isDigit
        cases isDigit
      simp [isProtected, notBackslash]
    exact (isProtected_append [c] digits here).trans (ih others)

theorem Stretch.isProtected (h : Stretch text) : isProtected text = false := by
  cases h with
  | plain notBackslash => simp [Form.isProtected, notBackslash]
  | @escape d digits areDigits =>
    have here : Form.isProtected ['\\', d] = false := by simp [Form.isProtected]
    exact (isProtected_append ['\\', d] digits here).trans (isProtected_of_digits areDigits)

/-- Behind its first character, a stretch leaves only digits unprotected. -/
theorem Stretch.isHexDigit_of_notProtected {b d : Char} {before after : List Char}
    (h : Stretch (b :: (before ++ d :: after)))
    (notProtected : Form.isProtected (b :: before) = false) : isHexDigit d = true := by
  generalize isText : before ++ d :: after = tail at h
  cases h with
  | plain => simp at isText
  | escape areDigits =>
    cases before with
    | nil => cases notProtected
    | cons e before =>
      obtain ⟨-, rfl⟩ := List.cons.inj isText
      exact areDigits d List.mem_append_cons_self

/-- A mark that nothing protects stands first in a stretch and what follows it, or else behind the
stretch, where nothing protects it either. -/
theorem Stretch.split_append {before after : List Char} {d : Char} (h : Stretch text)
    (split : text ++ content = before ++ d :: after) (notDigit : isHexDigit d = false)
    (notProtected : Form.isProtected before = false) :
    before = [] ∨ ∃ front, before = text ++ front ∧ content = front ++ d :: after ∧
      Form.isProtected front = false := by
  rcases List.append_eq_append_iff.mp split with ⟨front, rfl, behind⟩ | ⟨gap, rfl, behind⟩
  · exact .inr ⟨front, rfl, behind, isProtected_append text front h.isProtected ▸ notProtected⟩
  · cases gap with
    | nil =>
      rw [List.append_nil]
      exact .inr ⟨[], (List.append_nil _).symm, behind.symm, rfl⟩
    | cons e gap =>
      obtain ⟨rfl, -⟩ := List.cons.inj behind
      cases before with
      | nil => exact .inl rfl
      | cons b before =>
        rw [h.isHexDigit_of_notProtected notProtected] at notDigit
        cases notDigit

/-- A piece is a stretch, or the backslash at the end of a line. -/
theorem QuotedPiece.first_stretch (c : Char) (rest : List Char) :
    Stretch (first c rest).text ∨ (first c rest).text = ['\\'] ∧ EndsLine rest := by
  by_cases isBackslash : c = '\\'
  · rw [first, if_pos isBackslash]
    cases rest with
    | nil =>
      refine .inr ⟨rfl, ?_⟩
      intro d isFirst
      cases isFirst
    | cons d rest =>
      simp only [escape]
      split
      · next isFeed =>
        refine .inr ⟨rfl, ?_⟩
        intro e isFirst
        exact (Option.some.inj isFirst).symm.trans isFeed
      · split
        · exact .inl (.escape (List.all_eq_true.mp List.all_takeWhile))
        · split <;> exact .inl (.escape (List.forall_mem_nil _))
  · rw [first, if_neg isBackslash]
    exact .inl (.plain isBackslash)

theorem quotedPieces_of_endsLine (quote : Char) (h : EndsLine rest) :
    quotedPieces quote rest = ([], false) := by
  cases rest with
  | nil => rw [quotedPieces]
  | cons d rest => rw [quotedPieces, if_pos (h d rfl)]

/-- Behind the first piece of a literal nothing is protected, or nothing is left. -/
theorem stretch_or_last {pieces : List QuotedPiece} {closed : Bool}
    (read : quotedPieces quote.mark ((c :: rest).drop (QuotedPiece.first c rest).text.length) =
      (pieces, closed)) :
    Stretch (QuotedPiece.first c rest).text ∨
      (QuotedPiece.first c rest).text = ['\\'] ∧ pieces = [] ∧ closed = false := by
  rcases QuotedPiece.first_stretch c rest with isStretch | ⟨isText, ends⟩
  · exact .inl isStretch
  · rw [isText, List.length_singleton, List.drop_one, List.tail_cons,
      quotedPieces_of_endsLine quote.mark ends] at read
    cases read
    exact .inr ⟨isText, rfl, rfl⟩

/-! ## Where the pieces end -/

theorem content_isPrefix (quote : Char) (text : List Char) :
    (quotedPieces quote text).1.flatMap (·.text) <+: text :=
  (List.prefix_append _ _).trans (quotedPieces_isPrefix quote text)

theorem cons_isPrefix {pieces : List QuotedPiece} {closed : Bool}
    (read : quotedPieces quote.mark ((c :: rest).drop (QuotedPiece.first c rest).text.length) =
      (pieces, closed)) :
    (QuotedPiece.first c rest).text ++ pieces.flatMap (·.text) <+: c :: rest := by
  have behind := content_isPrefix quote.mark
    ((c :: rest).drop (QuotedPiece.first c rest).text.length)
  rw [read] at behind
  exact append_isPrefix (QuotedPiece.first_isPrefix c rest) behind

/-- Every quote in the contents of a literal is protected. -/
theorem isProtected_of_quote (quote : Quote) (text : List Char) : ∀ before after,
    (quotedPieces quote.mark text).1.flatMap (·.text) = before ++ quote.mark :: after →
      isProtected before = true := by
  fun_induction quotedPieces quote.mark text with
  | case1 | case2 | case3 => simp
  | case4 c rest notFeed notQuote piece pieces closed read ih =>
    intro before after split
    refine Bool.of_not_eq_false fun notProtected => ?_
    have isPrefix := cons_isPrefix read
    rw [read] at ih
    rw [List.flatMap_cons] at split
    have notFirst : before ≠ [] := by
      rintro rfl
      rw [split] at isPrefix
      exact notQuote (List.cons_prefix_cons.mp isPrefix).1.symm
    rcases stretch_or_last read with isStretch | ⟨isText, rfl, -⟩
    · rcases isStretch.split_append split quote.isHexDigit_mark notProtected with
        isFirst | ⟨front, rfl, behind, notProtected⟩
      · exact notFirst isFirst
      · rw [ih front after behind] at notProtected
        cases notProtected
    · -- the backslash at the end of the line is all there is
      rw [show piece.text = ['\\'] from isText] at split
      rcases List.append_eq_singleton_iff.mp split.symm with ⟨isFirst, -⟩ | ⟨-, isEmpty⟩
      · exact notFirst isFirst
      · cases isEmpty

theorem isProtected_content (isClosed : (quotedPieces quote.mark text).2 = true) :
    isProtected ((quotedPieces quote.mark text).1.flatMap (·.text)) = false := by
  fun_induction quotedPieces quote.mark text with
  | case1 | case2 | case3 => rfl
  | case4 c rest notFeed notQuote piece pieces closed read ih =>
    rw [read] at ih
    rcases stretch_or_last read with isStretch | ⟨-, -, isOpen⟩
    · rw [List.flatMap_cons, isProtected_append _ _ isStretch.isProtected]
      exact ih isClosed
    · rw [isOpen] at isClosed
      cases isClosed

/-- The pieces of a literal end where the literal does. -/
theorem scanned_quotedPieces (quote : Quote) (text : List Char) :
    Scanned quote text ((quotedPieces quote.mark text).1.flatMap (·.text))
      (quotedPieces quote.mark text).2 := by
  refine ⟨notMem_quotedPieces quote.mark text, isProtected_of_quote quote text, ?_⟩
  have isPrefix := quotedPieces_isPrefix quote.mark text
  cases isClosed : (quotedPieces quote.mark text).2 with
  | true =>
    rw [isClosed, if_pos rfl] at isPrefix
    obtain ⟨later, isText⟩ := isPrefix
    rw [List.append_assoc] at isText
    exact ⟨_, isText.symm, rfl, isProtected_content isClosed⟩
  | false =>
    obtain ⟨later, isText⟩ := content_isPrefix quote.mark text
    have ends := quotedPieces_ends isClosed
    rw [← isText, List.drop_left' (by rw [isText])] at ends
    exact ⟨later, isText.symm, ends⟩

/-! ## Unknown escapes -/

theorem exists_isHexDigitOf (h : isHexDigit c = true) : ∃ value, IsHexDigitOf value c := by
  have isOne : ∀ n < 128, isHexDigit (Char.ofNat n) = true →
      Char.ofNat n ∈ hexDigits ∨ Char.ofNat n ∈ hexDigits.map Char.toUpper := by decide +kernel
  have small : c.toNat < 128 := by
    simp only [isHexDigit, Char.isDigit_iff_toNat, Bool.or_eq_true, Bool.and_eq_true,
      decide_eq_true_eq, Char.reduceToNat] at h
    omega
  have isMember := isOne c.toNat small
  rw [Char.ofNat_toNat] at isMember
  rcases isMember h with isLower | isUpper
  · obtain ⟨value, isValue⟩ := List.mem_iff_getElem?.mp isLower
    exact ⟨value, .inl isValue⟩
  · obtain ⟨value, isValue⟩ := List.mem_iff_getElem?.mp isUpper
    exact ⟨value, .inr isValue⟩

theorem exists_areDigits {digits : List Char} (h : ∀ c ∈ digits, isHexDigit c = true) :
    ∃ values, List.Forall₂ IsHexDigitOf values digits := by
  induction digits with
  | nil => exact ⟨[], .nil⟩
  | cons c digits ih =>
    obtain ⟨isDigit, others⟩ := List.forall_mem_cons.mp h
    obtain ⟨value, isValue⟩ := exists_isHexDigitOf isDigit
    obtain ⟨values, areValues⟩ := ih others
    exact ⟨value :: values, .cons isValue areValues⟩

theorem mem_escapeMarks {mark c : Char} (h : QuotedPiece.simpleEscape? mark = some c) :
    (mark, c) ∈ escapeMarks := by
  unfold QuotedPiece.simpleEscape? at h
  split at h <;> cases h <;> decide

theorem toNat_of_scalar? {code : Nat} (h : QuotedPiece.scalar? code = some c) : c.toNat = code := by
  by_cases valid : code.isValidChar
  · rw [QuotedPiece.scalar?, dif_pos valid] at h
    exact (congrArg Char.toNat (Option.some.inj h)).symm
  · rw [QuotedPiece.scalar?, dif_neg valid] at h
    cases h

/-- An escape that is known is a way to write a character. -/
theorem exists_spelling_of_known {d : Char} (quote : Quote) (notFeed : d ≠ '\n')
    (known : (QuotedPiece.escape (d :: rest)).known = true) :
    ∃ c, Spelling quote c (QuotedPiece.escape (d :: rest)).text := by
  simp only [QuotedPiece.escape, if_neg notFeed] at known ⊢
  split
  · next isCode =>
    simp only [if_pos isCode, QuotedPiece.codeEscape] at known ⊢
    have areHex : ∀ c ∈ (rest.take 4).takeWhile isHexDigit, isHexDigit c = true :=
      List.all_eq_true.mp List.all_takeWhile
    generalize (rest.take 4).takeWhile isHexDigit = digits at known areHex
    split at known
    · next four =>
      obtain ⟨c, isScalar⟩ := Option.isSome_iff_exists.mp known
      obtain ⟨values, areDigits⟩ := exists_areDigits areHex
      refine ⟨c, .code four areDigits ?_⟩
      rw [← digitsValue_of_areDigits areDigits, toNat_of_scalar? isScalar]
    · cases known
  · next notCode =>
    rw [if_neg notCode] at known
    split
    · next value isEscape => exact ⟨value, .escape (mem_escapeMarks isEscape)⟩
    · next isUnknown =>
      rw [isUnknown] at known
      cases known

theorem first_of_unknown (h : (QuotedPiece.first c rest).known = false) :
    c = '\\' ∧ ∃ d more tail, rest = d :: more ∧ d ≠ '\n' ∧
      (QuotedPiece.first c rest).text = '\\' :: d :: tail := by
  by_cases isBackslash : c = '\\'
  · refine ⟨isBackslash, ?_⟩
    rw [QuotedPiece.first, if_pos isBackslash] at h ⊢
    cases rest with
    | nil => cases h
    | cons d more =>
      have notFeed : d ≠ '\n' := by
        rintro rfl
        cases h
      obtain ⟨tail, isText⟩ :
          ∃ tail, (QuotedPiece.escape (d :: more)).text = '\\' :: d :: tail := by
        simp only [QuotedPiece.escape, if_neg notFeed]
        split
        · next isCode =>
          subst isCode
          exact ⟨_, rfl⟩
        · split <;> exact ⟨_, rfl⟩
      exact ⟨d, more, tail, rfl, notFeed, isText⟩
  · rw [QuotedPiece.first, if_neg isBackslash] at h
    cases h

/-- A literal whose contents begin with a piece begins with an unknown escape when the piece is
one. -/
theorem unknownEscape_iff (covers : (QuotedPiece.first c rest).text <+: content)
    (isPrefix : content <+: c :: rest) :
    UnknownEscape quote content ↔ (QuotedPiece.first c rest).known = false := by
  constructor
  · rintro ⟨⟨next, more, rfl, notFeed⟩, noSpelling⟩
    obtain ⟨rfl, isRest⟩ := List.cons_prefix_cons.mp isPrefix
    obtain ⟨behind, rfl⟩ := isRest
    refine Bool.of_not_eq_true fun known => ?_
    rw [QuotedPiece.first, if_pos rfl] at known covers
    obtain ⟨c, spelled⟩ := exists_spelling_of_known quote notFeed known
    exact noSpelling c _ spelled covers
  · intro unknown
    obtain ⟨rfl, d, more, tail, rfl, notFeed, isText⟩ := first_of_unknown unknown
    obtain ⟨behind, isContent⟩ := covers
    rw [isText] at isContent
    refine ⟨⟨d, tail ++ behind, isContent.symm, notFeed⟩, ?_⟩
    intro c spelled isSpelling isStart
    obtain ⟨later, isLater⟩ := isStart.trans isPrefix
    obtain ⟨e, spelled, rfl, -, -, first⟩ := isSpelling.first_eq later
    obtain ⟨rfl, isRest⟩ := List.cons.inj ((List.cons_append ..).symm.trans isLater)
    rw [← isRest, first] at unknown
    cases unknown

/-- The unknown pieces are the unknown escapes, where nothing protects the backslash. -/
theorem unknown_quotedPieces_iff (quote : Quote) (text : List Char) : ∀ before,
    (∃ front p back, (quotedPieces quote.mark text).1 = front ++ p :: back ∧ p.known = false ∧
      before = front.flatMap (·.text)) ↔
    isProtected before = false ∧ ∃ after,
      (quotedPieces quote.mark text).1.flatMap (·.text) = before ++ after ∧
        UnknownEscape quote after := by
  fun_induction quotedPieces quote.mark text with
  | case1 | case2 | case3 => simp [UnknownEscape]
  | case4 c rest notFeed notQuote piece pieces closed read ih =>
    intro before
    have here : UnknownEscape quote (piece.text ++ pieces.flatMap (·.text)) ↔
        piece.known = false := unknownEscape_iff (List.prefix_append _ _) (cons_isPrefix read)
    have stretch := stretch_or_last read
    rw [read] at ih
    rw [List.flatMap_cons]
    constructor
    · rintro ⟨front, p, back, split, unknown, rfl⟩
      cases front with
      | nil =>
        obtain ⟨rfl, -⟩ := List.cons.inj split
        exact ⟨rfl, _, rfl, here.mpr unknown⟩
      | cons q front =>
        obtain ⟨rfl, behind⟩ := List.cons.inj split
        rcases stretch with isStretch | ⟨-, isLast, -⟩
        · obtain ⟨notProtected, after, isSplit, isUnknown⟩ :=
            (ih _).mp ⟨front, p, back, behind, unknown, rfl⟩
          refine ⟨?_, after, ?_, isUnknown⟩
          · rw [List.flatMap_cons, isProtected_append _ _ isStretch.isProtected, notProtected]
          · rw [isSplit, List.flatMap_cons, List.append_assoc]
        · rw [isLast] at behind
          simp at behind
    · rintro ⟨notProtected, after, isSplit, isUnknown⟩
      obtain ⟨⟨next, more, rfl, -⟩, -⟩ := id isUnknown
      rcases stretch with isStretch | ⟨isText, rfl, -⟩
      · rcases isStretch.split_append isSplit isHexDigit_backslash notProtected with
          rfl | ⟨front, rfl, behind, notProtected⟩
        · rw [List.nil_append] at isSplit
          exact ⟨[], piece, pieces, rfl, here.mp (isSplit ▸ isUnknown), rfl⟩
        · obtain ⟨front, p, back, rfl, unknown, rfl⟩ :=
            (ih front).mpr ⟨notProtected, _, behind, isUnknown⟩
          exact ⟨piece :: front, p, back, rfl, unknown, rfl⟩
      · -- a backslash alone is not followed by anything
        rw [show piece.text = ['\\'] from isText] at isSplit
        rcases List.append_eq_singleton_iff.mp isSplit.symm with ⟨-, isAlone⟩ | ⟨-, isEmpty⟩
        · cases isAlone
        · cases isEmpty

/-! ## What is reported -/

/-- The unknown pieces of a literal, with the place of each. -/
theorem exists_unknown_cons_iff {p : QuotedPiece} {pieces : List QuotedPiece} {place : Place}
    {position : Position} :
    (∃ front q back, p :: pieces = front ++ q :: back ∧ q.known = false ∧
      position = (place.after (front.flatMap (·.text))).position) ↔
    p.known = false ∧ place.position = position ∨
      ∃ front q back, pieces = front ++ q :: back ∧ q.known = false ∧
        position = ((place.after p.text).after (front.flatMap (·.text))).position := by
  constructor
  · rintro ⟨front, q, back, split, unknown, rfl⟩
    cases front with
    | nil =>
      obtain ⟨rfl, -⟩ := List.cons.inj split
      exact .inl ⟨unknown, rfl⟩
    | cons _ front =>
      obtain ⟨rfl, behind⟩ := List.cons.inj split
      refine .inr ⟨front, q, back, behind, unknown, ?_⟩
      rw [List.flatMap_cons, Place.after_append]
  · rintro (⟨unknown, rfl⟩ | ⟨front, q, back, rfl, unknown, rfl⟩)
    · exact ⟨[], p, pieces, rfl, unknown, rfl⟩
    · refine ⟨p :: front, q, back, rfl, unknown, ?_⟩
      rw [List.flatMap_cons, Place.after_append]

theorem exists_mem_escapeReports_iff {pieces : List QuotedPiece} {place : Place}
    {kind : DiagnosticKind} {position : Position} :
    (∃ r ∈ escapeReports place pieces, r.kind = kind ∧ r.position = position) ↔
      kind = .unrecognizedEscape ∧ ∃ front p back, pieces = front ++ p :: back ∧
        p.known = false ∧ position = (place.after (front.flatMap (·.text))).position := by
  induction pieces generalizing place with
  | nil => simp [escapeReports]
  | cons p pieces ih =>
    rw [exists_unknown_cons_iff, and_or_left, ← ih, escapeReports]
    cases isKnown : p.known with
    | true => simp
    | false =>
      simp only [Bool.false_eq_true, if_false, List.exists_mem_cons_iff, true_and]
      refine or_congr_left (and_congr_left fun _ => ?_)
      exact eq_comm

/-- The unknown escapes of a literal are reported, each at its backslash. -/
theorem exists_escapeReport_iff (quote : Quote) (text : List Char) (place : Place)
    {kind : DiagnosticKind} {position : Position} :
    (∃ r ∈ escapeReports place (quotedPieces quote.mark text).1,
      r.kind = kind ∧ r.position = position) ↔
      kind = .unrecognizedEscape ∧ ∃ before after,
        (quotedPieces quote.mark text).1.flatMap (·.text) = before ++ after ∧
          isProtected before = false ∧ UnknownEscape quote after ∧
          position = (place.after before).position := by
  have unknown := unknown_quotedPieces_iff quote text
  rw [exists_mem_escapeReports_iff]
  refine and_congr_right fun _ => ?_
  constructor
  · rintro ⟨front, p, back, split, isUnknown, rfl⟩
    obtain ⟨notProtected, after, isContent, isEscape⟩ :=
      (unknown _).mp ⟨front, p, back, split, isUnknown, rfl⟩
    exact ⟨_, after, isContent, notProtected, isEscape, rfl⟩
  · rintro ⟨before, after, isContent, notProtected, isEscape, rfl⟩
    obtain ⟨front, p, back, split, isUnknown, rfl⟩ :=
      (unknown before).mpr ⟨notProtected, after, isContent, isEscape⟩
    exact ⟨front, p, back, split, isUnknown, rfl⟩

theorem exists_missingReport_iff (closed : Bool) (stop : Place) {kind : DiagnosticKind}
    {position : Position} :
    (∃ r ∈ (if closed then [] else [⟨.newlineInConstant, stop.line, stop.column, 1⟩] :
        List Report), r.kind = kind ∧ r.position = position) ↔
      kind = .newlineInConstant ∧ closed = false ∧ position = stop.position := by
  cases closed with
  | true => simp
  | false => simp [Report.position, Place.position, eq_comm]

/-- **Where a literal ends, and what is reported of it.** A text that begins with a quote is always
read as a literal. It goes on to the first quote that no backslash protects, where it is closed, or
to the end of the line, and its contents are determined by that. Its reports come from left to
right, each at a position of its own: one for each unknown escape, at its backslash, and one for a
missing quote, where the literal ends. -/
theorem recognize_quoted (quote : Quote) (followsHash : Nat → Bool) (place : Place)
    (text : List Char) :
    ∃ l value content closed,
      quote.form.recognize followsHash place (quote.mark :: text) = some l ∧
      l.token = quote.token value ∧
      l.text = quote.mark :: content ++ (if closed then [quote.mark] else []) ∧
      (∀ content' closed',
        Scanned quote text content' closed' ↔ content' = content ∧ closed' = closed) ∧
      l.reports.Pairwise (fun a b => a.position < b.position) ∧
      ∀ kind position, (∃ r ∈ l.reports, r.kind = kind ∧ r.position = position) ↔
        (kind = .unrecognizedEscape ∧ ∃ before after, content = before ++ after ∧
          isProtected before = false ∧ UnknownEscape quote after ∧
          position = (place.after (quote.mark :: before)).position) ∨
        (kind = .newlineInConstant ∧ closed = false ∧
          position = (place.after (quote.mark :: content)).position) := by
  have found := recognize_quote quote followsHash place (quote.mark :: text)
  rw [quoted?, if_pos rfl] at found
  have scanned := scanned_quotedPieces quote text
  refine ⟨_, _, _, _, found, rfl, rfl, ?_, (recognize_sited found).2, ?_⟩
  · intro content' closed'
    constructor
    · exact scanned.unique
    · rintro ⟨rfl, rfl⟩
      exact scanned
  · intro kind position
    simp only [List.mem_append, or_and_right, exists_or]
    exact or_congr (exists_escapeReport_iff quote text _) (exists_missingReport_iff _ _)

end Form

end SharpFront
