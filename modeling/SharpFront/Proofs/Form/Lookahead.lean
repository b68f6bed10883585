import Mathlib.Data.List.Infix
import SharpFront.Proofs.Form.Opening

/-!
# How far forms look ahead

What a form finds depends on the text that it covers and on the two characters after it, and whether
it finds anything on the first two characters. No form needs to see that more comes, nor that
nothing does: where the text is cut off behind what a form finds, it finds the same.

* `Agree`: two texts begin alike;
* `Alike`: each of two texts begins as the other does, each up to a length of its own;
* `recognize_of_alike`: what is found in one is found in the other;
* `recognize_isSome_iff`, `recognize_eq_none_of_alike`: where something is found.
-/

namespace SharpFront

/-- The texts have the same first `n` characters. -/
def Agree (n : Nat) (xs ys : List Char) : Prop := xs.take n = ys.take n

namespace Agree

variable {m n : Nat} {xs ys : List Char}

theorem mono (h : Agree n xs ys) (less : m ≤ n) : Agree m xs ys := by
  have both := congrArg (List.take m) h
  rwa [List.take_take, List.take_take, Nat.min_eq_left less] at both

theorem append (xs ys zs : List Char) : Agree xs.length (xs ++ ys) (xs ++ zs) := by
  rw [Agree, List.take_left, List.take_left]

end Agree

/-- The second text begins with the first `m` characters of the first, and the first with the first
`n` characters of the second. -/
structure Alike (m n : Nat) (xs ys : List Char) : Prop where
  forth : xs.take m <+: ys
  back : ys.take n <+: xs

namespace Alike

variable {m n m' n' : Nat} {c : Char} {xs ys zs : List Char}

theorem of_agree (h : Agree n xs ys) (less : m ≤ n) : Alike m n xs ys where
  forth := by
    have same : xs.take m = ys.take m := h.mono less
    rw [same]
    exact List.take_prefix m ys
  back := by
    rw [← h]
    exact List.take_prefix n xs

/-- A text that is cut off has no other beginnings. -/
theorem of_isPrefix (begins : ys <+: xs) (covered : m ≤ ys.length) : Alike m n xs ys where
  forth := List.prefix_of_prefix_length_le (List.take_prefix m xs) begins
    (Nat.le_trans (List.length_take_le m xs) covered)
  back := (List.take_prefix n ys).trans begins

theorem symm (h : Alike m n xs ys) : Alike n m ys xs := ⟨h.back, h.forth⟩

theorem mono (h : Alike m n xs ys) (covered : m' ≤ m) (seen : n' ≤ n) : Alike m' n' xs ys where
  forth := (List.take_prefix_take_left covered).trans h.forth
  back := (List.take_prefix_take_left seen).trans h.back

theorem drop (h : Alike m n xs ys) (k : Nat) :
    Alike (m - k) (n - k) (xs.drop k) (ys.drop k) where
  forth := by
    rw [← List.drop_take]
    exact h.forth.drop k
  back := by
    rw [← List.drop_take]
    exact h.back.drop k

theorem take (h : Alike m n xs ys) (k : Nat) : Alike m n (xs.take k) (ys.take k) where
  forth := by
    rw [List.take_take, Nat.min_comm, ← List.take_take]
    exact h.forth.take k
  back := by
    rw [List.take_take, Nat.min_comm, ← List.take_take]
    exact h.back.take k

theorem eq_nil (h : Alike m n [] ys) (seen : 0 < n) : ys = [] := by
  cases ys with
  | nil => rfl
  | cons c ys =>
    have short := h.back.length_le
    rw [List.length_take, List.length_cons, List.length_nil] at short
    omega

theorem exists_cons (h : Alike m n (c :: xs) ys) (covered : 0 < m) :
    ∃ zs, ys = c :: zs ∧ Alike (m - 1) (n - 1) xs zs := by
  obtain ⟨m, rfl⟩ := Nat.exists_eq_add_of_lt covered
  cases ys with
  | nil =>
    have short := h.forth.length_le
    rw [List.length_take, List.length_cons, List.length_nil] at short
    omega
  | cons d zs =>
    have forth := h.forth
    rw [Nat.zero_add, List.take_succ_cons] at forth
    obtain ⟨rfl, -⟩ := List.cons_prefix_cons.mp forth
    exact ⟨zs, rfl, h.drop 1⟩

theorem exists_cons_cons {d : Char} (h : Alike m n (c :: d :: xs) ys) (covered : 2 ≤ m) :
    ∃ zs, ys = c :: d :: zs ∧ Alike (m - 2) (n - 2) xs zs := by
  obtain ⟨ys, rfl, later⟩ := h.exists_cons (by omega)
  obtain ⟨zs, rfl, -⟩ := later.exists_cons (by omega)
  exact ⟨zs, rfl, h.drop 2⟩

theorem eq_of_cons {d : Char} (h : Alike m n (c :: xs) (d :: ys)) (seen : 0 < n) : c = d := by
  obtain ⟨_, same, -⟩ := h.symm.exists_cons seen
  exact (List.cons.inj same).1

theorem head?_eq (h : Alike m n xs ys) (covered : 0 < m) (seen : 0 < n) : ys.head? = xs.head? := by
  cases xs with
  | nil => rw [h.eq_nil seen]
  | cons c xs =>
    obtain ⟨zs, rfl, -⟩ := h.exists_cons covered
    rfl

/-- One character after what is taken decides that no more is taken. -/
theorem takeWhile_eq {p : Char → Bool} (h : Alike m n xs ys)
    (covered : (xs.takeWhile p).length ≤ m) (seen : (xs.takeWhile p).length < n) :
    ys.takeWhile p = xs.takeWhile p := by
  induction xs generalizing m n ys with
  | nil => rw [h.eq_nil (by omega)]
  | cons c xs ih =>
    cases holds : p c with
    | true =>
      rw [List.takeWhile_cons_of_pos holds, List.length_cons] at covered seen
      obtain ⟨zs, rfl, later⟩ := h.exists_cons (by omega)
      rw [List.takeWhile_cons_of_pos holds, List.takeWhile_cons_of_pos holds,
        ih later (by omega) (by omega)]
    | false =>
      have stops : ¬p c = true := Bool.eq_false_iff.mp holds
      cases ys with
      | nil => rw [List.takeWhile_cons_of_neg stops, List.takeWhile_nil]
      | cons d ys =>
        obtain rfl := h.eq_of_cons (by omega)
        rw [List.takeWhile_cons_of_neg stops, List.takeWhile_cons_of_neg stops]

theorem isPrefix (h : Alike m n xs ys) (begins : zs <+: xs) (covered : zs.length ≤ m) :
    zs <+: ys :=
  (List.prefix_take_iff.mpr ⟨begins, covered⟩).trans h.forth

end Alike

theorem Opening.Opens.take {a : Opening} {n : Nat} {text : List Char} (h : a.Opens text)
    (least : a.size ≤ n) : a.Opens (text.take n) := by
  cases a with
  | fixed chars => exact List.prefix_take_iff.mpr ⟨h, least⟩
  | kind k =>
    obtain ⟨c, isFirst, holds⟩ := h
    refine ⟨c, ?_, holds⟩
    rw [List.head?_take, if_neg (Nat.ne_of_gt least), isFirst]

namespace Form

variable {form : Form} {followsHash : Nat → Bool} {place : Place} {xs ys : List Char} {l : Lexeme}

/-! ## Blanks and comments -/

theorem whitespace?_of_alike (h : whitespace? xs = some l)
    (alike : Alike l.text.length (l.text.length + 1) xs ys) : whitespace? ys = some l := by
  have covers : l.text = xs.takeWhile Text.isBlank := by
    simp only [whitespace?] at h
    split at h <;> cases h
    rfl
  rw [covers] at alike
  rw [← h, whitespace?, whitespace?, alike.takeWhile_eq (Nat.le_refl _) (Nat.lt_succ_self _)]

theorem restOfLine_of_alike
    (alike : Alike (restOfLine xs).length ((restOfLine xs).length + 1) xs ys) :
    restOfLine ys = restOfLine xs :=
  alike.takeWhile_eq (Nat.le_refl _) (Nat.lt_succ_self _)

theorem lineComment?_of_alike (h : lineComment? place xs = some l)
    (alike : Alike l.text.length (l.text.length + 1) xs ys) :
    lineComment? place ys = some l := by
  unfold lineComment? at h
  split at h <;> cases h
  next rest =>
  obtain ⟨zs, rfl, later⟩ := alike.exists_cons_cons (Nat.le_add_left 2 _)
  have body : restOfLine zs = restOfLine rest := restOfLine_of_alike later
  simp only [lineComment?, body]

theorem commentBody_of_alike {n : Nat} (alike : Alike n (n + 1) xs ys)
    (covered : (commentBody xs).1.length + (if (commentBody xs).2 then 2 else 0) ≤ n) :
    commentBody ys = commentBody xs := by
  fun_induction commentBody xs generalizing n ys with
  | case1 => rw [alike.eq_nil (Nat.succ_pos n), commentBody]
  | case2 rest =>
    obtain ⟨zs, rfl, -⟩ := alike.exists_cons_cons covered
    rw [commentBody]
  | case3 c rest notEnd body closed read ih =>
    rw [read] at ih
    simp only [List.length_cons] at covered
    obtain ⟨zs, rfl, later⟩ := alike.exists_cons (by omega)
    have notEnd' : ∀ more, c = '*' → zs = '/' :: more → False := by
      rintro more isStar rfl
      obtain ⟨more', isRest, -⟩ := later.symm.exists_cons (by omega)
      exact notEnd more' isStar isRest
    have same := ih (later.mono (Nat.le_refl _) (by omega)) (by simp only; omega)
    rw [commentBody, same]
    exact notEnd'

theorem blockComment?_of_alike (h : blockComment? place xs = some l)
    (alike : Alike l.text.length (l.text.length + 1) xs ys) :
    blockComment? place ys = some l := by
  unfold blockComment? at h
  split at h <;> cases h
  next rest =>
  simp only [List.length_append, List.length_cons, apply_ite List.length, List.length_nil,
    Nat.reduceAdd] at alike
  obtain ⟨zs, rfl, later⟩ := alike.exists_cons_cons (by omega)
  have body := commentBody_of_alike (later.mono (Nat.le_refl _) (by omega)) (by omega)
  simp only [blockComment?, body]

/-! ## Words -/

theorem wordText_of_alike
    (alike : Alike (wordText xs).length ((wordText xs).length + 1) xs ys) :
    wordText ys = wordText xs := by
  cases xs with
  | nil => rw [alike.eq_nil (Nat.succ_pos _)]
  | cons c xs =>
    by_cases isStart : Text.isWordStart c = true
    · rw [wordText, if_pos isStart, List.length_cons] at alike
      obtain ⟨zs, rfl, later⟩ := alike.exists_cons (Nat.succ_pos _)
      have part := later.takeWhile_eq (Nat.le_refl _) (Nat.lt_succ_self _)
      rw [wordText, wordText, if_pos isStart, if_pos isStart, part]
    · cases ys with
      | nil => rw [wordText, wordText, if_neg isStart]
      | cons d ys =>
        obtain rfl := alike.eq_of_cons (Nat.succ_pos _)
        rw [wordText, wordText, if_neg isStart, if_neg isStart]

theorem directiveMessage_of_alike {d : Directive} {word : List Char}
    (alike : Alike (directiveMessage d place word xs).text.length
      ((directiveMessage d place word xs).text.length + 1) (word ++ xs) (word ++ ys)) :
    directiveMessage d place word ys = directiveMessage d place word xs := by
  have later := alike.drop word.length
  simp only [directiveMessage, List.length_append, List.drop_left] at later
  have gap : ys.takeWhile Text.isInlineBlank = xs.takeWhile Text.isInlineBlank :=
    later.takeWhile_eq (by omega) (by omega)
  have message : restOfLine (ys.drop (xs.takeWhile Text.isInlineBlank).length) =
      restOfLine (xs.drop (xs.takeWhile Text.isInlineBlank).length) :=
    restOfLine_of_alike ((later.drop _).mono (by omega) (by omega))
  simp only [directiveMessage, gap, message]

theorem length_wordText_le (h : word? followsHash place xs = some l) :
    (wordText xs).length ≤ l.text.length := by
  cases word?_recognized h with
  | message =>
    simp only [directiveMessage, List.length_append]
    omega
  | directive | keyword | identifier => exact Nat.le_refl _

theorem word?_of_alike (h : word? followsHash place xs = some l)
    (alike : Alike l.text.length (l.text.length + 1) xs ys) :
    word? followsHash place ys = some l := by
  have covers := length_wordText_le h
  have word : wordText ys = wordText xs :=
    wordText_of_alike (alike.mono covers (by omega))
  have split : ∀ cs, wordText cs = wordText xs →
      wordText xs ++ cs.drop (wordText xs).length = cs := by
    intro cs same
    rw [← same]
    exact List.prefix_iff_eq_append.mp (wordText_isPrefix cs)
  rw [word?] at h ⊢
  simp only [word] at h ⊢
  split at h
  · cases h
  · next notEmpty =>
    rw [if_neg notEmpty]
    split at h
    · split at h
      · next takes =>
        cases h
        rw [if_pos takes, directiveMessage_of_alike]
        rw [split xs rfl, split ys word]
        exact alike
      · next takes =>
        rw [if_neg takes]
        exact h
    · exact h
    · exact h

/-! ## Numbers -/

/-- What a marked numeral covers decides the numeral, whether there is one or not. -/
theorem Numeral.marked?_of_alike {base : Nat} {mark : Char} {isDigit : Char → Bool} {n : Numeral}
    (alike : Alike (n.text.length - 2) n.text.length xs ys) (positive : 0 < n.text.length)
    (isNumeral : ∀ m, marked? base mark isDigit xs = some m → m = n) :
    marked? base mark isDigit ys = marked? base mark isDigit xs := by
  have covers : (xs.takeWhile isDigit).length ≤ n.text.length - 2 := by
    simp only [marked?] at isNumeral
    split at isNumeral
    · next isEmpty =>
      rw [List.isEmpty_iff.mp isEmpty]
      exact Nat.zero_le _
    · rw [← isNumeral _ rfl]
      exact Nat.le_refl _
  rw [marked?, marked?, alike.takeWhile_eq covers (by omega)]

/-- The numeral behind a zero and a mark. -/
def Numeral.ofMark? (mark : Char) (rest : List Char) : Option Numeral :=
  if mark = 'x' || mark = 'X' then marked? 16 mark isHexDigit rest
  else if mark = 'b' || mark = 'B' then marked? 2 mark isBinaryDigit rest
  else none

theorem Numeral.ofText?_zero (mark : Char) (rest : List Char) :
    ofText? ('0' :: mark :: rest) =
      (ofMark? mark rest).or (decimal? ('0' :: mark :: rest)) := by
  simp only [ofText?, ofMark?]
  split
  · next found => rw [found, Option.some_or]
  · next notFound => rw [notFound, Option.none_or]

theorem Numeral.ofMark?_of_alike {mark : Char} {n : Numeral}
    (alike : Alike (n.text.length - 2) n.text.length xs ys) (positive : 0 < n.text.length)
    (isNumeral : ∀ m, ofMark? mark xs = some m → m = n) : ofMark? mark ys = ofMark? mark xs := by
  by_cases isHex : (mark = 'x' || mark = 'X') = true
  · simp only [ofMark?, if_pos isHex] at isNumeral ⊢
    exact marked?_of_alike alike positive isNumeral
  · by_cases isBinary : (mark = 'b' || mark = 'B') = true
    · simp only [ofMark?, if_neg isHex, if_pos isBinary] at isNumeral ⊢
      exact marked?_of_alike alike positive isNumeral
    · simp only [ofMark?, if_neg isHex, if_neg isBinary]

/-- The digits behind a point. -/
def Numeral.decimals (text : List Char) : List Char :=
  match text with
  | '.' :: rest => rest.takeWhile Char.isDigit
  | _ => []

theorem Numeral.decimal?_eq (text : List Char) :
    decimal? text =
      let digits := text.takeWhile Char.isDigit
      let decimals := decimals (text.drop digits.length)
      if digits.isEmpty then none
      else some (if decimals.isEmpty then whole digits else fraction digits decimals) := by
  unfold decimal?
  dsimp only
  split
  · rfl
  · generalize text.drop _ = behind
    split
    · rfl
    · next noPoint =>
      have none : decimals behind = [] := by
        unfold decimals
        split
        · exact absurd rfl (noPoint _)
        · rfl
      rw [none]
      rfl

theorem Numeral.decimals_of_alike {n : Nat} (alike : Alike n (n + 2) xs ys)
    (covered : decimals xs ≠ [] → (decimals xs).length < n) : decimals ys = decimals xs := by
  unfold decimals at covered ⊢
  split at covered
  · next rest =>
    cases ys with
    | nil =>
      -- A point with digits behind it is covered, so it is not cut off.
      by_contra differ
      have inside := covered (Ne.symm differ)
      obtain ⟨_, isCons, -⟩ := alike.exists_cons (by omega)
      cases isCons
    | cons d ys =>
      obtain rfl := alike.eq_of_cons (by omega)
      have behind : Alike (n - 1) (n + 1) rest ys := alike.drop 1
      have short : (rest.takeWhile Char.isDigit).length ≤ n - 1 := by
        by_cases none : rest.takeWhile Char.isDigit = []
        · rw [none]
          exact Nat.zero_le _
        · have inside := covered none
          omega
      exact behind.takeWhile_eq short (by omega)
  · next noPoint =>
    split
    · obtain ⟨rest, isCons, -⟩ := alike.symm.exists_cons (by omega)
      exact absurd isCons (noPoint rest)
    · rfl

/-- A numeral covers its digits, and its point if there are digits behind it. -/
theorem Numeral.length_digits_le {n : Numeral} (h : decimal? xs = some n) :
    let digits := xs.takeWhile Char.isDigit
    let decimals := decimals (xs.drop digits.length)
    digits.length ≤ n.text.length ∧
      (decimals ≠ [] → decimals.length < n.text.length - digits.length) := by
  simp only [decimal?_eq] at h ⊢
  split at h <;> cases h
  split
  · next isEmpty => exact ⟨Nat.le_refl _, absurd (List.isEmpty_iff.mp isEmpty)⟩
  · simp only [text, List.length_append, List.length_cons]
    exact ⟨Nat.le_add_right _ _, fun _ => by omega⟩

theorem Numeral.decimal?_of_alike {n : Numeral} (h : decimal? xs = some n)
    (alike : Alike n.text.length (n.text.length + 2) xs ys) : decimal? ys = some n := by
  obtain ⟨covers, point⟩ := length_digits_le h
  have digits : ys.takeWhile Char.isDigit = xs.takeWhile Char.isDigit :=
    alike.takeWhile_eq covers (by omega)
  have later := alike.drop (xs.takeWhile Char.isDigit).length
  have fractional : decimals (ys.drop (xs.takeWhile Char.isDigit).length) =
      decimals (xs.drop (xs.takeWhile Char.isDigit).length) :=
    decimals_of_alike (later.mono (Nat.le_refl _) (by omega)) point
  rw [decimal?_eq] at h ⊢
  simp only [digits, fractional]
  exact h

theorem Numeral.ofText?_of_ne {c : Char} (notZero : c ≠ '0') (rest : List Char) :
    ofText? (c :: rest) = decimal? (c :: rest) := by
  unfold ofText?
  split
  · next isText => exact absurd (List.cons.inj isText).1 notZero
  · rfl

theorem Numeral.ofText?_singleton (c : Char) : ofText? [c] = decimal? [c] := by
  by_cases isZero : c = '0'
  · subst isZero
    rfl
  · exact ofText?_of_ne isZero []

/-- A marked numeral is longer than one character. -/
theorem Numeral.decimal?_of_short {n : Numeral} (h : ofText? xs = some n)
    (short : n.text.length ≤ 1) : decimal? xs = some n := by
  have tooShort : ∀ {base : Nat} {mark : Char} {isDigit : Char → Bool} {rest : List Char},
      marked? base mark isDigit rest ≠ some n := by
    intro base mark isDigit rest found
    obtain ⟨digits, -, rfl⟩ := marked?_eq_some found
    simp only [text, List.length_cons] at short
    omega
  rcases ofText?_eq_some h with ⟨_, _, _, -, found⟩ | ⟨_, _, _, -, found⟩ | found
  · exact absurd found tooShort
  · exact absurd found tooShort
  · exact found

theorem Numeral.ofText?_of_alike {n : Numeral} (h : ofText? xs = some n)
    (alike : Alike n.text.length (n.text.length + 2) xs ys) : ofText? ys = some n := by
  have positive := List.length_pos_iff.mpr (ofText?_text h).2
  cases xs with
  | nil => cases h
  | cons c xs =>
  obtain ⟨zs, rfl, later⟩ := alike.exists_cons positive
  cases zs with
  | nil =>
    cases xs with
    | nil => exact h
    | cons mark xs =>
      have short : n.text.length ≤ 1 := by
        by_contra long
        obtain ⟨_, isCons, -⟩ := later.exists_cons (by omega)
        cases isCons
      rw [ofText?_singleton]
      exact decimal?_of_alike (decimal?_of_short h short) alike
  | cons mark zs =>
    obtain ⟨xs, rfl, -⟩ := later.symm.exists_cons (by omega)
    by_cases isZero : c = '0'
    · subst isZero
      rw [ofText?_zero] at h ⊢
      have marked : ofMark? mark zs = ofMark? mark xs := by
        refine ofMark?_of_alike (alike.drop 2) positive ?_
        intro m found
        rw [found] at h
        exact Option.some.inj h
      rw [marked]
      cases found : ofMark? mark xs with
      | some m =>
        rw [found] at h
        exact h
      | none =>
        rw [found, Option.none_or] at h
        exact decimal?_of_alike h alike
    · rw [ofText?_of_ne isZero] at h ⊢
      exact decimal?_of_alike h alike

theorem number?_of_alike (h : number? place xs = some l)
    (alike : Alike l.text.length (l.text.length + 2) xs ys) : number? place ys = some l := by
  obtain ⟨n, found, rfl⟩ := Option.map_eq_some_iff.mp h
  rw [number?, Numeral.ofText?_of_alike found alike]
  rfl

/-! ## Quoted literals -/

theorem QuotedPiece.codeEscape_of_alike
    (alike : Alike (codeEscape xs).text.length ((codeEscape xs).text.length + 1)
      ('\\' :: 'u' :: xs) ('\\' :: 'u' :: ys)) :
    codeEscape ys = codeEscape xs := by
  have later : Alike _ _ (xs.take 4) (ys.take 4) := (alike.drop 2).take 4
  simp only [codeEscape, List.length_cons] at later
  have digits : (ys.take 4).takeWhile isHexDigit = (xs.take 4).takeWhile isHexDigit :=
    later.takeWhile_eq (by omega) (by omega)
  simp only [codeEscape, digits]

theorem QuotedPiece.first_of_alike {c : Char}
    (alike : Alike (first c xs).text.length ((first c xs).text.length + 1) (c :: xs) (c :: ys)) :
    first c ys = first c xs := by
  have positive := List.length_pos_iff.mpr (first_text_ne_nil c xs)
  have later : Alike _ _ xs ys := alike.drop 1
  unfold first at alike later positive ⊢
  by_cases isEscape : c = '\\'
  · subst isEscape
    rw [if_pos rfl] at alike later positive
    rw [if_pos rfl, if_pos rfl]
    cases xs with
    | nil => rw [later.eq_nil (by omega)]
    | cons d xs =>
      by_cases isFeed : d = '\n'
      · -- The backslash stands alone, at the end of the line as at the end of the text.
        cases ys with
        | nil => simp only [escape, if_pos isFeed]
        | cons e ys =>
          obtain rfl := later.eq_of_cons (by omega)
          simp only [escape, if_pos isFeed]
      · have two : 2 ≤ (escape (d :: xs)).text.length := by
          simp only [escape, if_neg isFeed]
          split
          · exact Nat.le_add_left 2 _
          · split <;> exact Nat.le_refl _
        obtain ⟨zs, rfl, -⟩ := later.exists_cons (by omega)
        simp only [escape, if_neg isFeed] at alike ⊢
        by_cases isCode : d = 'u'
        · subst isCode
          rw [if_pos rfl] at alike
          rw [if_pos rfl, if_pos rfl]
          exact codeEscape_of_alike alike
        · rw [if_neg isCode, if_neg isCode]
  · rw [if_neg isEscape, if_neg isEscape]

theorem quotedPieces_of_alike {n : Nat} (quote : Char) (alike : Alike n (n + 1) xs ys)
    (covered : ((quotedPieces quote xs).1.flatMap (·.text)).length +
      (if (quotedPieces quote xs).2 then 1 else 0) ≤ n) :
    quotedPieces quote ys = quotedPieces quote xs := by
  fun_induction quotedPieces quote xs generalizing n ys with
  | case1 => rw [alike.eq_nil (Nat.succ_pos n), quotedPieces]
  | case2 rest =>
    cases ys with
    | nil => rw [quotedPieces]
    | cons c ys =>
      obtain rfl := alike.eq_of_cons (Nat.succ_pos n)
      rw [quotedPieces, if_pos rfl]
  | case3 rest notFeed =>
    obtain ⟨zs, rfl, -⟩ := alike.exists_cons covered
    rw [quotedPieces, if_neg notFeed, if_pos rfl]
  | case4 c rest notFeed notQuote piece pieces closed read =>
    rename_i ih
    rw [read] at ih
    simp only [List.flatMap_cons, List.length_append] at covered
    have positive : 0 < piece.text.length :=
      List.length_pos_iff.mpr (QuotedPiece.first_text_ne_nil c rest)
    obtain ⟨zs, rfl, -⟩ := alike.exists_cons (by omega)
    have front : Alike piece.text.length (piece.text.length + 1) (c :: rest) (c :: zs) :=
      alike.mono (by omega) (by omega)
    have first : QuotedPiece.first c zs = piece := QuotedPiece.first_of_alike front
    have later := ih ((alike.drop piece.text.length).mono (Nat.le_refl _) (by omega))
      (by simp only; omega)
    rw [quotedPieces, if_neg notFeed, if_neg notQuote]
    simp only [first, later]

theorem quoted?_of_alike {quote : Char} {token : String → Token}
    (h : quoted? quote token place xs = some l)
    (alike : Alike l.text.length (l.text.length + 1) xs ys) :
    quoted? quote token place ys = some l := by
  unfold quoted? at h
  split at h
  · cases h
  next c rest =>
  split at h
  case isFalse => cases h
  next isQuote =>
  cases h
  simp only [List.length_append, List.length_cons, apply_ite List.length, List.length_nil,
    Nat.reduceAdd] at alike
  obtain ⟨zs, rfl, later⟩ := alike.exists_cons (by omega)
  have pieces := quotedPieces_of_alike quote (later.mono (Nat.le_refl _) (by omega)) (by omega)
  simp only [quoted?, if_pos isQuote, pieces]

/-! ## Verbatim strings -/

theorem verbatimBody_of_alike {n : Nat} (alike : Alike n (n + 1) xs ys)
    (covered : (doubleQuotes (verbatimBody xs).1).length +
      (if (verbatimBody xs).2 then 1 else 0) ≤ n) :
    verbatimBody ys = verbatimBody xs := by
  fun_induction verbatimBody xs generalizing n ys with
  | case1 => rw [alike.eq_nil (Nat.succ_pos n), verbatimBody]
  | case2 rest value closed read ih =>
    rw [read] at ih
    simp only [doubleQuotes, List.flatMap_cons, if_true, List.length_append, List.length_cons,
      List.length_nil] at covered
    obtain ⟨zs, rfl, later⟩ := alike.exists_cons_cons (by omega)
    have same := ih (later.mono (Nat.le_refl _) (by omega)) (by simp only [doubleQuotes]; omega)
    rw [verbatimBody, same]
  | case3 rest notDouble =>
    have positive : 0 < n := covered
    obtain ⟨zs, rfl, later⟩ := alike.exists_cons positive
    have notDouble' : ∀ more, zs = '"' :: more → False := by
      rintro more rfl
      obtain ⟨more', isRest, -⟩ := later.symm.exists_cons (by omega)
      exact notDouble more' rfl isRest
    rw [verbatimBody, if_pos rfl]
    exact fun more _ => notDouble' more
  | case4 c rest notDouble notQuote value closed read ih =>
    rw [read] at ih
    simp only [doubleQuotes, List.flatMap_cons, if_neg notQuote, List.length_append,
      List.length_singleton] at covered
    obtain ⟨zs, rfl, later⟩ := alike.exists_cons (by omega)
    have same := ih (later.mono (Nat.le_refl _) (by omega)) (by simp only [doubleQuotes]; omega)
    rw [verbatimBody, if_neg notQuote, same]
    exact fun more isQuote => absurd isQuote notQuote

theorem verbatimString?_of_alike (h : verbatimString? place xs = some l)
    (alike : Alike l.text.length (l.text.length + 1) xs ys) :
    verbatimString? place ys = some l := by
  unfold verbatimString? at h
  split at h <;> cases h
  next rest =>
  simp only [List.length_append, List.length_cons, apply_ite List.length, List.length_nil,
    Nat.reduceAdd] at alike
  obtain ⟨zs, rfl, later⟩ := alike.exists_cons_cons (by omega)
  have body := verbatimBody_of_alike (later.mono (Nat.le_refl _) (by omega)) (by omega)
  simp only [verbatimString?, body]

/-! ## All forms -/

theorem operator?_of_alike {n : Nat} {o : Operator} (h : operator? o xs = some l)
    (alike : Alike l.text.length n xs ys) : operator? o ys = some l := by
  simp only [operator?] at h
  split at h <;> cases h
  next begins =>
  have begins' := alike.isPrefix (List.isPrefixOf_iff_prefix.mp begins) (Nat.le_refl _)
  rw [operator?, if_pos (List.isPrefixOf_iff_prefix.mpr begins')]

theorem brace?_of_alike {b : Brace} (h : brace? b xs = some l) (alike : Alike 1 1 xs ys) :
    brace? b ys = some l := by
  rw [← h, brace?, brace?, alike.head?_eq Nat.one_pos Nat.one_pos]

/-- What a form finds depends on the text that it covers and the two characters after it, if they
are not cut off. -/
theorem recognize_of_alike (inCatalog : form ∈ defaultCatalog)
    (h : form.recognize followsHash place xs = some l)
    (alike : Alike l.text.length (l.text.length + 2) xs ys) :
    form.recognize followsHash place ys = some l := by
  have one := alike.mono (Nat.le_refl _) (Nat.le_succ (l.text.length + 1))
  have positive := List.length_pos_iff.mpr (recognize_ne_nil inCatalog h)
  cases form with
  | whitespace => exact whitespace?_of_alike h one
  | lineComment => exact lineComment?_of_alike h one
  | blockComment => exact blockComment?_of_alike h one
  | word => exact word?_of_alike h one
  | operator o => exact operator?_of_alike h alike
  | brace b => exact brace?_of_alike h (alike.mono positive (Nat.le_add_left 1 _))
  | number => exact number?_of_alike h alike
  | char | string => exact quoted?_of_alike h one
  | verbatimString => exact verbatimString?_of_alike h one
  | pattern p => simp [defaultCatalog] at inCatalog

/-! ## Where forms find anything -/

theorem Numeral.isSome_ofText? {c : Char} (isDigit : c.isDigit = true) (rest : List Char) :
    (ofText? (c :: rest)).isSome = true := by
  have decimal : (decimal? (c :: rest)).isSome = true := by
    simp only [decimal?, List.takeWhile_cons_of_pos isDigit, List.isEmpty_cons, Bool.false_eq_true,
      if_false]
    split <;> rfl
  simp only [ofText?]
  split
  · rfl
  · exact decimal

theorem recognize_isSome_iff (inCatalog : form ∈ defaultCatalog) :
    (form.recognize followsHash place xs).isSome = true ↔ form.opening.Opens xs := by
  constructor
  · intro isSome
    obtain ⟨l, found⟩ := Option.isSome_iff_exists.mp isSome
    exact (opens_of_recognize found).mono (recognize_isPrefix found)
  · intro opens
    cases form with
    | whitespace =>
      obtain ⟨c, isFirst, isBlank⟩ := opens
      obtain ⟨rest, rfl⟩ := List.head?_eq_some_iff.mp isFirst
      have holds : Text.isBlank c = true := isBlank
      simp [recognize, whitespace?, List.takeWhile_cons_of_pos holds]
    | lineComment | blockComment | verbatimString =>
      obtain ⟨rest, rfl⟩ := opens
      rfl
    | word =>
      obtain ⟨c, isFirst, isStart⟩ := opens
      obtain ⟨rest, rfl⟩ := List.head?_eq_some_iff.mp isFirst
      have holds : Text.isWordStart c = true := isStart
      simp only [recognize, word?, wordText, holds, if_true, List.isEmpty_cons, Bool.false_eq_true,
        if_false]
      split
      · split <;> rfl
      · rfl
      · rfl
    | operator o =>
      have begins : o.chars.isPrefixOf xs = true := List.isPrefixOf_iff_prefix.mpr opens
      rw [recognize, operator?, if_pos begins]
      rfl
    | brace b =>
      obtain ⟨rest, rfl⟩ := opens
      have isFirst : ([b.char] ++ rest).head? = some b.char := rfl
      rw [recognize, brace?, if_pos isFirst]
      rfl
    | number =>
      obtain ⟨c, isFirst, isDigit⟩ := opens
      obtain ⟨rest, rfl⟩ := List.head?_eq_some_iff.mp isFirst
      rw [recognize, number?, Option.isSome_map]
      exact Numeral.isSome_ofText? isDigit rest
    | char | string =>
      obtain ⟨rest, rfl⟩ := opens
      rfl
    | pattern p => simp [defaultCatalog] at inCatalog

theorem opening_size_le : ∀ form ∈ defaultCatalog, form.opening.size ≤ 2 := by decide

/-- Two characters tell whether a form finds anything, if they are not cut off. -/
theorem recognize_eq_none_of_alike {m : Nat} (inCatalog : form ∈ defaultCatalog)
    (h : form.recognize followsHash place xs = none) (alike : Alike m 2 xs ys) :
    form.recognize followsHash place ys = none := by
  cases found : form.recognize followsHash place ys with
  | none => rfl
  | some l =>
    have isSome : (form.recognize followsHash place ys).isSome = true := by rw [found]; rfl
    have opens := (recognize_isSome_iff inCatalog).mp isSome
    have opens' := (opens.take (opening_size_le form inCatalog)).mono alike.back
    have isSome' : (form.recognize followsHash place xs).isSome = true :=
      (recognize_isSome_iff inCatalog).mpr opens'
    rw [h] at isSome'
    cases isSome'

end Form

end SharpFront
