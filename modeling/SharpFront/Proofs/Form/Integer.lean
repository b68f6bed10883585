import Mathlib.Data.List.Basic
import Mathlib.Data.List.TakeWhile
import SharpFront.Preprocess.Directive
import SharpFront.Proofs.Binary64
import SharpFront.Proofs.Form.Number

/-!
# Whole numbers as they are written

A whole number is written in one of three bases behind a mark or a zero, or in decimal digits. Its
literal keeps the base, and the value that the digits have in floating point.

* `IsInteger`: a text that stands for a whole number, its base and its digits;
* `IsWritten.eq_of_text`: no text is written in two ways;
* `IsInteger.exists_numeral`, `exists_isInteger`: these are the texts that are read without a point;
* `number?_integer`: what their literals say, however many digits they have.
-/

namespace SharpFront.Form

/-- The text stands for a whole number in the base with the digits. -/
inductive IsInteger : List Char → Nat → List Char → Prop where
  | hex {mark : Char} {digits : List Char} (isMark : mark = 'x' ∨ mark = 'X') (isSome : digits ≠ [])
    (areDigits : ∀ c ∈ digits, isHexDigit c = true) : IsInteger ('0' :: mark :: digits) 16 digits
  | binary {mark : Char} {digits : List Char} (isMark : mark = 'b' ∨ mark = 'B')
    (isSome : digits ≠ []) (areDigits : ∀ c ∈ digits, isBinaryDigit c = true) :
    IsInteger ('0' :: mark :: digits) 2 digits
  | octal {digits : List Char} (isSome : digits ≠ [])
    (areDigits : ∀ c ∈ digits, isOctalDigit c = true) : IsInteger ('0' :: digits) 8 ('0' :: digits)
  /-- A zero in front does not make a run octal that has an 8 or a 9. -/
  | decimal {digits : List Char} (isSome : digits ≠ []) (areDigits : ∀ c ∈ digits, c.isDigit = true)
    (notOctal : ∀ rest, digits = '0' :: rest → rest ≠ [] → ∃ c ∈ rest, isOctalDigit c = false) :
    IsInteger digits 10 digits

/-- The whole number that digits denote in a base, the last digit counting once. -/
def denoted (base : Nat) (digits : List Char) : Nat :=
  Nat.ofDigits base (digits.map digitValue).reverse

theorem isDigit_of_isOctalDigit {c : Char} (h : isOctalDigit c = true) : c.isDigit = true := by
  simp only [isOctalDigit, Bool.and_eq_true, decide_eq_true_eq, Char.reduceToNat] at h
  simp only [Char.isDigit_iff_toNat, Char.reduceToNat]
  omega

namespace Numeral

variable {n m : Numeral} {text w digits : List Char} {base : Nat}

/-! ## One text, one numeral -/

/-- Only a fraction has a point. -/
theorem IsWritten.point_mem_iff (h : n.IsWritten) : '.' ∈ n.text ↔ n.isFraction = true := by
  have notDigit : ('.' : Char).isDigit = false := by decide
  have notHex : isHexDigit '.' = false := by decide
  cases h with
  | fraction areDigits areDecimals => simp [text, isFraction]
  | whole areDigits =>
    simp only [text, isFraction, Bool.false_eq_true, iff_false]
    intro isPoint
    rw [areDigits _ isPoint] at notDigit
    cases notDigit
  | @hex mark digits isMark areDigits =>
    have noPoint : '.' ∉ digits := by
      intro isPoint
      rw [areDigits _ isPoint] at notHex
      cases notHex
    rcases isMark with rfl | rfl <;> simp [text, isFraction, noPoint]
  | @binary mark digits isMark areDigits =>
    have noPoint : '.' ∉ digits := by
      intro isPoint
      rw [isHexDigit_of_isBinaryDigit (areDigits _ isPoint)] at notHex
      cases notHex
    rcases isMark with rfl | rfl <;> simp [text, isFraction, noPoint]

/-- What is written with a mark is no run of digits. -/
theorem not_areDigits_of_mark {mark : Char} (h : mark ∈ ['x', 'X', 'b', 'B']) :
    ¬∀ c ∈ '0' :: mark :: digits, c.isDigit = true := by
  intro areDigits
  have isDigit := areDigits mark (List.mem_cons_of_mem '0' List.mem_cons_self)
  have noDigit : mark.isDigit = false := by
    simp only [List.mem_cons, List.not_mem_nil, or_false] at h
    rcases h with rfl | rfl | rfl | rfl <;> decide
  rw [noDigit] at isDigit
  cases isDigit

/-- Only a whole number without a mark is a run of digits. -/
theorem IsWritten.areDigits_iff (h : n.IsWritten) :
    (∀ c ∈ n.text, c.isDigit = true) ↔ ∃ digits, n = .whole digits := by
  cases h with
  | whole areDigits => exact ⟨fun _ => ⟨_, rfl⟩, fun _ => areDigits⟩
  | hex isMark | binary isMark =>
    refine iff_of_false (not_areDigits_of_mark ?_) (by simp)
    rcases isMark with rfl | rfl <;> decide
  | fraction =>
    refine iff_of_false ?_ (by simp)
    intro areDigits
    have isDigit := areDigits '.' (by simp [text])
    cases isDigit

/-- A text without a point is written in one way. -/
theorem IsWritten.eq_of_text (h : n.IsWritten) (notFraction : n.isFraction = false)
    (h' : m.IsWritten) (same : m.text = n.text) : m = n := by
  have notFraction' : m.isFraction = false := by
    rw [← Bool.not_eq_true, ← h'.point_mem_iff, same, h.point_mem_iff, notFraction]
    exact Bool.false_ne_true
  have alike : (∃ digits, m = .whole digits) ↔ ∃ digits, n = .whole digits := by
    rw [← h'.areDigits_iff, same, h.areDigits_iff]
  cases h with
  | fraction => cases notFraction
  | whole areDigits =>
    obtain ⟨digits, rfl⟩ := alike.mpr ⟨_, rfl⟩
    exact congrArg Numeral.whole same
  | hex isMark =>
    cases h' with
    | fraction => cases notFraction'
    | whole =>
      obtain ⟨_, isWhole⟩ := alike.mp ⟨_, rfl⟩
      cases isWhole
    | hex =>
      cases same
      rfl
    | binary isMark' =>
      cases same
      rcases isMark with rfl | rfl <;> simp at isMark'
  | binary isMark =>
    cases h' with
    | fraction => cases notFraction'
    | whole =>
      obtain ⟨_, isWhole⟩ := alike.mp ⟨_, rfl⟩
      cases isWhole
    | binary =>
      cases same
      rfl
    | hex isMark' =>
      cases same
      rcases isMark with rfl | rfl <;> simp at isMark'

/-! ## What is read without a point -/

/-- A run of digits is octal behind a zero, unless one of them is an 8 or a 9. -/
theorem base_whole_eq_eight_iff :
    (whole digits).base = 8 ↔
      ∃ rest, digits = '0' :: rest ∧ rest ≠ [] ∧ ∀ c ∈ rest, isOctalDigit c = true := by
  have zero : isOctalDigit '0' = true := by decide
  cases digits with
  | nil => simp [base]
  | cons c rest =>
    by_cases isZero : c = '0'
    · subst isZero
      simp [base, zero, List.length_pos_iff]
    · simp [base, isZero]

theorem base_whole_eq_or (digits : List Char) :
    (whole digits).base = 8 ∨ (whole digits).base = 10 := by
  simp only [base]
  split
  · exact .inl rfl
  · exact .inr rfl

/-- A run of digits stands for a whole number. -/
theorem isInteger_whole (isSome : digits ≠ []) (areDigits : ∀ c ∈ digits, c.isDigit = true) :
    IsInteger digits (whole digits).base digits := by
  rcases base_whole_eq_or digits with isOctal | isDecimal
  · rw [isOctal]
    obtain ⟨rest, rfl, isSome, areDigits⟩ := base_whole_eq_eight_iff.mp isOctal
    exact .octal isSome areDigits
  · rw [isDecimal]
    refine .decimal isSome areDigits ?_
    intro rest isRest restSome
    by_contra! areOctal
    have isOctal := base_whole_eq_eight_iff.mpr
      ⟨rest, isRest, restSome, fun c isDigit => (Bool.not_eq_false _).mp (areOctal c isDigit)⟩
    rw [isDecimal] at isOctal
    cases isOctal

theorem ne_nil_of_marked? {mark : Char} {isDigit : Char → Bool} {rest : List Char}
    (h : marked? base mark isDigit rest = some (prefixed base mark digits)) : digits ≠ [] := by
  simp only [marked?] at h
  split at h
  · cases h
  · next notEmpty =>
    cases h
    exact mt List.isEmpty_iff.mpr notEmpty

theorem exists_digits_of_decimal? (h : decimal? text = some n)
    (notFraction : n.isFraction = false) :
    ∃ digits, digits ≠ [] ∧ (∀ c ∈ digits, c.isDigit = true) ∧ n = whole digits := by
  have areDigits : ∀ c ∈ text.takeWhile Char.isDigit, c.isDigit = true :=
    List.all_eq_true.mp List.all_takeWhile
  simp only [decimal?] at h
  split at h
  · cases h
  · next notEmpty =>
    refine ⟨_, mt List.isEmpty_iff.mpr notEmpty, areDigits, ?_⟩
    split at h
    · split at h
      · cases h
        rfl
      · cases h
        cases notFraction
    · cases h
      rfl

/-- What is read without a point stands for a whole number. -/
theorem exists_isInteger (h : ofText? text = some n) (notFraction : n.isFraction = false) :
    ∃ digits, IsInteger n.text n.base digits := by
  rcases ofText?_eq_some h with
    ⟨mark, rest, isMark, -, found⟩ | ⟨mark, rest, isMark, -, found⟩ | found
  · obtain ⟨digits, areDigits, rfl⟩ := marked?_eq_some found
    exact ⟨digits, .hex isMark (ne_nil_of_marked? found) areDigits⟩
  · obtain ⟨digits, areDigits, rfl⟩ := marked?_eq_some found
    exact ⟨digits, .binary isMark (ne_nil_of_marked? found) areDigits⟩
  · obtain ⟨digits, isSome, areDigits, rfl⟩ := exists_digits_of_decimal? found notFraction
    exact ⟨digits, isInteger_whole isSome areDigits⟩

/-! ## What stands for a whole number is read -/

theorem marked?_of_digits (base : Nat) (mark : Char) {isDigit : Char → Bool} (isSome : digits ≠ [])
    (areDigits : ∀ c ∈ digits, isDigit c = true) :
    marked? base mark isDigit digits = some (prefixed base mark digits) := by
  have whole : digits.takeWhile isDigit = digits :=
    List.takeWhile_eq_self_iff.mpr areDigits
  simp only [marked?, whole, List.isEmpty_eq_false_iff.mpr isSome, Bool.false_eq_true, if_false]

theorem decimal?_of_digits (isSome : digits ≠ []) (areDigits : ∀ c ∈ digits, c.isDigit = true) :
    decimal? digits = some (whole digits) := by
  have taken : digits.takeWhile Char.isDigit = digits :=
    List.takeWhile_eq_self_iff.mpr areDigits
  simp only [decimal?, taken, List.drop_length, List.isEmpty_eq_false_iff.mpr isSome,
    Bool.false_eq_true, if_false]

theorem ofText?_of_digits (isSome : digits ≠ []) (areDigits : ∀ c ∈ digits, c.isDigit = true) :
    ofText? digits = some (whole digits) := by
  have read := decimal?_of_digits isSome areDigits
  unfold ofText?
  split
  · next mark rest =>
    have noMark : ∀ other ∈ ['x', 'X', 'b', 'B'], mark ≠ other := by
      rintro other isOther rfl
      exact not_areDigits_of_mark isOther areDigits
    simp only [List.forall_mem_cons] at noMark
    simp [noMark, read]
  · exact read

end Numeral

variable {w digits : List Char} {base : Nat}

/-- The numeral of a whole number. -/
theorem IsInteger.exists_numeral (h : IsInteger w base digits) :
    ∃ n : Numeral, Numeral.ofText? w = some n ∧ n.text = w ∧ n.base = base ∧
      n.isFraction = false ∧ n.value = .ofDigits base (digits.map digitValue) := by
  cases h with
  | @hex mark _ isMark isSome areDigits =>
    have read := Numeral.marked?_of_digits 16 mark isSome areDigits
    refine ⟨.prefixed 16 mark digits, ?_, rfl, rfl, rfl, rfl⟩
    rcases isMark with rfl | rfl <;> simp [Numeral.ofText?, read]
  | @binary mark _ isMark isSome areDigits =>
    have read := Numeral.marked?_of_digits 2 mark isSome areDigits
    refine ⟨.prefixed 2 mark digits, ?_, rfl, rfl, rfl, rfl⟩
    rcases isMark with rfl | rfl <;> simp [Numeral.ofText?, read]
  | @octal rest isSome areDigits =>
    have isOctal : (Numeral.whole ('0' :: rest)).base = 8 :=
      Numeral.base_whole_eq_eight_iff.mpr ⟨rest, rfl, isSome, areDigits⟩
    have allDigits : ∀ c ∈ '0' :: rest, c.isDigit = true := by
      refine List.forall_mem_cons.mpr ⟨by decide, ?_⟩
      intro c isDigit
      exact isDigit_of_isOctalDigit (areDigits c isDigit)
    refine ⟨.whole ('0' :: rest), ?_, rfl, isOctal, rfl, ?_⟩
    · exact Numeral.ofText?_of_digits (List.cons_ne_nil _ _) allDigits
    · rw [Numeral.value, isOctal]
  | decimal isSome areDigits notOctal =>
    have isDecimal : (Numeral.whole w).base = 10 := by
      rcases Numeral.base_whole_eq_or w with isOctal | isDecimal
      · obtain ⟨rest, isRest, restSome, areOctal⟩ := Numeral.base_whole_eq_eight_iff.mp isOctal
        obtain ⟨c, isDigit, notOctal⟩ := notOctal rest isRest restSome
        rw [areOctal c isDigit] at notOctal
        cases notOctal
      · exact isDecimal
    refine ⟨.whole w, Numeral.ofText?_of_digits isSome areDigits, rfl, isDecimal, rfl, ?_⟩
    rw [Numeral.value, isDecimal]

theorem IsInteger.base_pos (h : IsInteger w base digits) : 0 < base := by
  cases h <;> decide

/-- The value of the digits is the number that they denote, or past 2 ^ 53. -/
theorem IsInteger.reads (h : IsInteger w base digits) :
    (Binary64.ofDigits base (digits.map digitValue)).Reads (denoted base digits) :=
  Binary64.ofDigits_reads h.base_pos _

/-- Wherever the text of a whole number is found, its literal is the same. -/
theorem IsInteger.token_eq (h : IsInteger w base digits) {place : Place} {text : List Char}
    {l : Lexeme} (found : number? place text = some l) (isText : l.text = w) :
    l.token = .number
      ⟨.ofDigits base (digits.map digitValue), base, false, .ofChars place.offset w⟩ := by
  obtain ⟨m, read, rfl⟩ := Option.map_eq_some_iff.mp found
  obtain ⟨n, alone, n_text, n_base, notFraction, n_value⟩ := h.exists_numeral
  have same : m = n := by
    apply (Numeral.ofText?_isWritten alone).eq_of_text notFraction
      (Numeral.ofText?_isWritten read)
    rw [n_text]
    exact isText
  rw [same, n_text, n_base, notFraction, n_value]

/-- A plain number is decimal, and what was read fits in 32 bits. -/
theorem plainNumber?_eq_some_iff {value : Binary64} {number : Nat} (reads : value.Reads number)
    {text : Span} {n : Nat} :
    (Token.number ⟨value, base, false, text⟩).plainNumber? = some n ↔
      base = 10 ∧ number = n ∧ n ≤ 2 ^ 32 - 1 := by
  have fits : n < UInt32.size ↔ n ≤ 2 ^ 32 - 1 := Nat.lt_iff_le_pred (by decide)
  by_cases isDecimal : base = 10
  · subst isDecimal
    rw [← fits, ← reads.toNat?_eq_some_iff]
    simp [Token.plainNumber?]
  · simp [Token.plainNumber?, isDecimal]

/-- **What a whole number says, however many digits it has.** Every text that stands for a whole
number is read, and its literal has its base and, below 2 ^ 53, exactly the number that the digits
denote. It is a plain number if the base is ten and the number fits in 32 bits, and then it is that
number. No other text is read without a point. -/
theorem number?_integer (place : Place) :
    (∀ w base digits, IsInteger w base digits →
      (∃ l, number? place w = some l ∧ l.text = w) ∧
      ∀ text l, number? place text = some l → l.text = w →
        ∃ value, l.token = .number ⟨value, base, false, .ofChars place.offset w⟩ ∧
          (denoted base digits < 2 ^ 53 → value = .finite (denoted base digits) 0) ∧
          ∀ n, l.token.plainNumber? = some n ↔
            base = 10 ∧ denoted base digits = n ∧ n ≤ 2 ^ 32 - 1) ∧
    ∀ text l, number? place text = some l → '.' ∉ l.text →
      ∃ base digits, IsInteger l.text base digits := by
  constructor
  · intro w base digits isInteger
    constructor
    · obtain ⟨n, read, n_text, -⟩ := isInteger.exists_numeral
      exact ⟨_, Option.map_eq_some_iff.mpr ⟨n, read, rfl⟩, n_text⟩
    · intro text l found isText
      have token := isInteger.token_eq found isText
      have reads := isInteger.reads
      refine ⟨_, token, reads.eq_finite, ?_⟩
      intro n
      rw [token]
      exact plainNumber?_eq_some_iff reads
  · intro text l found noPoint
    obtain ⟨n, read, rfl⟩ := Option.map_eq_some_iff.mp found
    have notFraction : n.isFraction = false := by
      rw [← Bool.not_eq_true, ← (Numeral.ofText?_isWritten read).point_mem_iff]
      exact noPoint
    obtain ⟨digits, isInteger⟩ := Numeral.exists_isInteger read notFraction
    exact ⟨n.base, digits, isInteger⟩

/-- A zero in front of an 8 leaves the number decimal. -/
theorem number?_integer_leadingZero :
    let l : Lexeme :=
      { token := .number ⟨.finite 89 0, 10, false, ⟨0, "089"⟩⟩, text := ['0', '8', '9'] }
    IsInteger ['0', '8', '9'] 10 ['0', '8', '9'] ∧ denoted 10 ['0', '8', '9'] = 89 ∧
      number? {} ['0', '8', '9', '.'] = some l ∧ '.' ∉ l.text ∧
      (∃ value, l.token = .number ⟨value, 10, false, ⟨0, "089"⟩⟩ ∧ value = .finite 89 0) ∧
      l.token.plainNumber? = some 89 ∧ ∃ base digits, IsInteger l.text base digits := by
  intro l
  have isInteger : IsInteger ['0', '8', '9'] 10 ['0', '8', '9'] := by
    refine .decimal (by decide) (List.all_eq_true.mp (by decide)) ?_
    rintro rest ⟨⟩ -
    exact ⟨'8', by decide, by decide⟩
  have denotes : denoted 10 ['0', '8', '9'] = 89 := by decide
  have found : number? {} ['0', '8', '9', '.'] = some l := rfl
  have noPoint : '.' ∉ l.text := by decide
  obtain ⟨reads, written⟩ := number?_integer {}
  obtain ⟨value, token, exactly, plain⟩ := (reads _ _ _ isInteger).2 _ l found rfl
  rw [denotes] at exactly
  refine ⟨isInteger, denotes, found, noPoint, ⟨value, token, exactly (by decide)⟩, ?_,
    written _ l found noPoint⟩
  exact (plain 89).mpr ⟨rfl, denotes, by decide⟩

/-! ## Numbers as they are written -/

/-- The digits of a number of base ten, which are not those of base eight behind a zero. -/
def IsDecimal (text : List Char) : Prop :=
  text ≠ [] ∧ text.all Char.isDigit = true ∧
    ¬(text.head? = some '0' ∧ 1 < text.length ∧ '8' ∉ text ∧ '9' ∉ text)
  deriving Decidable

/-- The number of base ten that a token says by its text, if it fits in 32 bits. -/
def writtenNumber? : Token → Option Nat
  | .number literal =>
    let digits := literal.text.text.toList
    let number := Nat.ofDigitChars 10 digits 0
    if IsDecimal digits ∧ number ≤ 2 ^ 32 - 1 then some number else none
  | _ => none

theorem IsDecimal.areDigits {text : List Char} (h : IsDecimal text) :
    ∀ c ∈ text, c.isDigit = true := List.all_eq_true.mp h.2.1

theorem isOctalDigit_iff {c : Char} :
    isOctalDigit c = true ↔ c.isDigit = true ∧ c ≠ '8' ∧ c ≠ '9' := by
  simp only [isOctalDigit, Bool.and_eq_true, decide_eq_true_eq, Char.reduceToNat,
    Char.isDigit_iff_toNat, ne_eq, ← Char.toNat_inj]
  omega

theorem areOctalDigits_iff {text : List Char} (areDigits : ∀ c ∈ text, c.isDigit = true) :
    (∀ c ∈ text, isOctalDigit c = true) ↔ '8' ∉ text ∧ '9' ∉ text := by
  constructor
  · intro areOctal
    exact ⟨fun isThere => absurd (areOctal '8' isThere) (by decide),
      fun isThere => absurd (areOctal '9' isThere) (by decide)⟩
  · rintro ⟨noEight, noNine⟩ c isThere
    refine isOctalDigit_iff.mpr ⟨areDigits c isThere, ?_, ?_⟩
    · exact fun same => noEight (same ▸ isThere)
    · exact fun same => noNine (same ▸ isThere)

theorem IsInteger.isDecimal_iff (h : IsInteger w base digits) : IsDecimal w ↔ base = 10 := by
  cases h with
  | hex isMark =>
    refine iff_of_false (fun isDecimal => ?_) (by decide)
    exact Numeral.not_areDigits_of_mark (by rcases isMark with rfl | rfl <;> decide)
      isDecimal.areDigits
  | binary isMark =>
    refine iff_of_false (fun isDecimal => ?_) (by decide)
    exact Numeral.not_areDigits_of_mark (by rcases isMark with rfl | rfl <;> decide)
      isDecimal.areDigits
  | octal isSome areDigits =>
    refine iff_of_false (fun isDecimal => isDecimal.2.2 ⟨rfl, ?_, ?_⟩) (by decide)
    · exact Nat.succ_lt_succ (List.length_pos_iff.mpr isSome)
    · exact (areOctalDigits_iff isDecimal.areDigits).mp
        (List.forall_mem_cons.mpr ⟨by decide, areDigits⟩)
  | decimal isSome areDigits notOctal =>
    refine iff_of_true ⟨isSome, List.all_eq_true.mpr areDigits, ?_⟩ rfl
    rintro ⟨isZero, isLong, without⟩
    obtain ⟨rest, rfl⟩ := List.head?_eq_some_iff.mp isZero
    have restSome : rest ≠ [] := List.length_pos_iff.mp (Nat.lt_of_succ_lt_succ isLong)
    obtain ⟨c, isRest, notOctal⟩ := notOctal rest rfl restSome
    rw [(areOctalDigits_iff areDigits).mpr without c (List.mem_cons_of_mem '0' isRest)] at notOctal
    cases notOctal

theorem IsInteger.digits_eq (h : IsInteger w 10 digits) : digits = w := by
  cases h
  rfl

theorem denoted_eq_ofDigitChars (areDigits : ∀ c ∈ digits, c.isDigit = true) :
    denoted 10 digits = Nat.ofDigitChars 10 digits 0 := by
  rw [denoted, Nat.ofDigits_eq_foldr, List.foldr_reverse, List.foldl_map, Nat.ofDigitChars]
  refine List.foldl_ext _ _ _ fun sofar c isDigit => ?_
  rw [digitValue, if_pos (areDigits c isDigit), Nat.add_comm]
  rfl

/-- A literal is a plain number just when its text is that of one. -/
theorem writtenNumber?_of_number? {place : Place} {text : List Char} {l : Lexeme}
    (found : number? place text = some l) : writtenNumber? l.token = l.token.plainNumber? := by
  by_cases isPoint : '.' ∈ l.text
  · obtain ⟨n, read, rfl⟩ := Option.map_eq_some_iff.mp found
    have isFraction := (Numeral.ofText?_isWritten read).point_mem_iff.mp isPoint
    have notDecimal : ¬IsDecimal n.text := fun isDecimal =>
      absurd (isDecimal.areDigits '.' isPoint) (by decide)
    simp [writtenNumber?, Token.plainNumber?, isFraction, notDecimal, Span.ofChars]
  · obtain ⟨base, digits, isInteger⟩ := (number?_integer place).2 text l found isPoint
    refine Option.ext fun n => ?_
    rw [isInteger.token_eq found rfl, plainNumber?_eq_some_iff isInteger.reads]
    simp only [writtenNumber?, Span.ofChars, String.toList_ofList, isInteger.isDecimal_iff]
    by_cases isDecimal : base = 10
    · subst isDecimal
      have areDigits := (isInteger.isDecimal_iff.mpr rfl).areDigits
      rw [isInteger.digits_eq, denoted_eq_ofDigitChars areDigits]
      simp only [true_and, Option.ite_none_right_eq_some, Option.some.injEq]
      omega
    · simp [isDecimal]

end SharpFront.Form
