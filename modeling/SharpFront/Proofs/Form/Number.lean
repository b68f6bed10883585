import SharpFront.Proofs.Form.Covered
import SharpFront.Proofs.Place

/-!
# How numbers are written

Numbers are written in characters of one byte, so that their bytes count their characters.

* `ofText?_isWritten`: the numerals that a text can start with;
* `IsWritten.byteSize_text`, `IsWritten.exists_of_octal`: what follows for their spelling.
-/

namespace SharpFront.Form

theorem utf8Size_of_toNat_le {c : Char} (h : c.toNat ≤ 127) : c.utf8Size = 1 :=
  Char.utf8Size_eq_one_iff.mpr (UInt32.le_iff_toNat_le.mpr h)

theorem isHexDigit_of_isDigit {c : Char} (h : c.isDigit = true) : isHexDigit c = true := by
  simp only [isHexDigit, h, Bool.true_or]

theorem isHexDigit_of_isBinaryDigit {c : Char} (h : isBinaryDigit c = true) :
    isHexDigit c = true := by
  simp only [isBinaryDigit, Bool.or_eq_true, beq_iff_eq] at h
  rcases h with rfl | rfl <;> rfl

theorem utf8Size_of_isHexDigit {c : Char} (h : isHexDigit c = true) : c.utf8Size = 1 := by
  refine utf8Size_of_toNat_le ?_
  simp only [isHexDigit, Char.isDigit_iff_toNat, Bool.or_eq_true, Bool.and_eq_true,
    decide_eq_true_eq, Char.reduceToNat] at h
  omega

theorem byteSize_of_isHexDigit {digits : List Char} (h : ∀ c ∈ digits, isHexDigit c = true) :
    byteSize digits = digits.length := by
  induction digits with
  | nil => rfl
  | cons c digits ih =>
    have size := utf8Size_of_isHexDigit (h c List.mem_cons_self)
    have rest := ih fun d isDigit => h d (List.mem_cons_of_mem c isDigit)
    rw [byteSize, size, rest, List.length_cons, Nat.add_comm]

namespace Numeral

/-- The numerals that a text can start with. -/
inductive IsWritten : Numeral → Prop where
  | hex {mark digits} (isMark : mark = 'x' ∨ mark = 'X')
    (areDigits : ∀ c ∈ digits, isHexDigit c = true) : IsWritten (.prefixed 16 mark digits)
  | binary {mark digits} (isMark : mark = 'b' ∨ mark = 'B')
    (areDigits : ∀ c ∈ digits, isBinaryDigit c = true) : IsWritten (.prefixed 2 mark digits)
  | whole {digits} (areDigits : ∀ c ∈ digits, c.isDigit = true) : IsWritten (.whole digits)
  | fraction {integral decimals} (areDigits : ∀ c ∈ integral, c.isDigit = true)
    (areDecimals : ∀ c ∈ decimals, c.isDigit = true) : IsWritten (.fraction integral decimals)

theorem marked?_eq_some {base : Nat} {mark : Char} {isDigit : Char → Bool} {rest : List Char}
    {n : Numeral} (h : marked? base mark isDigit rest = some n) :
    ∃ digits, (∀ c ∈ digits, isDigit c = true) ∧ n = .prefixed base mark digits := by
  simp only [marked?] at h
  split at h
  · cases h
  · cases h
    exact ⟨_, List.all_eq_true.mp List.all_takeWhile, rfl⟩

theorem decimal?_isWritten {text : List Char} {n : Numeral} (h : decimal? text = some n) :
    n.IsWritten := by
  have areDigits : ∀ (cs : List Char), ∀ c ∈ cs.takeWhile Char.isDigit, c.isDigit = true :=
    fun cs => List.all_eq_true.mp List.all_takeWhile
  simp only [decimal?] at h
  split at h
  · cases h
  · split at h
    · split at h
      · cases h
        exact .whole (areDigits _)
      · cases h
        exact .fraction (areDigits _) (areDigits _)
    · cases h
      exact .whole (areDigits _)

theorem ofText?_isWritten {text : List Char} {n : Numeral} (h : ofText? text = some n) :
    n.IsWritten := by
  rcases ofText?_eq_some h with ⟨_, _, isMark, -, found⟩ | ⟨_, _, isMark, -, found⟩ | found
  · obtain ⟨digits, areDigits, rfl⟩ := marked?_eq_some found
    exact .hex isMark areDigits
  · obtain ⟨digits, areDigits, rfl⟩ := marked?_eq_some found
    exact .binary isMark areDigits
  · exact decimal?_isWritten found

variable {n : Numeral}

theorem IsWritten.byteSize_text (h : n.IsWritten) : byteSize n.text = n.text.length := by
  have marked : ∀ {mark : Char} {digits : List Char}, mark.utf8Size = 1 →
      (∀ c ∈ digits, isHexDigit c = true) →
      byteSize ('0' :: mark :: digits) = ('0' :: mark :: digits).length := by
    intro mark digits size areDigits
    have zeroSize : '0'.utf8Size = 1 := rfl
    rw [byteSize, byteSize, zeroSize, size, byteSize_of_isHexDigit areDigits, List.length_cons,
      List.length_cons]
    omega
  cases h with
  | hex isMark areDigits =>
    refine marked ?_ areDigits
    rcases isMark with rfl | rfl <;> rfl
  | binary isMark areDigits =>
    refine marked ?_ fun c isDigit => isHexDigit_of_isBinaryDigit (areDigits c isDigit)
    rcases isMark with rfl | rfl <;> rfl
  | whole areDigits =>
    exact byteSize_of_isHexDigit fun c isDigit => isHexDigit_of_isDigit (areDigits c isDigit)
  | @fraction integral decimals areDigits areDecimals =>
    have point := byteSize_append ['.'] decimals
    have total := byteSize_append integral ('.' :: decimals)
    rw [List.singleton_append] at point
    rw [point,
      byteSize_of_isHexDigit fun c isDigit => isHexDigit_of_isDigit (areDigits c isDigit),
      byteSize_of_isHexDigit fun c isDigit => isHexDigit_of_isDigit (areDecimals c isDigit)]
      at total
    rw [Numeral.text, total, List.length_append, List.length_cons, Nat.add_comm decimals.length]
    rfl

/-- An octal number is written with a zero in front. -/
theorem IsWritten.exists_of_octal (h : n.IsWritten) (isOctal : n.base = 8) :
    ∃ digits, n.text = '0' :: digits := by
  cases h with
  | hex isMark areDigits => cases isOctal
  | binary isMark areDigits => cases isOctal
  | fraction areDigits areDecimals => cases isOctal
  | @whole digits areDigits =>
    simp only [base] at isOctal
    split at isOctal
    · next leadingZero =>
      simp only [Bool.and_eq_true, beq_iff_eq] at leadingZero
      exact List.head?_eq_some_iff.mp leadingZero.1.2
    · cases isOctal

end Numeral

end SharpFront.Form
