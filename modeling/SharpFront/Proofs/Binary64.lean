import Mathlib.Data.List.Induction
import Mathlib.Data.Nat.Digits.Defs
import SharpFront.Binary64

/-!
# Reading whole numbers

A whole number that is read digit by digit is exact as long as it is below 2 ^ 53. From there on its
value is rounded, and may become infinite, but never falls below 2 ^ 53 again.

* `IsPast`: the values that are not below 2 ^ 53;
* `ofNat_isPast`, `IsPast.pushDigit`: rounding does not lead back, and neither does a digit;
* `ofDigits_reads`: digits of any number are read as what they denote, or past 2 ^ 53.
-/

namespace SharpFront.Binary64

/-- A whole number of at least 2 ^ 53, or an infinite value. -/
inductive IsPast : Binary64 → Prop where
  | whole {n : Nat} (large : 2 ^ 53 ≤ n) : IsPast (finite n 0)
  | infinity : IsPast infinity

/-- What a whole number is read as: itself where it is below 2 ^ 53, or else a value past that. -/
structure Reads (x : Binary64) (n : Nat) : Prop where
  eq_finite : n < 2 ^ 53 → x = finite n 0
  isPast : 2 ^ 53 ≤ n → x.IsPast

variable {x : Binary64} {n base : Nat}

/-! ## Rounding -/

theorem div_le_roundDiv (p q : Nat) : p / q ≤ roundDiv p q := by
  unfold roundDiv
  split
  · exact Nat.le_refl _
  · split
    · exact Nat.le_succ _
    · exact Nat.le_add_right _ _

/-- A large number is rounded to a multiple of its unit, which is not below the greatest power of
two in it. -/
theorem ofNat_isPast (large : 2 ^ 53 ≤ n) : (ofNat n).IsPast := by
  have notExact : ¬n < 1 <<< 53 := Nat.not_lt.mpr large
  have positive : n ≠ 0 := by omega
  have size : 53 ≤ n.log2 := (Nat.le_log2 positive).mpr large
  have unit : 1 <<< (n.log2 - 52) = 2 ^ (n.log2 - 52) := Nat.one_shiftLeft _
  have leading : 2 ^ 52 * 2 ^ (n.log2 - 52) = 2 ^ n.log2 := by
    rw [← Nat.pow_add]
    congr 1
    omega
  have significand : 2 ^ 52 ≤ n / 2 ^ (n.log2 - 52) := by
    rw [Nat.le_div_iff_mul_le (Nat.two_pow_pos _), leading]
    exact Nat.log2_self_le positive
  have rounded : 2 ^ 53 ≤ roundDiv n (2 ^ (n.log2 - 52)) * 2 ^ (n.log2 - 52) := calc
    2 ^ 53 ≤ 2 ^ n.log2 := Nat.pow_le_pow_right (by decide) size
    _ = 2 ^ 52 * 2 ^ (n.log2 - 52) := leading.symm
    _ ≤ roundDiv n (2 ^ (n.log2 - 52)) * 2 ^ (n.log2 - 52) :=
      Nat.mul_le_mul_right _ (Nat.le_trans significand (div_le_roundDiv _ _))
  rw [ofNat, if_neg notExact, unit, bounded]
  split
  · exact .whole rounded
  · exact .infinity

theorem ofNat_reads (n : Nat) : Reads (ofNat n) n where
  eq_finite small := ofNat_of_lt small
  isPast large := ofNat_isPast large

/-! ## One digit -/

/-- The second half of a step: the digit is added, and the sum is rounded. -/
def addDigit (digit : Nat) : Binary64 → Binary64
  | infinity => infinity
  | finite m _ => ofNat (m + digit)

theorem pushDigit_finite (base n digit : Nat) :
    pushDigit base (finite n 0) digit = (ofNat (n * base)).addDigit digit := rfl

theorem IsPast.addDigit (h : x.IsPast) (digit : Nat) : (x.addDigit digit).IsPast := by
  cases h with
  | whole large => exact ofNat_isPast (Nat.le_add_right_of_le large)
  | infinity => exact .infinity

theorem IsPast.pushDigit (h : x.IsPast) (positive : 0 < base) (digit : Nat) :
    (pushDigit base x digit).IsPast := by
  cases h with
  | infinity => exact .infinity
  | @whole n large =>
    have product : 2 ^ 53 ≤ n * base := Nat.le_trans large (Nat.le_mul_of_pos_right n positive)
    rw [pushDigit_finite]
    exact (ofNat_isPast product).addDigit digit

theorem Reads.pushDigit (h : x.Reads n) (positive : 0 < base) (digit : Nat) :
    (pushDigit base x digit).Reads (n * base + digit) := by
  by_cases small : n < 2 ^ 53
  · rw [h.eq_finite small, pushDigit_finite]
    by_cases product : n * base < 2 ^ 53
    · rw [ofNat_of_lt product]
      exact ofNat_reads _
    · have past := (ofNat_isPast (Nat.not_lt.mp product)).addDigit digit
      constructor
      · intro smallSum
        omega
      · intro _
        exact past
  · have grows : n ≤ n * base := Nat.le_mul_of_pos_right n positive
    constructor
    · intro smallSum
      omega
    · intro _
      exact (h.isPast (Nat.not_lt.mp small)).pushDigit positive digit

/-! ## All digits -/

/-- **Digits are read as the number they denote**, or past 2 ^ 53, however many they are. The
induction is on the digits from the last one back, as the last one is added at the end. -/
theorem ofDigits_reads (positive : 0 < base) (digits : List Nat) :
    (ofDigits base digits).Reads (Nat.ofDigits base digits.reverse) := by
  induction digits using List.reverseRecOn with
  | nil => exact ofNat_reads 0
  | append_singleton digits digit ih =>
    have last : ofDigits base (digits ++ [digit]) = pushDigit base (ofDigits base digits) digit :=
      List.foldl_append
    have denoted : Nat.ofDigits base (digits ++ [digit]).reverse =
        Nat.ofDigits base digits.reverse * base + digit := by
      rw [List.reverse_append, List.reverse_singleton, List.singleton_append, Nat.ofDigits_cons]
      exact (Nat.add_comm _ _).trans (congrArg (· + digit) (Nat.mul_comm _ _))
    rw [last, denoted]
    exact ih.pushDigit positive digit

/-- A value that has been read is a number of 32 bits only if that was read. -/
theorem Reads.toNat?_eq_some_iff (h : x.Reads n) {k : Nat} :
    x.toNat?.filter (· < UInt32.size) = some k ↔ n = k ∧ k < UInt32.size := by
  rw [Option.filter_eq_some_iff, decide_eq_true_eq]
  apply and_congr_left
  intro fits
  by_cases small : n < 2 ^ 53
  · rw [h.eq_finite small]
    exact Option.some_inj
  · have large := Nat.not_lt.mp small
    have word : UInt32.size < 2 ^ 53 := by decide
    have past := h.isPast large
    cases past with
    | infinity =>
      constructor
      · intro none
        cases none
      · intro same
        omega
    | @whole m largeValue =>
      constructor
      · intro same
        have := Option.some_inj.mp same
        omega
      · intro same
        omega

end SharpFront.Binary64
