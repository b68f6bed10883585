import SharpFront.Text.CharClass

/-!
# Classes of characters that exclude each other

A text can begin with a blank, with a digit or with the start of a word.

* `CharKind.eq_of_holds`: no character is of two of these kinds;
* `isWordPart_of_isBlank`: a blank ends a word.
-/

namespace SharpFront.Text

namespace Ranges

/-- The number lies in one of the ranges. -/
def Meets (rs : Ranges) (n : Nat) : Prop := ∃ r ∈ rs, r.1 ≤ n ∧ n ≤ r.2

theorem meets_of_contains {rs : Ranges} {n : Nat} (h : rs.contains n = true) : rs.Meets n := by
  induction rs with
  | nil => cases h
  | cons r rest ih =>
    obtain ⟨lo, hi⟩ := r
    unfold contains at h
    split at h
    · cases h
    · next notBelow =>
      rcases Bool.or_eq_true_iff.mp h with inside | later
      · have upper := of_decide_eq_true inside
        exact ⟨(lo, hi), List.mem_cons_self, Nat.not_lt.mp notBelow, upper⟩
      · obtain ⟨r, isRange, inside⟩ := ih later
        exact ⟨r, List.mem_cons_of_mem _ isRange, inside⟩

/-- No range of the one overlaps a range of the other. -/
def apart (a b : Ranges) : Bool := a.all fun r => b.all fun q => r.2 < q.1 || q.2 < r.1

theorem not_meets_of_apart {a b : Ranges} (h : a.apart b = true) {n : Nat} (first : a.Meets n)
    (second : b.Meets n) : False := by
  obtain ⟨r, isRange, lower, upper⟩ := first
  obtain ⟨q, isOther, lower', upper'⟩ := second
  have separate := List.all_eq_true.mp (List.all_eq_true.mp h r isRange) q isOther
  simp only [Bool.or_eq_true, decide_eq_true_eq] at separate
  omega

end Ranges

inductive CharKind where
  | blank
  | digit
  | letter
  deriving DecidableEq, Repr

namespace CharKind

def holds : CharKind → Char → Bool
  | blank => isBlank
  | digit => Char.isDigit
  | letter => isWordStart

def ranges : CharKind → Ranges
  | blank => blanks
  | digit => [(0x30, 0x39)]
  | letter => (0x5F, 0x5F) :: alphabetic

theorem meets_of_holds {kind : CharKind} {c : Char} (h : kind.holds c = true) :
    kind.ranges.Meets c.toNat := by
  cases kind with
  | blank => exact Ranges.meets_of_contains h
  | digit =>
    simp only [holds, Char.isDigit, Bool.and_eq_true, decide_eq_true_eq, ge_iff_le,
      UInt32.le_iff_toNat_le] at h
    exact ⟨_, List.mem_cons_self, h⟩
  | letter =>
    rcases Bool.or_eq_true_iff.mp h with isLine | isLetter
    · rw [eq_of_beq isLine]
      exact ⟨_, List.mem_cons_self, by decide⟩
    · obtain ⟨r, isRange, inside⟩ := Ranges.meets_of_contains isLetter
      exact ⟨r, List.mem_cons_of_mem _ isRange, inside⟩

theorem apart_ranges {a b : CharKind} (h : a ≠ b) : a.ranges.apart b.ranges = true := by
  cases a <;> cases b <;> first | exact absurd rfl h | decide +kernel

/-- No character is of two kinds. -/
theorem eq_of_holds {a b : CharKind} {c : Char} (first : a.holds c = true)
    (second : b.holds c = true) : a = b := by
  by_cases same : a = b
  · exact same
  · exact (Ranges.not_meets_of_apart (apart_ranges same) (meets_of_holds first)
      (meets_of_holds second)).elim

end CharKind

theorem isWordPart_of_isBlank {c : Char} (h : isBlank c = true) : isWordPart c = false := by
  have notNumeric : isNumeric c = false := by
    refine Bool.eq_false_iff.mpr ?_
    intro numeral
    have apart : blanks.apart numeric = true := by decide +kernel
    exact Ranges.not_meets_of_apart apart (Ranges.meets_of_contains h)
      (Ranges.meets_of_contains numeral)
  have notStart : isWordStart c = false := by
    refine Bool.eq_false_iff.mpr ?_
    intro isStart
    exact CharKind.noConfusion (CharKind.eq_of_holds (a := .blank) (b := .letter) h isStart)
  rw [isWordStart] at notStart
  rw [isWordPart, notStart, notNumeric]
  rfl

end SharpFront.Text
