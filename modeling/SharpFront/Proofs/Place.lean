import Mathlib.Data.List.Induction
import SharpFront.Place
import SharpFront.Source.Span

/-!
# Places and the text before them

The place after a text is a count of the text: its bytes, its line feeds and the characters of its
last line.

* `after_eq`: the place after a text;
* `splitBytes?_byteSize`: the offset after a text is where the text that follows begins;
* `normalize_of_sublist`: a part of a source text is one itself.
-/

namespace SharpFront

/-- The line on which the text after this one begins. -/
def lineAfter (before : List Char) : Nat := 1 + before.count '\n'

/-- The column at which the text after this one begins. -/
def columnAfter (before : List Char) : Nat := 1 + (before.reverse.takeWhile (· != '\n')).length

theorem byteSize_append (xs ys : List Char) : byteSize (xs ++ ys) = byteSize xs + byteSize ys := by
  induction xs with
  | nil => rw [List.nil_append, byteSize, Nat.zero_add]
  | cons x xs ih => rw [List.cons_append, byteSize, byteSize, ih, Nat.add_assoc]

namespace Place

theorem after_eq (before : List Char) :
    ({} : Place).after before = ⟨byteSize before, lineAfter before, columnAfter before⟩ := by
  induction before using List.reverseRecOn with
  | nil => rfl
  | append_singleton before c ih =>
    rw [after_append, ih, after_cons, after_nil, step, byteSize_append]
    by_cases isFeed : c = '\n'
    · subst isFeed
      simp [byteSize, lineAfter, columnAfter, Nat.add_assoc]
    · have notFeed : (c != '\n') = true := bne_iff_ne.mpr isFeed
      simp [byteSize, lineAfter, columnAfter, isFeed, Nat.add_comm]

end Place

theorem lineAfter_append (xs ys : List Char) :
    lineAfter (xs ++ ys) = lineAfter xs + ys.count '\n' := by
  rw [lineAfter, lineAfter, List.count_append, Nat.add_assoc]

theorem lineAfter_le (before : List Char) : lineAfter before ≤ before.length + 1 := by
  have := List.count_le_length (a := '\n') (l := before)
  unfold lineAfter
  omega

theorem columnAfter_le (before : List Char) : columnAfter before ≤ before.length + 1 := by
  have := (List.takeWhile_prefix (l := before.reverse) (· != '\n')).length_le
  rw [List.length_reverse] at this
  unfold columnAfter
  omega

theorem splitBytes?_byteSize (front back : List Char) :
    splitBytes? (byteSize front) (front ++ back) = some (front, back) := by
  induction front with
  | nil => cases back <;> rfl
  | cons c front ih =>
    obtain ⟨size, isSize⟩ := Nat.exists_eq_succ_of_ne_zero (Nat.pos_iff_ne_zero.mp c.utf8Size_pos)
    have total : byteSize (c :: front) = size + byteSize front + 1 := by
      rw [byteSize, isSize]
      omega
    have left : size + byteSize front + 1 - c.utf8Size = byteSize front := by omega
    rw [total, List.cons_append, splitBytes?, if_pos (by omega), left, ih]
    rfl

/-- A source text is not longer than the text that it was made from. -/
theorem normalize_length_le (cs : List Char) : (normalize cs).length ≤ cs.length := by
  fun_induction normalize cs with
  | case1 => exact Nat.le_refl 0
  | case2 rest ih => exact Nat.le_succ_of_le (Nat.succ_le_succ ih)
  | case3 rest notPair ih => exact Nat.succ_le_succ ih
  | case4 rest notPair notReturn ih => exact Nat.le_succ_of_le ih
  | case5 c rest notPair notReturn notNull ih => exact Nat.succ_le_succ ih

/-- A text without carriage returns and NULs is a source text, also in front of others. -/
theorem normalize_append_of_plain {cs : List Char} (h : ∀ c ∈ cs, c ≠ '\r' ∧ c ≠ '\x00')
    (more : List Char) : normalize (cs ++ more) = cs ++ normalize more := by
  induction cs with
  | nil => rfl
  | cons c cs ih =>
    obtain ⟨⟨notReturn, notNull⟩, others⟩ := List.forall_mem_cons.mp h
    rw [List.cons_append, normalize, if_neg notReturn, if_neg notNull, ih others, List.cons_append]
    exact fun rest isReturn _ => notReturn isReturn

theorem normalize_of_plain {cs : List Char} (h : ∀ c ∈ cs, c ≠ '\r' ∧ c ≠ '\x00') :
    normalize cs = cs := by
  have whole := normalize_append_of_plain h []
  rwa [List.append_nil, normalize, List.append_nil] at whole

theorem plain_of_mem_normalize (cs : List Char) :
    ∀ c ∈ normalize cs, c ≠ '\r' ∧ c ≠ '\x00' := by
  fun_induction normalize cs with
  | case1 => exact List.forall_mem_nil _
  | case2 rest ih => exact List.forall_mem_cons.mpr ⟨by decide, ih⟩
  | case3 rest notPair ih => exact List.forall_mem_cons.mpr ⟨by decide, ih⟩
  | case4 rest notPair notReturn ih => exact ih
  | case5 c rest notPair notReturn notNull ih =>
    exact List.forall_mem_cons.mpr ⟨⟨notReturn, notNull⟩, ih⟩

/-- A part of a source text is a source text. -/
theorem normalize_of_sublist {part cs : List Char} (h : part.Sublist (normalize cs)) :
    normalize part = part := by
  apply normalize_of_plain
  intro c isChar
  exact plain_of_mem_normalize cs c (h.subset isChar)

end SharpFront
