import SharpFront.Proofs.Place

/-!
# Trimmed ranges

A range that is trimmed loses bytes at its front and at its back. Where it loses all of them, an
empty range is left, and it does not matter where that one lies.

* `view?_eq_some_iff`: the text that a range covers is a part of the source;
* `Loses`: what is left of a range; `Loses.trans`, `Loses.agree`: two losses after each other are
  one, and a loss decides what is left;
* `view?_trim?_iff`: the text that is left;
* `trim?_isWithin`: which amounts trim a range, and to what;
* `AlwaysTrims`: that all of them do, which fails past a machine word.
-/

namespace SharpFront

/-! ## Texts by their bytes -/

theorem byteSize_eq_zero {cs : List Char} : byteSize cs = 0 ↔ cs = [] := by
  cases cs with
  | nil => exact iff_of_true rfl rfl
  | cons c cs =>
    have := c.utf8Size_pos
    exact iff_of_false (by rw [byteSize]; omega) (List.cons_ne_nil c cs)

theorem byteSize_of_splitBytes? {n : Nat} {cs front back : List Char}
    (h : splitBytes? n cs = some (front, back)) : byteSize front = n := by
  induction cs generalizing n front with
  | nil => cases n <;> simp_all [splitBytes?, byteSize]
  | cons c cs ih =>
    cases n with
    | zero => simp_all [splitBytes?, byteSize]
    | succ n =>
      simp only [splitBytes?] at h
      split at h
      · next fits =>
        obtain ⟨⟨taken, left⟩, isSplit, same⟩ := Option.map_eq_some_iff.mp h
        obtain ⟨rfl, rfl⟩ := Prod.mk.inj same
        rw [byteSize, ih isSplit, Nat.add_sub_cancel' fits]
      · cases h

theorem splitBytes?_eq_some_iff {n : Nat} {cs front back : List Char} :
    splitBytes? n cs = some (front, back) ↔ front ++ back = cs ∧ byteSize front = n := by
  constructor
  · intro isSplit
    exact ⟨splitBytes?_eq_append isSplit, byteSize_of_splitBytes? isSplit⟩
  · rintro ⟨rfl, rfl⟩
    exact splitBytes?_byteSize front back

/-- Of two texts that begin a text, the one with fewer bytes begins the other. -/
theorem isPrefix_of_byteSize_le {a b cs : List Char} (isFirst : a <+: cs) (isSecond : b <+: cs)
    (h : byteSize a ≤ byteSize b) : a <+: b := by
  rcases List.prefix_or_prefix_of_prefix isFirst isSecond with isPrefix | ⟨more, rfl⟩
  · exact isPrefix
  · have noBytes : byteSize more = 0 := by
      rw [byteSize_append] at h
      omega
    exact ⟨[], by rw [byteSize_eq_zero.mp noBytes, List.append_nil, List.append_nil]⟩

/-- The text without so many bytes at its front and so many at its back, as far as it has them. -/
def IsTrimmed (text : List Char) (front back : Nat) (kept : List Char) : Prop :=
  ∃ before after, text = before ++ (kept ++ after) ∧ byteSize before = min front (byteSize text) ∧
    byteSize kept = byteSize text - (front + back)

/-- All bytes of a source text. -/
def SourceText.whole (s : SourceText) : ByteRange := ⟨0, s.byteSize⟩

namespace ByteRange

variable {r t u : ByteRange} {cs text kept : List Char} {front back front' back' : Nat}

theorem view?_eq_some_iff :
    r.view? cs = some text ↔
      ∃ before after, before ++ (text ++ after) = cs ∧ byteSize before = r.start ∧
        byteSize text = r.size := by
  simp only [view?, Option.bind_eq_bind, Option.bind_eq_some_iff, Option.pure_def, Prod.exists,
    splitBytes?_eq_some_iff, Option.some.injEq]
  constructor
  · rintro ⟨before, rest, ⟨isSource, start⟩, covered, after, ⟨rfl, size⟩, rfl⟩
    exact ⟨before, after, isSource, start, size⟩
  · rintro ⟨before, after, isSource, start, size⟩
    exact ⟨before, text ++ after, ⟨isSource, start⟩, text, after, ⟨rfl, size⟩, rfl⟩

/-! ## What is left of a range -/

/-- The one range lies inside the other. -/
def IsWithin (inner outer : ByteRange) : Prop :=
  outer.start ≤ inner.start ∧ inner.stop ≤ outer.stop

instance (inner outer : ByteRange) : Decidable (inner.IsWithin outer) :=
  inferInstanceAs (Decidable (_ ∧ _))

theorem IsWithin.trans (h : u.IsWithin t) (h' : t.IsWithin r) : u.IsWithin r :=
  ⟨Nat.le_trans h'.1 h.1, Nat.le_trans h.2 h'.2⟩

/-- The second range is left of the first without so many bytes at its front and so many at its
back. If no byte is left, it may be anywhere inside the first. -/
structure Loses (r : ByteRange) (front back : Nat) (t : ByteRange) : Prop where
  isWithin : t.IsWithin r
  size_eq : t.size = r.size - (front + back)
  start_eq : t.size ≠ 0 → t.start = r.start + front

namespace Loses

theorem size_eq_zero_iff (h : r.Loses front back t) : t.size = 0 ↔ r.size ≤ front + back := by
  rw [h.size_eq, Nat.sub_eq_zero_iff_le]

theorem trans (h : r.Loses front back t) (h' : t.Loses front' back' u) :
    r.Loses (front + front') (back + back') u where
  isWithin := h'.isWithin.trans h.isWithin
  size_eq := by
    rw [h'.size_eq, h.size_eq, Nat.sub_sub, Nat.add_add_add_comm]
  start_eq := by
    intro notEmpty
    have filled : t.size ≠ 0 := by
      have := h'.size_eq
      omega
    rw [h'.start_eq notEmpty, h.start_eq filled, Nat.add_assoc]

/-- What is left has one size and, if it is not empty, one place. -/
theorem agree (h : r.Loses front back t) (h' : r.Loses front back u) :
    t.size = u.size ∧ (u.size ≠ 0 → t.start = u.start) := by
  have sameSize : t.size = u.size := h.size_eq.trans h'.size_eq.symm
  refine ⟨sameSize, ?_⟩
  intro notEmpty
  rw [h.start_eq (sameSize ▸ notEmpty), h'.start_eq notEmpty]

end Loses

/-! ## Trimming -/

theorem trim?_eq_none_iff : r.trim? front back = none ↔ UInt64.size ≤ front + back := by
  simp [trim?]

theorem trim?_eq_some_iff :
    r.trim? front back = some t ↔ front + back < UInt64.size ∧
      t.start = r.start + min front r.size ∧ t.size = r.size - (front + back) := by
  rw [trim?]
  split
  · next fits =>
    rw [Option.some.injEq]
    constructor
    · rintro rfl
      exact ⟨fits, rfl, rfl⟩
    · rintro ⟨-, start, size⟩
      rw [← start, ← size]
  · next tooLarge =>
    exact iff_of_false nofun fun h => tooLarge h.1

theorem exists_trim? (r : ByteRange) (fits : front + back < UInt64.size) :
    ∃ t, r.trim? front back = some t := ⟨_, if_pos fits⟩

theorem loses_of_trim? (h : r.trim? front back = some t) : r.Loses front back t := by
  obtain ⟨-, start, size⟩ := trim?_eq_some_iff.mp h
  have ends : t.stop ≤ r.stop := by
    -- The front moves to the end at most, and then nothing is left behind it.
    rw [stop, stop, start, size]
    omega
  refine ⟨⟨start ▸ Nat.le_add_right _ _, ends⟩, size, ?_⟩
  intro notEmpty
  rw [start, Nat.min_eq_left (by omega)]

/-- The text that is left is the text of the range, trimmed. So there is none only where an end of
what is left falls inside a character. -/
theorem view?_trim?_iff (isText : r.view? cs = some text) (trimmed : r.trim? front back = some t) :
    t.view? cs = some kept ↔ IsTrimmed text front back kept := by
  obtain ⟨-, start, size⟩ := trim?_eq_some_iff.mp trimmed
  obtain ⟨outside, behind, rfl, atStart, isSize⟩ := view?_eq_some_iff.mp isText
  rw [view?_eq_some_iff, start, size, ← atStart, ← isSize]
  constructor
  · rintro ⟨ahead, rest, isSource, aheadSize, keptSize⟩
    -- What comes before the kept text takes in all that comes before the range.
    obtain ⟨before, rfl⟩ : outside <+: ahead :=
      isPrefix_of_byteSize_le (List.prefix_append _ _) ⟨_, isSource⟩ (by omega)
    have beforeSize : byteSize before = min front (byteSize text) := by
      rw [byteSize_append] at aheadSize
      omega
    have inText : before ++ (kept ++ rest) = text ++ behind := by
      rw [List.append_assoc] at isSource
      exact List.append_cancel_left isSource
    obtain ⟨after, isWhole⟩ : before ++ kept <+: text := by
      refine isPrefix_of_byteSize_le ⟨rest, ?_⟩ (List.prefix_append text behind) ?_
      · rw [List.append_assoc, inText]
      · rw [byteSize_append, beforeSize, keptSize]
        omega
    exact ⟨before, after, by rw [← isWhole, List.append_assoc], beforeSize, keptSize⟩
  · rintro ⟨before, after, isWhole, beforeSize, keptSize⟩
    refine ⟨outside ++ before, after ++ behind, ?_, ?_, keptSize⟩
    · simp only [isWhole, List.append_assoc]
    · rw [byteSize_append, beforeSize]

/-- **What is trimmed stays inside.** Two amounts trim a range exactly if they add up within a
machine word. What is left lies inside the range, and so inside the source; it is empty if and only
if the amounts reach the size of the range, and its text is the text of the range, trimmed. To trim
twice leaves as much as to trim once by the sums, and at the same place if that is not empty. -/
theorem trim?_isWithin {source : SourceText} (inside : r.IsWithin source.whole)
    (front back : Nat) :
    (r.trim? front back = none ↔ UInt64.size ≤ front + back) ∧
    (front + back < UInt64.size → ∃ t, r.trim? front back = some t ∧
      t.IsWithin r ∧ t.IsWithin source.whole ∧ (t.size = 0 ↔ r.size ≤ front + back) ∧
      ∀ text, r.view? source.chars = some text →
        ∀ kept, t.view? source.chars = some kept ↔ IsTrimmed text front back kept) ∧
    ∀ front' back', front + front' + (back + back') < UInt64.size →
      ∃ t u v, r.trim? front back = some t ∧ t.trim? front' back' = some u ∧
        r.trim? (front + front') (back + back') = some v ∧
        u.size = v.size ∧ (v.size ≠ 0 → u.start = v.start) := by
  refine ⟨trim?_eq_none_iff, ?once, ?twice⟩
  case once =>
    intro fits
    obtain ⟨t, trimmed⟩ := r.exists_trim? fits
    have loses := loses_of_trim? trimmed
    refine ⟨t, trimmed, loses.isWithin, loses.isWithin.trans inside, loses.size_eq_zero_iff, ?_⟩
    intro text isText kept
    exact view?_trim?_iff isText trimmed
  case twice =>
    intro front' back' fits
    have firstFits : front + back < UInt64.size := by omega
    have secondFits : front' + back' < UInt64.size := by omega
    obtain ⟨t, first⟩ := r.exists_trim? firstFits
    obtain ⟨u, second⟩ := t.exists_trim? secondFits
    obtain ⟨v, both⟩ := r.exists_trim? fits
    have after := (loses_of_trim? first).trans (loses_of_trim? second)
    exact ⟨t, u, v, first, second, both, after.agree (loses_of_trim? both)⟩

/-- A quoted word without its quotes, and then without more than it has. -/
theorem trim?_isWithin_quoted :
    let source := SourceText.ofRaw "\"quoted\""
    let r : ByteRange := ⟨0, 8⟩
    r.IsWithin source.whole ∧
    (∃ t, r.trim? 1 1 = some t ∧ t.IsWithin r ∧ t.IsWithin source.whole ∧
      (t.size = 0 ↔ r.size ≤ 1 + 1) ∧ t.view? source.chars = some "quoted".toList) ∧
    ∃ t u v, r.trim? 1 1 = some t ∧ t.trim? 10 10 = some u ∧ r.trim? (1 + 10) (1 + 10) = some v ∧
      u.size = v.size ∧ (v.size ≠ 0 → u.start = v.start) := by
  intro source r
  have inside : r.IsWithin source.whole := by decide
  obtain ⟨-, once, twice⟩ := trim?_isWithin inside 1 1
  obtain ⟨t, trimmed, isWithin, inSource, isEmpty, isText⟩ := once (by decide)
  have unquoted : IsTrimmed source.chars 1 1 "quoted".toList := ⟨['"'], ['"'], rfl, rfl, rfl⟩
  refine ⟨inside, ⟨t, trimmed, isWithin, inSource, isEmpty, ?_⟩, twice 10 10 (by decide)⟩
  exact (isText source.chars rfl _).mpr unquoted

/-- Whatever two words are taken off, what is left of a range of the source lies inside it and is
empty if they reach the size of the range; and to trim twice is to trim once by sums that are
words. -/
def AlwaysTrims (source : SourceText) (r : ByteRange) : Prop :=
  r.IsWithin source.whole → ∀ front back : UInt64, ∃ t,
    r.trim? front.toNat back.toNat = some t ∧ t.IsWithin r ∧ t.IsWithin source.whole ∧
      (r.size ≤ front.toNat + back.toNat → t.size = 0) ∧
      ∀ front' back' : UInt64,
        front.toNat + front'.toNat + (back.toNat + back'.toNat) < UInt64.size → ∃ u v,
          t.trim? front'.toNat back'.toNat = some u ∧
            r.trim? (front.toNat + front'.toNat) (back.toNat + back'.toNat) = some v ∧
            u.size = v.size ∧ (v.size ≠ 0 → u.start = v.start)

/-- Two words whose sum is none. -/
theorem not_alwaysTrims_overflow : ¬AlwaysTrims (.ofRaw "\"quoted\"") ⟨0, 8⟩ := by
  intro alwaysTrims
  obtain ⟨t, trimmed, -⟩ := alwaysTrims (by decide) 18446744073709551615 2
  have refused : (⟨0, 8⟩ : ByteRange).trim? 18446744073709551615 2 = none := by decide
  cases refused.symm.trans trimmed

end ByteRange

end SharpFront
