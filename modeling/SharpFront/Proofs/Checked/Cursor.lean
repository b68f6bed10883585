import SharpFront.Proofs.Place

/-!
# A cursor that can fail

The stages again, with a byte offset into one text instead of the text that remains, and a fault
wherever a text would be cut inside a character or past its end, something would be taken from past
the end of a list, or a number would not fit in 32 bits. This module has the operations on the
cursor.

* `At`: the cursor stands between two parts of the source text;
* `At.advanceBy`, `At.cut`: from there no operation fails, and each does what it does to the text.
-/

namespace SharpFront

inductive Fault where
  /-- A text is cut inside a character or past its end. -/
  | slice
  /-- A list ends before an index. -/
  | index
  /-- A number does not fit in 32 bits. -/
  | overflow
  /-- The steps allowed for a loop were not enough. -/
  | endless
  deriving DecidableEq, Repr

abbrev Checked := Except Fault

namespace Checked

@[simp] theorem ok_bind {α β : Type} (a : α) (f : α → Checked β) :
    ((.ok a : Checked α) >>= f) = f a := rfl

@[simp] theorem pure_eq_ok {α : Type} (a : α) : (pure a : Checked α) = .ok a := rfl

def word32 (n : Nat) : Checked Nat := if n < UInt32.size then .ok n else .error .overflow

theorem word32_of_lt {n : Nat} (h : n < UInt32.size) : word32 n = .ok n := if_pos h

/-! ## The cursor -/

/-- The text from a byte offset on. -/
def textFrom (offset : Nat) (text : List Char) : Checked (List Char) :=
  match splitBytes? offset text with
  | some (_, rest) => .ok rest
  | none => .error .slice

/-- The text between two byte offsets. -/
def cut (source : List Char) (start stop : Nat) : Checked Span :=
  match Span.cut? ⟨source⟩ ⟨start, stop - start⟩ with
  | some span => if start ≤ stop then .ok span else .error .slice
  | none => .error .slice

/-- Moves past one character, if one is left. -/
def advance (source : List Char) (p : Place) : Checked Place := do
  match ← textFrom p.offset source with
  | [] => return p
  | c :: _ =>
    if c = '\n' then return ⟨p.offset + c.utf8Size, ← word32 (p.line + 1), 1⟩
    else return ⟨p.offset + c.utf8Size, p.line, ← word32 (p.column + 1)⟩

def advanceBy (source : List Char) : Nat → Place → Checked Place
  | 0, p => .ok p
  | n + 1, p => do advanceBy source n (← advance source p)

/-- Moves past the characters of a class, and counts them. -/
def eatWhile (source : List Char) (isIn : Char → Bool) (p : Place) : Checked (Place × Nat) := do
  let n := ((← textFrom p.offset source).takeWhile isIn).length
  return (← advanceBy source n p, n)

/-! ## Standing in the source text -/

/-- The cursor stands where the rest of a source text begins, which is short enough to count its
characters. -/
structure At (source : List Char) (p : Place) (rest : List Char) : Prop where
  short : source.length < UInt32.size - 1
  split : ∃ seen, source = seen ++ rest ∧ p = ({} : Place).after seen

variable {source rest text : List Char} {p : Place}

theorem At.textFrom_eq (h : At source p rest) : textFrom p.offset source = .ok rest := by
  obtain ⟨seen, rfl, rfl⟩ := h.split
  rw [Place.after_eq, textFrom, splitBytes?_byteSize]

theorem At.after (h : At source p (text ++ rest)) : At source (p.after text) rest := by
  obtain ⟨seen, isSource, rfl⟩ := h.split
  refine ⟨h.short, seen ++ text, ?_, ?_⟩
  · rw [isSource, List.append_assoc]
  · rw [Place.after_append]

theorem At.drop (h : At source p rest) (n : Nat) :
    At source (p.after (rest.take n)) (rest.drop n) :=
  At.after (by rwa [List.take_append_drop])

theorem At.line_lt (h : At source p rest) : p.line < UInt32.size := by
  obtain ⟨seen, isSource, rfl⟩ := h.split
  have short := h.short
  have line := lineAfter_le seen
  rw [isSource, List.length_append] at short
  rw [Place.after_eq]
  simp only
  omega

theorem At.column_lt (h : At source p rest) : p.column + rest.length < UInt32.size := by
  obtain ⟨seen, isSource, rfl⟩ := h.split
  have short := h.short
  have column := columnAfter_le seen
  rw [isSource, List.length_append] at short
  rw [Place.after_eq]
  simp only
  omega

theorem At.advance_eq {c : Char} (h : At source p (c :: rest)) :
    advance source p = .ok (p.step c) := by
  have next : At source (p.step c) rest := At.after (show At source p ([c] ++ rest) from h)
  have line := next.line_lt
  have column := next.column_lt
  simp only [advance, h.textFrom_eq, ok_bind, pure_eq_ok]
  by_cases isFeed : c = '\n'
  · simp only [Place.step, isFeed, if_true] at line ⊢
    rw [word32_of_lt line, ok_bind]
  · simp only [Place.step, isFeed, if_false] at column ⊢
    rw [word32_of_lt (by omega), ok_bind]

/-- At the end of the text the cursor stays where it is. -/
theorem At.advanceBy_take (h : At source p rest) (n : Nat) :
    advanceBy source n p = .ok (p.after (rest.take n)) := by
  induction n generalizing p rest with
  | zero => rfl
  | succ n ih =>
    cases rest with
    | nil =>
      have stays : advance source p = .ok p := by
        simp only [advance, h.textFrom_eq, ok_bind, pure_eq_ok]
      simp only [advanceBy, stays, ok_bind, ih h, List.take_nil]
    | cons c rest =>
      have next : At source (p.step c) rest := At.after (show At source p ([c] ++ rest) from h)
      simp only [advanceBy, h.advance_eq, ok_bind, ih next, List.take_succ_cons, Place.after_cons]

theorem At.advanceBy_eq (h : At source p (text ++ rest)) :
    advanceBy source text.length p = .ok (p.after text) := by
  rw [h.advanceBy_take, List.take_left]

theorem At.eatWhile_eq (isIn : Char → Bool) (h : At source p rest) :
    eatWhile source isIn p =
      .ok (p.after (rest.takeWhile isIn), (rest.takeWhile isIn).length) := by
  have split : At source p (rest.takeWhile isIn ++ rest.dropWhile isIn) := by
    rwa [List.takeWhile_append_dropWhile]
  simp only [eatWhile, h.textFrom_eq, ok_bind, split.advanceBy_eq, pure_eq_ok]

theorem after_offset (p : Place) (text : List Char) :
    (p.after text).offset = p.offset + byteSize text := by
  induction text generalizing p with
  | nil => rfl
  | cons c text ih =>
    have step : (p.step c).offset = p.offset + c.utf8Size := by
      unfold Place.step
      split <;> rfl
    rw [Place.after_cons, ih, step, Nat.add_assoc]
    rfl

theorem At.cut_eq (h : At source p (text ++ rest)) :
    cut source p.offset (p.after text).offset = .ok (.ofChars p.offset text) := by
  obtain ⟨seen, rfl, rfl⟩ := h.split
  have before : splitBytes? (({} : Place).after seen).offset (seen ++ (text ++ rest)) =
      some (seen, text ++ rest) := by
    rw [Place.after_eq, splitBytes?_byteSize]
  rw [after_offset _ text]
  simp only [cut, Span.cut?, ByteRange.view?, before, Nat.add_sub_cancel_left,
    splitBytes?_byteSize, Option.bind_eq_bind, Option.bind_some, Option.pure_def, Option.map_some,
    Nat.le_add_right, if_true]

end Checked

end SharpFront
