import SharpFront.Proofs.Checked.Cursor
import SharpFront.Proofs.Scan.Progress

/-!
# The cursor of a lexer

Between runs, and instead of one, a caller moves the cursor and tries single forms, in any order.

* `CursorMove`, `Lexer.perform`: what a caller can do;
* `Lexer.Stands`: the cursor stands between two parts of the source text, kept by every move;
* `Stands.spanFrom?_eq`: what the cursor has passed can be cut out of the source text.
-/

namespace SharpFront

inductive CursorMove where
  | advance (n : Nat)
  | eatBlanks
  | eatInlineBlanks
  | eatUntil (c : Char)
  | run
  | recognize (form : Form)

namespace Lexer

/-- What is left of the lexer when a move is made and its answer put aside. -/
def perform (l : Lexer) : CursorMove → Lexer
  | .advance n => l.advance n
  | .eatBlanks => l.eatBlanks.1
  | .eatInlineBlanks => l.eatInlineBlanks.1
  | .eatUntil c => (l.eatUntil c).1
  | .run => l.run.1
  | .recognize form => (l.recognize form).1

/-- The cursor stands where the rest of the source text begins, and the text is short enough for its
characters to be counted. -/
structure Stands (source : SourceText) (l : Lexer) : Prop where
  isSource : l.source? = some source
  isAt : Checked.At source.chars l.scan.place l.scan.rest

variable {l : Lexer} {source : SourceText}

theorem stands_setInput (l : Lexer) (file raw : String)
    (short : (normalize raw.toList).length < UInt32.size - 1) :
    Stands (.ofRaw raw) (l.setInput file raw) :=
  ⟨rfl, short, [], rfl, rfl⟩

theorem Stands.advance (h : Stands source l) (n : Nat) : Stands source (l.advance n) :=
  ⟨h.isSource, h.isAt.drop n⟩

theorem Stands.recognize (h : Stands source l) (form : Form) :
    Stands source (l.recognize form).1 := by
  rw [Lexer.recognize]
  split
  · exact h
  · next found _ => exact ⟨h.isSource, (h.advance found.text.length).isAt⟩

/-- A run starts over, and stops at the end of the text or where a form covers none of it. -/
theorem Stands.run (h : Stands source l) : Stands source l.run.1 := by
  by_cases hasForms : l.catalog = []
  · have unchanged : l.run.1 = l := by simp [Lexer.run, h.isSource, hasForms]
    rwa [unchanged]
  · obtain ⟨n, -, s, reaches, outcome⟩ :=
      Scan.exists_outcome (.build l.catalog) { rest := source.chars }
    rcases outcome with atEnd | ⟨t, found, stalls⟩
    · have isRun := reaches.run_eq.trans (Scan.run_of_end _ atEnd)
      have travelled := reaches.travelled
      rw [run_of_end h.isSource hasForms isRun]
      exact ⟨h.isSource, h.isAt.short, s.seen, travelled.source_eq, travelled.place_eq⟩
    · have isRun := reaches.run_eq.trans stalls.run_eq
      have travelled := reaches.travelled.found stalls.found
      rw [run_of_stuck h.isSource hasForms isRun]
      exact ⟨h.isSource, h.isAt.short, t.seen, travelled.source_eq, travelled.place_eq⟩

theorem Stands.perform (h : Stands source l) (move : CursorMove) :
    Stands source (l.perform move) := by
  cases move with
  | advance n => exact h.advance n
  | eatBlanks | eatInlineBlanks | eatUntil => exact h.advance _
  | run => exact h.run
  | recognize form => exact h.recognize form

theorem Stands.foldl_perform (h : Stands source l) (moves : List CursorMove) :
    Stands source (moves.foldl Lexer.perform l) := by
  induction moves generalizing l with
  | nil => exact h
  | cons move moves ih => exact ih (h.perform move)

/-- The counters of the cursor are counts of the text before it. -/
theorem Stands.place_eq (h : Stands source l) : ∃ seen,
    splitBytes? l.scan.place.offset source.chars = some (seen, l.remainder) ∧
      l.scan.place = ⟨byteSize seen, lineAfter seen, columnAfter seen⟩ := by
  obtain ⟨seen, isSplit, isPlace⟩ := h.isAt.split
  rw [Place.after_eq] at isPlace
  exact ⟨seen, by rw [isSplit, isPlace, splitBytes?_byteSize]; rfl, isPlace⟩

/-- The text from where the cursor stood up to where it has come. -/
theorem Stands.spanFrom?_eq (h : Stands source l) {text rest : List Char}
    (isRest : l.scan.rest = text ++ rest) :
    (l.advance text.length).spanFrom? l.scan.place.offset =
      some (.ofChars l.scan.place.offset text) := by
  obtain ⟨seen, isSplit, isPlace⟩ := h.isAt.split
  have stop : (l.advance text.length).scan.place.offset =
      l.scan.place.offset + byteSize text := by
    change (l.scan.place.after (l.scan.rest.take text.length)).offset = _
    rw [isRest, List.take_left, Checked.after_offset]
  have start : l.scan.place.offset = byteSize seen := by rw [isPlace, Place.after_eq]
  have hasSource : (l.advance text.length).source? = some source := h.isSource
  simp only [spanFrom?, hasSource, stop, Nat.le_add_right, if_true, Nat.add_sub_cancel_left,
    Span.cut?, ByteRange.view?, start, isSplit, isRest, splitBytes?_byteSize,
    Option.bind_eq_bind, Option.bind_some, Option.pure_def, Option.map_some]

end Lexer

end SharpFront
