import SharpFront.Proofs.Form.Covered
import SharpFront.Proofs.Form.Number
import SharpFront.Proofs.Text.CharClass

/-!
# How lexemes begin

A form finds a lexeme only where the text begins in its way, with characters of its own or with a
character of some kind.

* `opens_of_recognize`: every lexeme begins as its form says;
* `outranks`: of two forms, either the openings exclude each other or the second finds less;
* `length_lt_of_outranks`: where both match, the first covers more;
* `isBlank_of_isWhitespace`, `exists_head_not_isBlank`: blank tokens are blanks, and other tokens begin
  with something else.
-/

namespace SharpFront

open Text (CharKind)

/-- How a text begins: with given characters, or with one of a kind. -/
inductive Opening where
  | fixed (chars : List Char)
  | kind (k : CharKind)
  deriving DecidableEq, Repr

namespace Opening

def Opens : Opening → List Char → Prop
  | fixed chars, text => chars <+: text
  | kind k, text => ∃ c, text.head? = some c ∧ k.holds c = true

/-- The least number of characters that a text needs to begin so. -/
def size : Opening → Nat
  | fixed chars => chars.length
  | kind _ => 1

/-- No text begins in both ways. -/
def excludes : Opening → Opening → Bool
  | fixed a, fixed b => !a.isPrefixOf b && !b.isPrefixOf a
  | fixed a, kind k => a.head?.any fun c => !k.holds c
  | kind k, fixed b => b.head?.any fun c => !k.holds c
  | kind j, kind k => j != k

variable {a b : Opening} {text : List Char}

theorem head?_of_isPrefix {xs ys : List Char} {c : Char} (h : xs <+: ys)
    (isFirst : xs.head? = some c) : ys.head? = some c := by
  obtain ⟨rest, rfl⟩ := h
  rw [List.head?_append, isFirst, Option.some_or]

theorem Opens.mono {more : List Char} (h : a.Opens text) (longer : text <+: more) :
    a.Opens more := by
  cases a with
  | fixed chars => exact h.trans longer
  | kind k =>
    obtain ⟨c, isFirst, holds⟩ := h
    exact ⟨c, head?_of_isPrefix longer isFirst, holds⟩

theorem Opens.size_le (h : a.Opens text) : a.size ≤ text.length := by
  cases a with
  | fixed chars => exact h.length_le
  | kind k =>
    obtain ⟨c, isFirst, -⟩ := h
    obtain ⟨rest, rfl⟩ := List.head?_eq_some_iff.mp isFirst
    simp only [size, List.length_cons]
    omega

theorem not_holds_of_fixed {chars : List Char} {k : CharKind} {c : Char}
    (excluded : (chars.head?.any fun c => !k.holds c) = true) (begins : chars <+: text)
    (isFirst : text.head? = some c) : k.holds c = false := by
  cases isHead : chars.head? with
  | none =>
    rw [isHead] at excluded
    cases excluded
  | some d =>
    have same := head?_of_isPrefix begins isHead
    rw [isFirst] at same
    cases same
    rw [isHead] at excluded
    simpa using excluded

theorem not_opens_of_excludes (h : a.excludes b = true) (first : a.Opens text) :
    ¬b.Opens text := by
  intro second
  cases a with
  | fixed as =>
    cases b with
    | fixed bs =>
      simp only [excludes, Bool.and_eq_true, Bool.not_eq_true', ← Bool.not_eq_true,
        List.isPrefixOf_iff_prefix] at h
      rcases List.prefix_or_prefix_of_prefix first second with shorter | longer
      · exact h.1 shorter
      · exact h.2 longer
    | kind k =>
      obtain ⟨c, isFirst, holds⟩ := second
      rw [not_holds_of_fixed h first isFirst] at holds
      cases holds
  | kind j =>
    obtain ⟨c, isFirst, holds⟩ := first
    cases b with
    | fixed bs =>
      rw [not_holds_of_fixed h second isFirst] at holds
      cases holds
    | kind k =>
      obtain ⟨d, isFirst', holds'⟩ := second
      rw [isFirst] at isFirst'
      cases isFirst'
      exact bne_iff_ne.mp h (CharKind.eq_of_holds holds holds')

end Opening

namespace Form

/-- How the lexemes of a form begin. Of a pattern nothing is known. -/
def opening : Form → Opening
  | whitespace => .kind .blank
  | lineComment => .fixed ['/', '/']
  | blockComment => .fixed ['/', '*']
  | word => .kind .letter
  | operator o => .fixed o.chars
  | brace b => .fixed [b.char]
  | number => .kind .digit
  | char => .fixed ['\'']
  | string => .fixed ['"']
  | verbatimString => .fixed ['@', '"']
  | pattern _ => .fixed []

/-- The length of every lexeme of a form that has but one spelling. -/
def spellingLength? : Form → Option Nat
  | operator o => some o.chars.length
  | brace _ => some 1
  | _ => none

/-- The openings of the forms exclude each other, or the second form has but one spelling, shorter
than any lexeme of the first. -/
def outranks (f g : Form) : Bool :=
  f.opening.excludes g.opening || g.spellingLength?.any (· < f.opening.size)

variable {f g form : Form} {followsHash : Nat → Bool} {place : Place} {text : List Char}
  {l m : Lexeme}

/-! ## Lexemes begin as their forms say -/

theorem opens_takeWhile {k : CharKind} (h : text.takeWhile k.holds ≠ []) :
    Opening.Opens (.kind k) (text.takeWhile k.holds) := by
  obtain ⟨c, rest, isTaken⟩ := List.exists_cons_of_ne_nil h
  have isFirst : c ∈ text.takeWhile k.holds := isTaken ▸ List.mem_cons_self
  exact ⟨c, isTaken ▸ rfl, List.all_eq_true.mp List.all_takeWhile c isFirst⟩

theorem wordText_opens (h : wordText text ≠ []) :
    Opening.Opens (.kind .letter) (wordText text) := by
  unfold wordText at h ⊢
  split at h
  · exact absurd rfl h
  · next c rest =>
    split at h
    · next isStart =>
      simp only [if_pos isStart]
      exact ⟨c, rfl, isStart⟩
    · exact absurd rfl h

theorem decimal?_opens {n : Numeral} (h : Numeral.decimal? text = some n) :
    Opening.Opens (.kind .digit) n.text := by
  simp only [Numeral.decimal?] at h
  split at h
  · cases h
  · next notEmpty =>
    have opens : Opening.Opens (.kind .digit) (text.takeWhile Char.isDigit) :=
      opens_takeWhile (mt List.isEmpty_iff.mpr notEmpty)
    split at h
    · split at h
      · cases h
        exact opens
      · cases h
        exact opens.mono (List.prefix_append _ _)
    · cases h
      exact opens

theorem ofText?_opens {n : Numeral} (h : Numeral.ofText? text = some n) :
    Opening.Opens (.kind .digit) n.text := by
  rcases Numeral.ofText?_eq_some h with ⟨_, _, -, -, found⟩ | ⟨_, _, -, -, found⟩ | found
  · obtain ⟨digits, -, rfl⟩ := Numeral.marked?_eq_some found
    exact ⟨'0', rfl, rfl⟩
  · obtain ⟨digits, -, rfl⟩ := Numeral.marked?_eq_some found
    exact ⟨'0', rfl, rfl⟩
  · exact decimal?_opens found

theorem opens_of_recognize (h : form.recognize followsHash place text = some l) :
    form.opening.Opens l.text := by
  cases recognized_of_recognize h with
  | whitespace notEmpty => exact opens_takeWhile notEmpty
  | message isWord =>
    refine (wordText_opens isWord).mono ?_
    simp only [directiveMessage, List.append_assoc]
    exact List.prefix_append _ _
  | directive isWord | keyword isWord | identifier isWord => exact wordText_opens isWord
  | number isNumeral => exact ofText?_opens isNumeral
  | operator => exact List.prefix_rfl
  | pattern => exact List.nil_prefix
  | _ => exact ⟨_, rfl⟩

theorem length_of_spellingLength? (h : form.recognize followsHash place text = some l) {n : Nat}
    (fixed : form.spellingLength? = some n) : l.text.length = n := by
  cases recognized_of_recognize h <;> cases fixed <;> rfl

/-- Where both forms match, the one that outranks the other covers more. -/
theorem length_lt_of_outranks (h : f.outranks g = true)
    (first : f.recognize followsHash place text = some l)
    (second : g.recognize followsHash place text = some m) : m.text.length < l.text.length := by
  have opens := opens_of_recognize first
  rcases Bool.or_eq_true_iff.mp h with excluded | shorter
  · have begins := opens.mono (recognize_isPrefix first)
    have begins' := (opens_of_recognize second).mono (recognize_isPrefix second)
    exact absurd begins' (Opening.not_opens_of_excludes excluded begins)
  · cases fixed : g.spellingLength? with
    | none =>
      rw [fixed] at shorter
      cases shorter
    | some n =>
      rw [fixed] at shorter
      have least := opens.size_le
      have less := of_decide_eq_true shorter
      rw [length_of_spellingLength? second fixed]
      omega

theorem opening_of_trigger (inCatalog : form ∈ defaultCatalog) {c : Char}
    (waits : form.trigger = some c) : ∃ cs, form.opening = .fixed (c :: cs) := by
  cases form with
  | lineComment | blockComment | char | string | verbatimString =>
    cases waits
    exact ⟨_, rfl⟩
  | operator o =>
    cases waits
    exact ⟨o.chars.tail, congrArg Opening.fixed (List.cons_head_tail o.chars_ne_nil).symm⟩
  | brace b =>
    cases waits
    exact ⟨[], rfl⟩
  | whitespace | word | number => cases waits
  | pattern p => simp [defaultCatalog] at inCatalog

/-- A form that waits for a character matches only there. -/
theorem head?_of_trigger (inCatalog : form ∈ defaultCatalog)
    (h : form.recognize followsHash place text = some l) {c : Char}
    (waits : form.trigger = some c) : text.head? = some c := by
  have begins := (opens_of_recognize h).mono (recognize_isPrefix h)
  obtain ⟨cs, opening⟩ := opening_of_trigger inCatalog waits
  rw [opening] at begins
  exact Opening.head?_of_isPrefix begins rfl

/-! ## Blanks -/

theorem whitespace?_isWhitespace (h : whitespace? text = some l) :
    l.token.isWhitespace = true ∧ ∀ c ∈ l.text, Text.isBlank c = true := by
  simp only [whitespace?] at h
  split at h
  · cases h
  · cases h
    exact ⟨rfl, List.all_eq_true.mp List.all_takeWhile⟩

/-- Only blanks make up a blank token. -/
theorem isWhitespace_of_ne (other : form ≠ .whitespace)
    (h : form.recognize followsHash place text = some l) : l.token.isWhitespace = false := by
  cases recognized_of_recognize h with
  | whitespace => exact absurd rfl other
  | _ => rfl

theorem isBlank_of_isWhitespace (h : form.recognize followsHash place text = some l)
    (isWhitespace : l.token.isWhitespace = true) : ∀ c ∈ l.text, Text.isBlank c = true := by
  by_cases isForm : form = .whitespace
  · subst isForm
    exact (whitespace?_isWhitespace h).2
  · rw [isWhitespace_of_ne isForm h] at isWhitespace
    cases isWhitespace

theorem excludes_blank :
    ∀ form ∈ defaultCatalog, form.seesBlanks = false →
      form.opening.excludes (.kind .blank) = true := by
  decide +kernel

/-- Any other token begins with a character that is no blank. -/
theorem exists_head_not_isBlank (inCatalog : form ∈ defaultCatalog)
    (h : form.recognize followsHash place text = some l)
    (notWhitespace : l.token.isWhitespace = false) :
    ∃ c, l.text.head? = some c ∧ Text.isBlank c = false := by
  have other : form.seesBlanks = false := by
    cases form with
    | whitespace =>
      rw [(whitespace?_isWhitespace h).1] at notWhitespace
      cases notWhitespace
    | _ => rfl
  have notBlank := Opening.not_opens_of_excludes (excludes_blank form inCatalog other)
    (opens_of_recognize h)
  cases isText : l.text with
  | nil => exact absurd isText (recognize_ne_nil inCatalog h)
  | cons c rest =>
    refine ⟨c, rfl, Bool.eq_false_iff.mpr ?_⟩
    intro isBlank
    exact notBlank ⟨c, isText ▸ rfl, isBlank⟩

end Form

end SharpFront
