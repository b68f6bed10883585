import Mathlib.Data.Prod.Lex
import SharpFront.Diagnostic.Sink
import SharpFront.Place

/-!
# Positions

A position is a line and a column, in the order in which a text is read: a later line comes after
an earlier one, and on one line a column further right after one further left.

* `position_le_after`, `position_lt_after`: going through a text leads forward.
-/

namespace SharpFront

/-- A line and a column, in reading order. -/
abbrev Position := Nat ×ₗ Nat

def Report.position (r : Report) : Position := toLex (r.line, r.column)

def Diagnostic.position (d : Diagnostic) : Position := toLex (d.line, d.column)

namespace Place

def position (p : Place) : Position := toLex (p.line, p.column)

theorem position_lt_step (p : Place) (c : Char) : p.position < (p.step c).position := by
  unfold step
  split
  · exact Prod.Lex.toLex_lt_toLex.mpr (.inl (Nat.lt_succ_self _))
  · exact Prod.Lex.toLex_lt_toLex.mpr (.inr ⟨rfl, Nat.lt_succ_self _⟩)

theorem position_le_after (p : Place) (text : List Char) : p.position ≤ (p.after text).position := by
  induction text generalizing p with
  | nil => exact le_refl _
  | cons c text ih => exact (p.position_lt_step c).le.trans (ih _)

theorem position_lt_after (p : Place) {text : List Char} (h : text ≠ []) :
    p.position < (p.after text).position := by
  cases text with
  | nil => exact absurd rfl h
  | cons c text => exact (p.position_lt_step c).trans_le ((p.step c).position_le_after text)

end Place

end SharpFront
