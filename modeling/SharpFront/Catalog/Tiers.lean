import SharpFront.Form

/-!
# Tiers

The order in which the forms of a catalog are tried. Forms that see blanks come first, before blanks
are skipped. Forms with a trigger stand in tiers by priority, in each at most one form for a
character; the form that came too late for its slot and the forms without a trigger wait in a list
that is gone through in the order of the catalog.
-/

namespace SharpFront

structure Tier where
  priority : Int
  slots : List (Char × Form)

structure Tiers where
  seeBlanks : List Form := []
  /-- Highest priority last. -/
  keyed : List Tier := []
  /-- With their places in the catalog. -/
  waiting : List (Form × Nat) := []

namespace Tiers

/-- Adds the next form in the order of descending priority. A tier is opened each time the priority
drops. -/
def place (t : Tiers) (entry : Form × Nat) : Tiers :=
  let (form, _) := entry
  if form.seesBlanks then { t with seeBlanks := t.seeBlanks ++ [form] }
  else
    match form.trigger with
    | none => { t with waiting := entry :: t.waiting }
    | some c =>
      match t.keyed with
      | [] => { t with keyed := [⟨form.priority, [(c, form)]⟩] }
      | tier :: higher =>
        if form.priority < tier.priority then
          { t with keyed := ⟨form.priority, [(c, form)]⟩ :: t.keyed }
        else if (tier.slots.lookup c).isSome then { t with waiting := entry :: t.waiting }
        else { t with keyed := { tier with slots := tier.slots ++ [(c, form)] } :: higher }

/-- The entries of a catalog by descending priority; equals keep their order. -/
def byPriority (catalog : List Form) : List (Form × Nat) :=
  catalog.zipIdx.mergeSort fun a b => decide (b.1.priority ≤ a.1.priority)

/-- Groups a catalog. -/
def build (catalog : List Form) : Tiers :=
  let t := (byPriority catalog).foldl place {}
  {
    seeBlanks := t.seeBlanks
    keyed := t.keyed.reverse
    waiting := t.waiting.mergeSort fun a b => decide (a.2 ≤ b.2) }

/-- The forms to try, in order, where blanks have been skipped and `c` is the next character. -/
def candidates (t : Tiers) (c : Option Char) : List Form :=
  let keyed := match c with
    | none => []
    | some c => t.keyed.filterMap fun tier => tier.slots.lookup c
  keyed ++ t.waiting.map (·.1)

end Tiers

end SharpFront
