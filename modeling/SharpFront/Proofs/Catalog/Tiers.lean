import SharpFront.Catalog
import SharpFront.Catalog.Tiers

/-!
# Forms in tiers

Grouping a catalog adds no form to it:

* `Placing`, `placing`: where an entry is put;
* `mem_seeBlanks_iff`: the forms that are tried before blanks are skipped;
* `mem_of_mem_candidates`: the forms that are tried after.
-/

namespace SharpFront.Tiers

theorem mem_byPriority_iff {catalog : List Form} {form : Form} :
    (∃ n, (form, n) ∈ byPriority catalog) ↔ form ∈ catalog := by
  rw [List.mem_iff_getElem?]
  simp only [byPriority, List.mem_mergeSort, List.mem_zipIdx_iff_getElem?]

/-! ## Placing -/

/-- Where an entry is put. -/
inductive Placing (t : Tiers) (form : Form) (n : Nat) : Tiers → Prop where
  | sighted (sees : form.seesBlanks = true) :
    Placing t form n { t with seeBlanks := t.seeBlanks ++ [form] }
  | untriggered (sees : form.seesBlanks = false) (noTrigger : form.trigger = none) :
    Placing t form n { t with waiting := (form, n) :: t.waiting }
  /-- No tier is open, or the priority is below that of the last. -/
  | opened (sees : form.seesBlanks = false) {c : Char} (isTrigger : form.trigger = some c)
    (below : ∀ tier ∈ t.keyed.head?, form.priority < tier.priority) :
    Placing t form n { t with keyed := ⟨form.priority, [(c, form)]⟩ :: t.keyed }
  | late (sees : form.seesBlanks = false) {c : Char} (isTrigger : form.trigger = some c)
    {tier : Tier} {higher : List Tier} (isKeyed : t.keyed = tier :: higher)
    (notBelow : ¬form.priority < tier.priority) (isTaken : (tier.slots.lookup c).isSome = true) :
    Placing t form n { t with waiting := (form, n) :: t.waiting }
  | filled (sees : form.seesBlanks = false) {c : Char} (isTrigger : form.trigger = some c)
    {tier : Tier} {higher : List Tier} (isKeyed : t.keyed = tier :: higher)
    (notBelow : ¬form.priority < tier.priority) (isFree : tier.slots.lookup c = none) :
    Placing t form n
      { t with keyed := { tier with slots := tier.slots ++ [(c, form)] } :: higher }

theorem placing (t : Tiers) (form : Form) (n : Nat) : Placing t form n (t.place (form, n)) := by
  simp only [place]
  split
  · next sees => exact .sighted sees
  · next notSees =>
    have sees : form.seesBlanks = false := Bool.eq_false_iff.mpr notSees
    split
    · next noTrigger => exact .untriggered sees noTrigger
    · next c isTrigger =>
      split
      · next isKeyed =>
        have opened := Placing.opened (t := t) (n := n) sees isTrigger (by simp [isKeyed])
        rwa [isKeyed] at opened
      · next tier higher isKeyed =>
        split
        · next below => exact .opened sees isTrigger (by simpa [isKeyed] using below)
        · next notBelow =>
          split
          · next isTaken => exact .late sees isTrigger isKeyed notBelow isTaken
          · next isFree =>
            exact .filled sees isTrigger isKeyed notBelow (Option.not_isSome_iff_eq_none.mp isFree)

/-! ## Forms that see blanks -/

theorem place_seeBlanks (t : Tiers) (entry : Form × Nat) :
    (t.place entry).seeBlanks =
      if entry.1.seesBlanks then t.seeBlanks ++ [entry.1] else t.seeBlanks := by
  have placed := placing t entry.1 entry.2
  generalize t.place (entry.1, entry.2) = u at placed ⊢
  cases placed with
  | sighted sees => rw [if_pos sees]
  | untriggered sees | opened sees | late sees | filled sees => rw [sees, if_neg Bool.false_ne_true]

theorem foldl_place_seeBlanks (entries : List (Form × Nat)) (t : Tiers) :
    (entries.foldl place t).seeBlanks =
      t.seeBlanks ++ (entries.map (·.1)).filter (·.seesBlanks) := by
  induction entries generalizing t with
  | nil => simp
  | cons entry entries ih =>
    rw [List.foldl_cons, ih, place_seeBlanks, List.map_cons, List.filter_cons]
    split
    · rw [List.append_assoc, List.singleton_append]
    · rfl

theorem mem_seeBlanks_iff {catalog : List Form} {form : Form} :
    form ∈ (build catalog).seeBlanks ↔ form ∈ catalog ∧ form.seesBlanks = true := by
  have inCatalog : (∃ n, (form, n) ∈ byPriority catalog) ↔ form ∈ catalog := mem_byPriority_iff
  simp only [← inCatalog, build, foldl_place_seeBlanks, List.nil_append, List.mem_filter,
    List.mem_map, Prod.exists, exists_and_right, exists_eq_right]

/-! ## The other forms -/

/-- The forms that wait for a trigger or for their turn are among the given ones. -/
structure Within (forms : List Form) (t : Tiers) : Prop where
  keyed : ∀ tier ∈ t.keyed, ∀ slot ∈ tier.slots, slot.2 ∈ forms
  waiting : ∀ entry ∈ t.waiting, entry.1 ∈ forms

theorem Within.place {forms : List Form} {t : Tiers} (h : Within forms t) {entry : Form × Nat}
    (isForm : entry.1 ∈ forms) : Within forms (t.place entry) := by
  obtain ⟨form, n⟩ := entry
  have waits : ∀ entry ∈ (form, n) :: t.waiting, entry.1 ∈ forms :=
    List.forall_mem_cons.mpr ⟨isForm, h.waiting⟩
  have slot (c : Char) : ∀ slot ∈ [(c, form)], slot.2 ∈ forms :=
    List.forall_mem_singleton.mpr isForm
  have placed := placing t form n
  generalize t.place (form, n) = u at placed ⊢
  cases placed with
  | sighted => exact ⟨h.keyed, h.waiting⟩
  | untriggered | late => exact ⟨h.keyed, waits⟩
  | opened => exact ⟨List.forall_mem_cons.mpr ⟨slot _, h.keyed⟩, h.waiting⟩
  | @filled sees c isTrigger tier higher isKeyed =>
    obtain ⟨inTier, inHigher⟩ := List.forall_mem_cons.mp (isKeyed ▸ h.keyed)
    have inFilled := List.forall_mem_append.mpr ⟨inTier, slot c⟩
    exact ⟨List.forall_mem_cons.mpr ⟨inFilled, inHigher⟩, h.waiting⟩

theorem Within.foldl_place {forms : List Form} (entries : List (Form × Nat)) {t : Tiers}
    (h : Within forms t) (isForm : ∀ entry ∈ entries, entry.1 ∈ forms) :
    Within forms (entries.foldl Tiers.place t) :=
  List.foldlRecOn entries _ h fun _ within entry isEntry => within.place (isForm entry isEntry)

theorem within_build (catalog : List Form) : Within catalog (build catalog) := by
  have placed : Within catalog ((byPriority catalog).foldl Tiers.place {}) := by
    refine Within.foldl_place _ ⟨nofun, nofun⟩ ?_
    rintro ⟨form, n⟩ isEntry
    exact mem_byPriority_iff.mp ⟨n, isEntry⟩
  refine ⟨?_, ?_⟩
  · intro tier isTier
    exact placed.keyed tier (List.mem_reverse.mp isTier)
  · intro entry isEntry
    exact placed.waiting entry (List.mem_mergeSort.mp isEntry)

theorem mem_of_mem_candidates {catalog : List Form} {c : Option Char} {form : Form}
    (h : form ∈ (build catalog).candidates c) : form ∈ catalog := by
  have within := within_build catalog
  rcases List.mem_append.mp h with isKeyed | isWaiting
  · cases c with
    | none => cases isKeyed
    | some c =>
      obtain ⟨tier, isTier, isSlot⟩ := List.mem_filterMap.mp isKeyed
      obtain ⟨before, after, isSlots, _⟩ := List.lookup_eq_some_iff.mp isSlot
      exact within.keyed tier isTier (c, form) (isSlots ▸ List.mem_append_cons_self)
  · obtain ⟨entry, isEntry, rfl⟩ := List.mem_map.mp isWaiting
    exact within.waiting entry isEntry

end SharpFront.Tiers
