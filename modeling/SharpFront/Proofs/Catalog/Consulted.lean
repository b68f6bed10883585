import SharpFront.Proofs.Catalog.Tiers

/-!
# The forms that a step consults

A step goes through the forms that see blanks, then through those that its next character calls for.

* `mem_consulted`: grouping a catalog loses no form, each is consulted where it can match;
* `consulted_sublist`: whatever the next character, the forms are consulted in one order.
-/

namespace SharpFront.Tiers

/-- The forms that are consulted where `c` is the next character, in order. -/
def consulted (t : Tiers) (c : Option Char) : List Form := t.seeBlanks ++ t.candidates c

/-- All the forms, in an order in which they are consulted. -/
def order (t : Tiers) : List Form :=
  t.seeBlanks ++ ((t.keyed.flatMap fun tier => tier.slots.map (·.2)) ++ t.waiting.map (·.1))

/-- The form has its place among the tiers: a slot for its character, unless it sees blanks or
waits. -/
def Places (t : Tiers) (form : Form) : Prop :=
  form ∈ t.seeBlanks ∨
  (∃ c, form.trigger = some c ∧ ∃ tier ∈ t.keyed, tier.slots.lookup c = some form) ∨
  ∃ n, (form, n) ∈ t.waiting

/-! ## No form is lost -/

theorem lookup_append_of_eq_some {slots more : List (Char × Form)} {c : Char} {form : Form}
    (h : slots.lookup c = some form) : (slots ++ more).lookup c = some form := by
  rw [List.lookup_append, h, Option.some_or]

/-- A form keeps its place when others come. -/
theorem Places.place {t : Tiers} {form : Form} (h : t.Places form) (entry : Form × Nat) :
    (t.place entry).Places form := by
  have placed := placing t entry.1 entry.2
  generalize t.place (entry.1, entry.2) = u at placed ⊢
  rcases h with seesBlanks | ⟨c, waits, tier, isTier, slot⟩ | ⟨m, isWaiting⟩
  · left
    cases placed with
    | sighted => exact List.mem_append_left _ seesBlanks
    | untriggered | opened | late | filled => exact seesBlanks
  · refine .inr (.inl ⟨c, waits, ?_⟩)
    cases placed with
    | sighted | untriggered | late => exact ⟨tier, isTier, slot⟩
    | opened => exact ⟨tier, List.mem_cons_of_mem _ isTier, slot⟩
    | filled sees isTrigger isKeyed =>
      rw [isKeyed] at isTier
      rcases List.mem_cons.mp isTier with rfl | isHigher
      · exact ⟨_, List.mem_cons_self, lookup_append_of_eq_some slot⟩
      · exact ⟨tier, List.mem_cons_of_mem _ isHigher, slot⟩
  · refine .inr (.inr ⟨m, ?_⟩)
    cases placed with
    | untriggered | late => exact List.mem_cons_of_mem _ isWaiting
    | sighted | opened | filled => exact isWaiting

/-- A form that comes is given a place. -/
theorem places_place (t : Tiers) (form : Form) (n : Nat) : (t.place (form, n)).Places form := by
  have opened (c : Char) : [(c, form)].lookup c = some form := by simp
  have placed := placing t form n
  generalize t.place (form, n) = u at placed ⊢
  cases placed with
  | sighted => exact .inl (List.mem_append_right _ List.mem_cons_self)
  | untriggered | late => exact .inr (.inr ⟨n, List.mem_cons_self⟩)
  | @opened sees c isTrigger =>
    exact .inr (.inl ⟨c, isTrigger, _, List.mem_cons_self, opened c⟩)
  | @filled sees c isTrigger tier higher isKeyed notBelow isFree =>
    refine .inr (.inl ⟨c, isTrigger, _, List.mem_cons_self, ?_⟩)
    rw [List.lookup_append, isFree, Option.none_or]
    exact opened c

theorem Places.foldl_place {t : Tiers} {form : Form} (h : t.Places form)
    (entries : List (Form × Nat)) : (entries.foldl Tiers.place t).Places form :=
  List.foldlRecOn (motive := fun u : Tiers => u.Places form) entries _ h
    fun _ places entry _ => places.place entry

theorem places_foldl {form : Form} {n : Nat} (entries : List (Form × Nat)) (t : Tiers)
    (h : (form, n) ∈ entries) : (entries.foldl Tiers.place t).Places form := by
  induction entries generalizing t with
  | nil => cases h
  | cons entry entries ih =>
    rcases List.mem_cons.mp h with rfl | isLater
    · exact (places_place t form n).foldl_place entries
    · exact ih _ isLater

theorem places_build {catalog : List Form} {form : Form} (h : form ∈ catalog) :
    (build catalog).Places form := by
  obtain ⟨n, isEntry⟩ := mem_byPriority_iff.mpr h
  rcases places_foldl (byPriority catalog) {} isEntry with seesBlanks | ⟨c, waits, tier, isTier, slot⟩ |
    ⟨m, isWaiting⟩
  · exact .inl seesBlanks
  · exact .inr (.inl ⟨c, waits, tier, List.mem_reverse.mpr isTier, slot⟩)
  · exact .inr (.inr ⟨m, List.mem_mergeSort.mpr isWaiting⟩)

/-- A form of the catalog is consulted unless it waits for another character than the next. -/
theorem mem_consulted {catalog : List Form} {form : Form} (h : form ∈ catalog)
    {next : Option Char} (ready : ∀ c, form.trigger = some c → next = some c) :
    form ∈ (build catalog).consulted next := by
  rcases places_build h with seesBlanks | ⟨c, waits, tier, isTier, slot⟩ | ⟨n, isWaiting⟩
  · exact List.mem_append_left _ seesBlanks
  · rw [ready c waits]
    refine List.mem_append_right _ (List.mem_append_left _ ?_)
    exact List.mem_filterMap.mpr ⟨tier, isTier, slot⟩
  · refine List.mem_append_right _ (List.mem_append_right _ ?_)
    exact List.mem_map.mpr ⟨(form, n), isWaiting, rfl⟩

/-! ## One order -/

theorem lookup_toList_sublist (slots : List (Char × Form)) (c : Char) :
    (slots.lookup c).toList.Sublist (slots.map (·.2)) := by
  cases isSlot : slots.lookup c with
  | none => exact List.nil_sublist _
  | some form =>
    obtain ⟨before, after, isSlots, -⟩ := List.lookup_eq_some_iff.mp isSlot
    refine List.singleton_sublist.mpr ?_
    exact List.mem_map.mpr ⟨(c, form), isSlots ▸ List.mem_append_cons_self, rfl⟩

theorem filterMap_lookup_sublist (keyed : List Tier) (c : Char) :
    (keyed.filterMap fun tier => tier.slots.lookup c).Sublist
      (keyed.flatMap fun tier => tier.slots.map (·.2)) := by
  induction keyed with
  | nil => exact .slnil
  | cons tier keyed ih =>
    have both := (lookup_toList_sublist tier.slots c).append ih
    rw [List.filterMap_cons, List.flatMap_cons]
    cases isSlot : tier.slots.lookup c with
    | none =>
      rw [isSlot] at both
      exact both
    | some form =>
      rw [isSlot] at both
      exact both

theorem consulted_sublist (t : Tiers) (next : Option Char) :
    (t.consulted next).Sublist t.order := by
  refine (List.Sublist.refl _).append (List.Sublist.append ?_ (.refl _))
  cases next with
  | none => exact List.nil_sublist _
  | some c => exact filterMap_lookup_sublist t.keyed c

end SharpFront.Tiers
