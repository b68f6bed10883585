import Mathlib.Data.List.Dedup
import Mathlib.Data.List.Induction
import Mathlib.Data.List.Sort
import SharpFront.Proofs.Catalog.Consulted

/-!
# The precedence of forms

In which order the forms of a catalog are consulted, said of the catalog alone.

* `Catalog.sighted`, `Catalog.holders`, `Catalog.waiting`: the forms that see blanks, those in the
  slots for a character, and those that wait;
* `Tiers.Holds`: what the groups hold after some entries, kept by one more entry;
* `seeBlanks_build`, `candidates_build`: the groups of a catalog are in the order of precedence;
* `order_build_perm`: every form of a catalog is in one of the groups, once.
-/

namespace SharpFront

/-- The slot that a form with a trigger asks for: its priority and its trigger. -/
def Form.slot? (form : Form) : Option (Int × Char) := form.trigger.map (form.priority, ·)

namespace Form

variable {form : Form} {c : Char}

theorem slot?_of_trigger (h : form.trigger = some c) : form.slot? = some (form.priority, c) := by
  rw [slot?, h, Option.map_some]

theorem slot?_of_noTrigger (h : form.trigger = none) : form.slot? = none := by
  rw [slot?, h, Option.map_none]

theorem priority_of_slot? {slot : Int × Char} (h : form.slot? = some slot) :
    form.priority = slot.1 := by
  obtain ⟨c, -, rfl⟩ := Option.map_eq_some_iff.mp h
  rfl

/-- Only blanks are seen before they are skipped. -/
theorem eq_whitespace_of_seesBlanks (h : form.seesBlanks = true) : form = .whitespace := by
  cases form <;> first | rfl | cases h

theorem slot?_of_seesBlanks (h : form.seesBlanks = true) : form.slot? = none := by
  rw [eq_whitespace_of_seesBlanks h]
  rfl

end Form

/-! ## Slots and entries -/

/-- The first of the entries that asks for a slot. -/
def first? (entries : List (Form × Nat)) (slot : Int × Char) : Option (Form × Nat) :=
  entries.find? (·.1.slot? == some slot)

/-- The entry asks for a slot, and none of the entries does so before it. -/
def isFirst (entries : List (Form × Nat)) (entry : Form × Nat) : Bool :=
  entry.1.slot?.any fun slot => (first? entries slot).any (·.2 == entry.2)

/-- The entry neither sees blanks nor has a slot. -/
def waits (entries : List (Form × Nat)) (entry : Form × Nat) : Bool :=
  !entry.1.seesBlanks && !isFirst entries entry

namespace Catalog

/-- The forms that see blanks, by descending priority; equals keep their order. -/
def sighted (catalog : List Form) : List Form :=
  (catalog.filter (·.seesBlanks)).mergeSort fun f g => decide (g.priority ≤ f.priority)

/-- The priorities of the forms that have a trigger, each once, from the highest down. -/
def priorities (catalog : List Form) : List Int :=
  ((catalog.filterMap Form.slot?).map (·.1)).dedup.mergeSort fun p q => decide (q ≤ p)

/-- For each priority the first form that has it and the trigger `c`. -/
def holders (catalog : List Form) (c : Char) : List Form :=
  (priorities catalog).filterMap fun p => (first? catalog.zipIdx (p, c)).map (·.1)

/-- The forms without a trigger and those that come after the first of their priority and trigger, in
the order of the catalog. -/
def waiting (catalog : List Form) : List Form :=
  (catalog.zipIdx.filter (waits catalog.zipIdx)).map (·.1)

/-- The forms that do not see blanks and can match where `c` is the next character, in order. -/
def contenders (catalog : List Form) (c : Option Char) : List Form :=
  c.elim [] (holders catalog) ++ waiting catalog

end Catalog

variable {entries more : List (Form × Nat)} {entry other : Form × Nat} {slot : Int × Char}

theorem first?_append (entries more : List (Form × Nat)) (slot : Int × Char) :
    first? (entries ++ more) slot = (first? entries slot).or (first? more slot) :=
  List.find?_append

theorem first?_singleton (entry : Form × Nat) (slot : Int × Char) :
    first? [entry] slot = if entry.1.slot? = some slot then some entry else none := by
  rw [first?, List.find?_singleton]
  simp only [beq_iff_eq]

theorem first?_eq_none_iff :
    first? entries slot = none ↔ ∀ entry ∈ entries, entry.1.slot? ≠ some slot := by
  simp only [first?, List.find?_eq_none, beq_iff_eq, ne_eq]

theorem mem_of_first? (h : first? entries slot = some entry) :
    entry ∈ entries ∧ entry.1.slot? = some slot := by
  rw [first?] at h
  exact ⟨List.mem_of_find?_eq_some h, by simpa using List.find?_some h⟩

theorem exists_first? (isEntry : entry ∈ entries) (asks : entry.1.slot? = some slot) :
    ∃ first, first? entries slot = some first := by
  refine Option.isSome_iff_exists.mp (List.find?_isSome.mpr ?_)
  exact ⟨entry, isEntry, beq_iff_eq.mpr asks⟩

/-- What stands behind an entry does not matter to it. -/
theorem waits_append (isEntry : entry ∈ entries) (more : List (Form × Nat)) :
    waits (entries ++ more) entry = waits entries entry := by
  unfold waits isFirst
  cases asks : entry.1.slot? with
  | none => rfl
  | some slot =>
    obtain ⟨first, isFirst⟩ := exists_first? isEntry asks
    simp only [Option.any_some, first?_append, isFirst, Option.some_or]

/-! ## Grouping -/

namespace Tiers

/-- What the groups hold after some entries. -/
structure Holds (entries : List (Form × Nat)) (t : Tiers) : Prop where
  /-- The last tier opened has the lowest priority. -/
  ascending : (t.keyed.map (·.priority)).Pairwise (· < ·)
  mem_priorities : ∀ p, p ∈ t.keyed.map (·.priority) ↔
    ∃ entry ∈ entries, ∃ c, entry.1.slot? = some (p, c)
  lookup : ∀ tier ∈ t.keyed, ∀ c,
    tier.slots.lookup c = (first? entries (tier.priority, c)).map (·.1)
  waiting : t.waiting = (entries.filter (waits entries)).reverse

variable {t : Tiers} {form : Form} {n : Nat} {c : Char}

/-- An entry that is not among others waits behind them if it has no trigger or its slot is taken. -/
theorem waits_concat (isNew : ∀ other ∈ entries, other.2 ≠ entry.2) : waits (entries ++ [entry]) entry =
    (!entry.1.seesBlanks && entry.1.slot?.all fun slot => (first? entries slot).isSome) := by
  unfold waits isFirst
  congr 1
  cases asks : entry.1.slot? with
  | none => rfl
  | some slot =>
    rw [Option.any_some, Option.all_some, first?_append, first?_singleton, if_pos asks]
    cases isFirst : first? entries slot with
    | none => simp
    | some first => simpa using isNew first (mem_of_first? isFirst).1

theorem filter_waits_concat (entries : List (Form × Nat)) (entry : Form × Nat) :
    (entries ++ [entry]).filter (waits (entries ++ [entry])) =
      entries.filter (waits entries) ++
        if waits (entries ++ [entry]) entry then [entry] else [] := by
  have earlier : entries.filter (waits (entries ++ [entry])) = entries.filter (waits entries) :=
    List.filter_congr fun other isEntry => waits_append isEntry [entry]
  rw [List.filter_append, earlier, List.filter_singleton, Bool.cond_eq_ite]

namespace Holds

/-- An entry that has no slot to fill leaves the slots as they are. -/
theorem first?_concat_of_idle (idle : ∀ slot, entry.1.slot? = some slot →
    (first? entries slot).isSome = true) (slot : Int × Char) :
    first? (entries ++ [entry]) slot = first? entries slot := by
  rw [first?_append, first?_singleton]
  split
  · next asks =>
    obtain ⟨first, isFirst⟩ := Option.isSome_iff_exists.mp (idle slot asks)
    rw [isFirst, Option.some_or]
  · rw [Option.or_none]

theorem mem_priorities_concat (h : Holds entries t) (entry : Form × Nat) (p : Int) :
    (∃ other ∈ entries ++ [entry], ∃ c, other.1.slot? = some (p, c)) ↔
      p ∈ t.keyed.map (·.priority) ∨ ∃ c, entry.1.slot? = some (p, c) := by
  rw [h.mem_priorities]
  simp only [List.mem_append, List.mem_singleton, or_and_right, exists_or, exists_eq_left]

theorem concat_of_idle (h : Holds entries t) (isNew : ∀ other ∈ entries, other.2 ≠ n)
    (idle : ∀ slot, form.slot? = some slot → (first? entries slot).isSome = true)
    {u : Tiers} (keyed : u.keyed = t.keyed)
    (waiting : u.waiting = if form.seesBlanks then t.waiting else (form, n) :: t.waiting) :
    Holds (entries ++ [(form, n)]) u where
  ascending := keyed ▸ h.ascending
  mem_priorities p := by
    rw [h.mem_priorities_concat, keyed]
    refine (or_iff_left_of_imp ?_).symm
    rintro ⟨c, asks⟩
    obtain ⟨first, isFirst⟩ := Option.isSome_iff_exists.mp (idle _ asks)
    obtain ⟨isEntry, same⟩ := mem_of_first? isFirst
    exact (h.mem_priorities p).mpr ⟨first, isEntry, c, same⟩
  lookup tier isTier c := by
    rw [first?_concat_of_idle idle, h.lookup tier (keyed ▸ isTier) c]
  waiting := by
    have idles : (form.slot?.all fun slot => (first? entries slot).isSome) = true := by
      rw [Option.all_eq_true]
      exact idle
    rw [filter_waits_concat, waits_concat isNew, idles, Bool.and_true, waiting, h.waiting]
    cases form.seesBlanks <;> simp

/-- An entry whose slot is free does not wait. -/
theorem waiting_of_free (h : Holds entries t) (isNew : ∀ other ∈ entries, other.2 ≠ n)
    (asks : form.slot? = some slot) (free : first? entries slot = none) :
    t.waiting = ((entries ++ [(form, n)]).filter (waits (entries ++ [(form, n)]))).reverse := by
  have settled : waits (entries ++ [(form, n)]) (form, n) = false := by
    rw [waits_concat isNew, asks, Option.all_some, free, Option.isSome_none, Bool.and_false]
  rw [filter_waits_concat, settled, h.waiting]
  simp

theorem first?_eq_none_of_notMem (h : Holds entries t) {p : Int}
    (noTier : p ∉ t.keyed.map (·.priority)) (c : Char) : first? entries (p, c) = none := by
  rw [first?_eq_none_iff]
  intro entry isEntry asks
  exact noTier ((h.mem_priorities p).mpr ⟨entry, isEntry, c, asks⟩)

theorem lookup_of_ne (h : Holds entries t) {tier : Tier} (isTier : tier ∈ t.keyed)
    (different : tier.priority ≠ form.priority) (c : Char) : tier.slots.lookup c =
      (first? (entries ++ [(form, n)]) (tier.priority, c)).map (·.1) := by
  have notAsked : form.slot? ≠ some (tier.priority, c) :=
    fun asks => different (Form.priority_of_slot? asks).symm
  rw [first?_append, first?_singleton, if_neg notAsked, Option.or_none, h.lookup tier isTier]

/-- A slot is looked up as the first entry that asks for it. -/
theorem map_first?_concat (isTrigger : form.trigger = some c) (d : Char) :
    (first? (entries ++ [(form, n)]) (form.priority, d)).map (·.1) =
      ((first? entries (form.priority, d)).map (·.1)).or ([(c, form)].lookup d) := by
  have asks : form.slot? = some (form.priority, d) ↔ d = c := by
    rw [Form.slot?_of_trigger isTrigger, Option.some_inj, Prod.mk.injEq]
    exact ⟨fun same => same.2.symm, fun same => ⟨rfl, same.symm⟩⟩
  rw [first?_append, first?_singleton, Option.map_or, List.lookup_cons]
  congr 1
  by_cases same : d = c
  · rw [if_pos (asks.mpr same), beq_iff_eq.mpr same]
    rfl
  · rw [if_neg (mt asks.mp same), beq_eq_false_iff_ne.mpr same]
    rfl

/-- A tier that is opened has the lowest priority so far. -/
theorem concat_opened (h : Holds entries t) (isNew : ∀ other ∈ entries, other.2 ≠ n)
    (isTrigger : form.trigger = some c)
    (below : ∀ tier ∈ t.keyed.head?, form.priority < tier.priority) :
    Holds (entries ++ [(form, n)])
      { t with keyed := ⟨form.priority, [(c, form)]⟩ :: t.keyed } := by
  have lowest : ∀ q ∈ t.keyed.map (·.priority), form.priority < q := by
    cases isKeyed : t.keyed with
    | nil => exact List.forall_mem_nil _
    | cons tier higher =>
      have ascending := h.ascending
      rw [isKeyed] at below ascending
      have here := below tier rfl
      intro q isPriority
      rcases List.mem_cons.mp isPriority with rfl | isHigher
      · exact here
      · exact here.trans ((List.pairwise_cons.mp ascending).1 q isHigher)
  have noTier : form.priority ∉ t.keyed.map (·.priority) :=
    fun isPriority => lt_irrefl _ (lowest _ isPriority)
  have asks := Form.slot?_of_trigger isTrigger
  exact {
    ascending := List.pairwise_cons.mpr ⟨lowest, h.ascending⟩
    mem_priorities := by
      intro p
      rw [h.mem_priorities_concat, asks, List.map_cons, List.mem_cons, or_comm]
      simp [eq_comm]
    lookup := by
      intro tier isTier d
      rcases List.mem_cons.mp isTier with rfl | isEarlier
      · rw [map_first?_concat isTrigger, h.first?_eq_none_of_notMem noTier]
        rfl
      · refine h.lookup_of_ne isEarlier ?_ d
        intro same
        exact noTier (same ▸ List.mem_map_of_mem isEarlier)
    waiting := h.waiting_of_free isNew asks (h.first?_eq_none_of_notMem noTier c) }

/-- An entry that comes in the order of falling priority and finds its slot free belongs to the last
tier. -/
theorem concat_filled (h : Holds entries t) (isNew : ∀ other ∈ entries, other.2 ≠ n)
    (isTrigger : form.trigger = some c) {tier : Tier} {higher : List Tier}
    (isKeyed : t.keyed = tier :: higher) (same : tier.priority = form.priority)
    (isFree : tier.slots.lookup c = none) :
    Holds (entries ++ [(form, n)])
      { t with keyed := { tier with slots := tier.slots ++ [(c, form)] } :: higher } := by
  have asks := Form.slot?_of_trigger isTrigger
  have inKeyed : tier ∈ t.keyed := isKeyed ▸ List.mem_cons_self
  have free : first? entries (form.priority, c) = none := by
    rw [h.lookup tier inKeyed, same] at isFree
    exact Option.map_eq_none_iff.mp isFree
  have ascending := h.ascending
  rw [isKeyed] at ascending
  exact {
    ascending := ascending
    mem_priorities := by
      intro p
      rw [h.mem_priorities_concat, asks, isKeyed]
      refine (or_iff_left_of_imp ?_).symm
      rintro ⟨d, isSlot⟩
      cases isSlot
      exact same ▸ List.mem_cons_self
    lookup := by
      intro other isTier d
      rcases List.mem_cons.mp isTier with rfl | isHigher
      · rw [List.lookup_append, same, map_first?_concat isTrigger, ← same, h.lookup tier inKeyed]
      · have above := (List.pairwise_cons.mp ascending).1 _ (List.mem_map_of_mem isHigher)
        refine h.lookup_of_ne (isKeyed ▸ List.mem_cons_of_mem _ isHigher) ?_ d
        exact fun equal => (same ▸ equal ▸ above).ne rfl
    waiting := h.waiting_of_free isNew asks free }

/-- Entries that come in the order of falling priority are put where they belong. -/
theorem concat (h : Holds entries t) (isNew : ∀ other ∈ entries, other.2 ≠ n)
    (falling : ∀ earlier ∈ entries, form.priority ≤ earlier.1.priority) :
    Holds (entries ++ [(form, n)]) (t.place (form, n)) := by
  -- The last tier has the priority of an entry that came before.
  have last {tier : Tier} {higher : List Tier} (isKeyed : t.keyed = tier :: higher)
      (notBelow : ¬form.priority < tier.priority) : tier.priority = form.priority := by
    have isPriority : tier.priority ∈ t.keyed.map (·.priority) :=
      isKeyed ▸ List.mem_map_of_mem List.mem_cons_self
    obtain ⟨entry, isEntry, d, asks⟩ := (h.mem_priorities _).mp isPriority
    have notAbove := falling entry isEntry
    rw [Form.priority_of_slot? asks] at notAbove
    exact le_antisymm (not_lt.mp notBelow) notAbove
  have placed := placing t form n
  generalize t.place (form, n) = u at placed ⊢
  cases placed with
  | sighted sees =>
    refine h.concat_of_idle isNew ?_ rfl (by rw [if_pos sees])
    intro slot asks
    rw [Form.slot?_of_seesBlanks sees] at asks
    cases asks
  | untriggered sees noTrigger =>
    refine h.concat_of_idle isNew ?_ rfl (by rw [sees]; rfl)
    intro slot asks
    rw [Form.slot?_of_noTrigger noTrigger] at asks
    cases asks
  | opened sees isTrigger below => exact h.concat_opened isNew isTrigger below
  | late sees isTrigger isKeyed notBelow isTaken =>
    refine h.concat_of_idle isNew ?_ rfl (by rw [sees]; rfl)
    intro slot asks
    rw [Form.slot?_of_trigger isTrigger] at asks
    cases asks
    rw [h.lookup _ (isKeyed ▸ List.mem_cons_self), last isKeyed notBelow, Option.isSome_map]
      at isTaken
    exact isTaken
  | filled sees isTrigger isKeyed notBelow isFree =>
    exact h.concat_filled isNew isTrigger isKeyed (last isKeyed notBelow) isFree

theorem foldl_place {falling : List (Form × Nat)}
    (distinct : falling.Pairwise fun a b => a.2 ≠ b.2)
    (descending : falling.Pairwise fun a b => b.1.priority ≤ a.1.priority) :
    Holds falling (falling.foldl place {}) := by
  induction falling using List.reverseRecOn with
  | nil => exact ⟨.nil, by simp, nofun, rfl⟩
  | append_singleton entries entry ih =>
    obtain ⟨distinct, -, apart⟩ := List.pairwise_append.mp distinct
    obtain ⟨descending, -, falling⟩ := List.pairwise_append.mp descending
    rw [List.foldl_append]
    refine (ih distinct descending).concat ?_ ?_
    · exact fun earlier isEntry => apart earlier isEntry _ (List.mem_singleton_self _)
    · exact fun earlier isEntry => falling earlier isEntry _ (List.mem_singleton_self _)

end Holds

/-! ## The groups of a catalog -/

theorem byPriority_perm (catalog : List Form) : (byPriority catalog).Perm catalog.zipIdx :=
  List.mergeSort_perm _ _

theorem pairwise_zipIdx (catalog : List Form) :
    catalog.zipIdx.Pairwise fun a b => a.2 < b.2 := by
  rw [← List.pairwise_map (f := Prod.snd), List.zipIdx_map_snd]
  exact List.pairwise_lt_range'

theorem distinct_byPriority (catalog : List Form) :
    (byPriority catalog).Pairwise fun a b => a.2 ≠ b.2 :=
  ((byPriority_perm catalog).pairwise_iff fun apart => apart.symm).mpr
    ((pairwise_zipIdx catalog).imp fun before => before.ne)

section

variable {α : Type} (key : α → Int)

theorem falling_trans (a b c : α) (first : decide (key b ≤ key a) = true)
    (second : decide (key c ≤ key b) = true) : decide (key c ≤ key a) = true :=
  decide_eq_true ((of_decide_eq_true second).trans (of_decide_eq_true first))

theorem falling_total (a b : α) : (decide (key b ≤ key a) || decide (key a ≤ key b)) = true := by
  rw [Bool.or_eq_true, decide_eq_true_iff, decide_eq_true_iff]
  exact le_total _ _

end

theorem pairwise_byPriority (catalog : List Form) :
    (byPriority catalog).Pairwise fun a b => b.1.priority ≤ a.1.priority :=
  (List.pairwise_mergeSort (falling_trans fun entry : Form × Nat => entry.1.priority)
    (falling_total fun entry : Form × Nat => entry.1.priority) catalog.zipIdx).imp of_decide_eq_true

/-- Entries of one priority keep the order of the catalog. -/
theorem filter_byPriority (catalog : List Form) {q : Form × Nat → Bool} {p : Int}
    (onePriority : ∀ entry, q entry = true → entry.1.priority = p) :
    (byPriority catalog).filter q = catalog.zipIdx.filter q := by
  have equal : (catalog.zipIdx.filter q).Pairwise
      fun a b => decide (b.1.priority ≤ a.1.priority) = true := by
    refine List.pairwise_of_forall_mem_list ?_
    intro a isA b isB
    rw [onePriority a (List.mem_filter.mp isA).2, onePriority b (List.mem_filter.mp isB).2]
    exact decide_eq_true le_rfl
  have kept : (catalog.zipIdx.filter q).Sublist (byPriority catalog) :=
    List.sublist_mergeSort (falling_trans fun entry : Form × Nat => entry.1.priority)
      (falling_total fun entry : Form × Nat => entry.1.priority) equal List.filter_sublist
  have filtered := kept.filter q
  rw [List.filter_filter] at filtered
  simp only [Bool.and_self] at filtered
  exact (filtered.eq_of_length ((byPriority_perm catalog).filter q).length_eq.symm).symm

theorem first?_byPriority (catalog : List Form) (slot : Int × Char) :
    first? (byPriority catalog) slot = first? catalog.zipIdx slot := by
  rw [first?, first?, ← List.head?_filter, ← List.head?_filter, filter_byPriority catalog]
  intro entry asks
  exact Form.priority_of_slot? (beq_iff_eq.mp asks)

theorem waits_byPriority (catalog : List Form) :
    waits (byPriority catalog) = waits catalog.zipIdx := by
  funext entry
  simp only [waits, isFirst, first?_byPriority]

theorem holds_byPriority (catalog : List Form) :
    Holds (byPriority catalog) ((byPriority catalog).foldl place {}) :=
  .foldl_place (distinct_byPriority catalog)
    (pairwise_byPriority catalog)

theorem mem_priorities_iff {catalog : List Form} {p : Int} :
    p ∈ Catalog.priorities catalog ↔ ∃ form ∈ catalog, ∃ c, form.slot? = some (p, c) := by
  simp only [Catalog.priorities, List.mem_mergeSort, List.mem_dedup, List.mem_map,
    List.mem_filterMap, Prod.exists, exists_and_right, exists_eq_right]
  exact ⟨fun ⟨c, form, h⟩ => ⟨form, h.1, c, h.2⟩, fun ⟨form, h, c, h'⟩ => ⟨c, form, h, h'⟩⟩

theorem pairwise_priorities (catalog : List Form) :
    (Catalog.priorities catalog).Pairwise (· > ·) := by
  have falling := (List.pairwise_mergeSort (falling_trans id) (falling_total id)
    ((catalog.filterMap Form.slot?).map (·.1)).dedup).imp of_decide_eq_true
  have distinct : (Catalog.priorities catalog).Nodup :=
    (List.mergeSort_perm _ _).nodup_iff.mpr (List.nodup_dedup _)
  exact (falling.and distinct).imp fun ⟨notAbove, different⟩ => lt_of_le_of_ne notAbove different.symm

theorem map_priority_build (catalog : List Form) :
    (build catalog).keyed.map (·.priority) = Catalog.priorities catalog := by
  have holds := holds_byPriority catalog
  refine List.Pairwise.eq_of_mem_iff ?_ (pairwise_priorities catalog) ?_
  · rw [build, List.map_reverse, List.pairwise_reverse]
    exact holds.ascending
  · intro p
    rw [build, List.map_reverse, List.mem_reverse, holds.mem_priorities, mem_priorities_iff]
    constructor
    · rintro ⟨⟨form, n⟩, isEntry, asks⟩
      exact ⟨form, mem_byPriority_iff.mp ⟨n, isEntry⟩, asks⟩
    · rintro ⟨form, inCatalog, asks⟩
      obtain ⟨n, isEntry⟩ := mem_byPriority_iff.mpr inCatalog
      exact ⟨(form, n), isEntry, asks⟩

theorem keyed_build (catalog : List Form) (c : Char) :
    (build catalog).keyed.filterMap (fun tier => tier.slots.lookup c) =
      Catalog.holders catalog c := by
  have holds := holds_byPriority catalog
  rw [Catalog.holders, ← map_priority_build, List.filterMap_map]
  refine List.filterMap_congr ?_
  intro tier isTier
  rw [holds.lookup tier (List.mem_reverse.mp isTier) c, first?_byPriority]
  rfl

theorem waiting_build (catalog : List Form) :
    (build catalog).waiting.map (·.1) = Catalog.waiting catalog := by
  rw [Catalog.waiting]
  congr 1
  have placed := (holds_byPriority catalog).waiting
  rw [waits_byPriority] at placed
  have perm : (build catalog).waiting.Perm (catalog.zipIdx.filter (waits catalog.zipIdx)) := by
    rw [build, placed]
    refine (List.mergeSort_perm _ _).trans ((List.reverse_perm _).trans ?_)
    exact (byPriority_perm catalog).filter _
  have rising : (build catalog).waiting.Pairwise fun a b => a.2 ≤ b.2 := by
    refine (List.pairwise_mergeSort ?trans ?total _).imp of_decide_eq_true
    case trans =>
      intro a b c first second
      exact decide_eq_true ((of_decide_eq_true first).trans (of_decide_eq_true second))
    case total =>
      intro a b
      rw [Bool.or_eq_true, decide_eq_true_iff, decide_eq_true_iff]
      exact le_total _ _
  have ordered := (pairwise_zipIdx catalog).filter (waits catalog.zipIdx)
  refine perm.eq_of_pairwise ?_ rising (ordered.imp Nat.le_of_lt)
  -- Two entries at one place of the catalog are the same.
  intro a b isA isB notAfter notBefore
  have isA := List.mem_zipIdx_iff_getElem?.mp (List.mem_filter.mp (perm.subset isA)).1
  have isB := List.mem_zipIdx_iff_getElem?.mp (List.mem_filter.mp isB).1
  have place_eq : a.2 = b.2 := le_antisymm notAfter notBefore
  rw [place_eq, isB] at isA
  exact Prod.ext (Option.some.inj isA).symm place_eq

/-- A form that comes too late for its slot waits among those without a trigger. -/
example (program : Pattern.Program) :
    let late : Form := .pattern ⟨"late", program, some '=', 0⟩
    Catalog.waiting [.number, .operator .assign, late, .word, .operator .equality] =
      [.number, late, .word] := rfl

/-- **The forms that a step tries behind the blanks** are those in the slots for its character, by
falling priority, and then those that wait. -/
theorem candidates_build (catalog : List Form) (c : Option Char) :
    (build catalog).candidates c = Catalog.contenders catalog c := by
  unfold candidates
  rw [waiting_build, Catalog.contenders]
  cases c with
  | none => rfl
  | some c => exact congrArg (· ++ Catalog.waiting catalog) (keyed_build catalog c)

/-! ## Forms that see blanks -/

theorem sighted_eq_filter (catalog : List Form) :
    Catalog.sighted catalog = catalog.filter (·.seesBlanks) := by
  refine List.mergeSort_of_pairwise (List.pairwise_of_forall_mem_list ?_)
  intro f isF g isG
  rw [Form.eq_whitespace_of_seesBlanks (List.mem_filter.mp isF).2,
    Form.eq_whitespace_of_seesBlanks (List.mem_filter.mp isG).2]
  exact decide_eq_true le_rfl

theorem filter_seesBlanks_eq (forms : List Form) :
    forms.filter (·.seesBlanks) = List.replicate (forms.countP (·.seesBlanks)) .whitespace := by
  refine List.eq_replicate_iff.mpr ⟨List.countP_eq_length_filter.symm, ?_⟩
  intro form isForm
  exact Form.eq_whitespace_of_seesBlanks (List.mem_filter.mp isForm).2

theorem seeBlanks_build (catalog : List Form) :
    (build catalog).seeBlanks = Catalog.sighted catalog := by
  have perm := (byPriority_perm catalog).map (·.1)
  rw [List.zipIdx_map_fst] at perm
  rw [build, foldl_place_seeBlanks, List.nil_append, sighted_eq_filter, filter_seesBlanks_eq,
    filter_seesBlanks_eq, perm.countP_eq]

/-! ## No form is lost or doubled -/

theorem order_place_perm (t : Tiers) (form : Form) (n : Nat) :
    (t.place (form, n)).order.Perm (form :: t.order) := by
  have placed := placing t form n
  generalize t.place (form, n) = u at placed ⊢
  cases placed with
  | sighted =>
    simp only [order, List.append_assoc, List.singleton_append]
    exact List.perm_middle
  | untriggered | late =>
    simp only [order, List.map_cons]
    exact (List.perm_middle.append_left _).trans List.perm_middle
  | opened =>
    simp only [order, List.flatMap_cons, List.map_cons, List.map_nil, List.cons_append,
      List.nil_append]
    exact List.perm_middle
  | filled sees isTrigger isKeyed =>
    simp only [order, isKeyed, List.flatMap_cons, List.map_append, List.map_cons, List.map_nil,
      List.append_assoc, List.singleton_append]
    exact (List.perm_middle.append_left _).trans List.perm_middle

theorem order_foldl_perm (entries : List (Form × Nat)) (t : Tiers) :
    (entries.foldl place t).order.Perm (entries.map (·.1) ++ t.order) := by
  induction entries generalizing t with
  | nil => exact .refl _
  | cons entry entries ih =>
    refine (ih (t.place entry)).trans ?_
    exact ((order_place_perm t entry.1 entry.2).append_left _).trans List.perm_middle

/-- **Every form of a catalog is in one of the groups, once.** -/
theorem order_build_perm (catalog : List Form) : (build catalog).order.Perm catalog := by
  have placed := order_foldl_perm (byPriority catalog) {}
  have entries := (byPriority_perm catalog).map (·.1)
  rw [List.zipIdx_map_fst] at entries
  have sorted : (build catalog).order.Perm ((byPriority catalog).foldl place {}).order := by
    refine List.Perm.append_left _ (List.Perm.append ?_ ?_)
    · exact (List.reverse_perm _).flatMap_right _
    · exact (List.mergeSort_perm _ _).map _
  refine (sorted.trans placed).trans ?_
  rw [order]
  simpa using entries

end Tiers

end SharpFront
