import SharpFront.Proofs.Catalog.Precedence

/-!
# One more form in a catalog

* `sighted_whitespace`, `contenders_whitespace`: blanks in front of a catalog that has none;
* `filter_sighted_append`, `filter_contenders_append`: a form behind a catalog leaves the others in
  their order.
-/

namespace SharpFront

/-! ## Entries -/

/-- An entry without a slot is no one's predecessor. -/
theorem waits_cons_of_noSlot {first : Form × Nat} (noSlot : first.1.slot? = none)
    (entries : List (Form × Nat)) : waits (first :: entries) = waits entries := by
  have skipped : first? (first :: entries) = first? entries := by
    funext slot
    rw [first?, List.find?_cons_of_neg (by simp [noSlot])]
    rfl
  funext entry
  simp only [waits, isFirst, skipped]

/-- The entry one place further on. -/
def later (entry : Form × Nat) : Form × Nat := (entry.1, entry.2 + 1)

theorem first?_map_later (entries : List (Form × Nat)) (slot : Int × Char) :
    first? (entries.map later) slot = (first? entries slot).map later := by
  rw [first?, List.find?_map]
  rfl

theorem waits_map_later (entries : List (Form × Nat)) (entry : Form × Nat) :
    waits (entries.map later) (later entry) = waits entries entry := by
  have isLater (first : Form × Nat) : ((later first).2 == (later entry).2) = (first.2 == entry.2) := by
    rw [Bool.eq_iff_iff, beq_iff_eq, beq_iff_eq, later, later, Nat.add_right_cancel_iff]
  unfold waits isFirst
  congr 2
  show (entry.1.slot?.any fun slot => (first? (entries.map later) slot).any _) = _
  cases entry.1.slot? with
  | none => rfl
  | some slot =>
    rw [Option.any_some, Option.any_some, first?_map_later, Option.any_map]
    cases first? entries slot with
    | none => rfl
    | some first => exact isLater first

namespace Catalog

variable {catalog : List Form} {form : Form}

/-! ## Blanks in front -/

theorem sighted_of_notMem (h : .whitespace ∉ catalog) : sighted catalog = [] := by
  rw [Tiers.sighted_eq_filter, List.filter_eq_nil_iff]
  intro form inCatalog sees
  exact h (Form.eq_whitespace_of_seesBlanks sees ▸ inCatalog)

theorem sighted_whitespace (h : .whitespace ∉ catalog) :
    sighted (.whitespace :: catalog) = [.whitespace] := by
  rw [Tiers.sighted_eq_filter, List.filter_cons_of_pos rfl, ← Tiers.sighted_eq_filter,
    sighted_of_notMem h]

theorem waiting_whitespace (catalog : List Form) :
    waiting (.whitespace :: catalog) = waiting catalog := by
  have shifted : catalog.zipIdx 1 = catalog.zipIdx.map later := List.zipIdx_succ
  rw [waiting, List.zipIdx_cons, waits_cons_of_noSlot rfl, shifted,
    List.filter_cons_of_neg Bool.false_ne_true, List.filter_map, List.map_map]
  exact congrArg (List.map _) (List.filter_congr fun entry _ => waits_map_later _ entry)

theorem first?_whitespace (catalog : List Form) (slot : Int × Char) :
    (first? (.whitespace :: catalog).zipIdx slot).map (·.1) =
      (first? catalog.zipIdx slot).map (·.1) := by
  have shifted : catalog.zipIdx 1 = catalog.zipIdx.map later := List.zipIdx_succ
  rw [List.zipIdx_cons, first?, List.find?_cons_of_neg (by simp [Form.slot?, Form.trigger]),
    ← first?, shifted, first?_map_later, Option.map_map]
  rfl

/-- Blanks in front of a catalog ask for no slot and leave all other forms in their order. -/
theorem contenders_whitespace (catalog : List Form) (c : Option Char) :
    contenders (.whitespace :: catalog) c = contenders catalog c := by
  rw [contenders, contenders, waiting_whitespace]
  congr 2
  funext d
  rw [holders, holders]
  congr 1
  funext p
  exact first?_whitespace catalog (p, d)

/-! ## A form behind a catalog -/

variable {keeps : Form → Bool}

theorem filter_sighted_append (dropped : keeps form = false) (catalog : List Form) :
    (sighted (catalog ++ [form])).filter keeps = (sighted catalog).filter keeps := by
  rw [Tiers.sighted_eq_filter, Tiers.sighted_eq_filter, List.filter_append, List.filter_append]
  have gone : ([form].filter (·.seesBlanks)).filter keeps = [] := by
    rw [List.filter_comm, List.filter_singleton, dropped]
    rfl
  rw [gone, List.append_nil]

/-- The priorities of a catalog are the only ones that its slots have. -/
theorem filterMap_first? {priorities' : List Int} (falling : priorities'.Pairwise (· > ·))
    (all : ∀ p ∈ priorities catalog, p ∈ priorities') (c : Char) :
    (priorities'.filterMap fun p => (first? catalog.zipIdx (p, c)).map (·.1)) =
      holders catalog c := by
  have known : priorities'.filter (· ∈ priorities catalog) = priorities catalog := by
    refine (falling.filter _).eq_of_mem_iff (Tiers.pairwise_priorities catalog) ?_
    intro p
    rw [List.mem_filter, decide_eq_true_iff]
    exact and_iff_right_of_imp (all p)
  rw [holders, ← known, List.filterMap_filter]
  refine List.filterMap_congr fun p _ => ?_
  split
  · rfl
  · next unknown =>
    rw [Option.map_eq_none_iff, first?_eq_none_iff]
    intro entry isEntry asks
    have inCatalog : entry.1 ∈ catalog := List.fst_mem_of_mem_zipIdx isEntry
    exact unknown (decide_eq_true (Tiers.mem_priorities_iff.mpr ⟨entry.1, inCatalog, c, asks⟩))

theorem filter_holders_append (dropped : keeps form = false) (catalog : List Form) (c : Char) :
    (holders (catalog ++ [form]) c).filter keeps = (holders catalog c).filter keeps := by
  have all : ∀ p ∈ priorities catalog, p ∈ priorities (catalog ++ [form]) := by
    intro p isPriority
    obtain ⟨other, inCatalog, asks⟩ := Tiers.mem_priorities_iff.mp isPriority
    exact Tiers.mem_priorities_iff.mpr ⟨other, List.mem_append_left _ inCatalog, asks⟩
  rw [← filterMap_first? (Tiers.pairwise_priorities (catalog ++ [form])) all c, holders,
    List.filter_filterMap, List.filter_filterMap]
  refine List.filterMap_congr fun p _ => ?_
  rw [List.zipIdx_append, List.zipIdx_singleton, first?_append, first?_singleton]
  cases first? catalog.zipIdx (p, c) with
  | some first => rfl
  | none =>
    split <;> simp [dropped]

theorem filter_waiting_append (dropped : keeps form = false) (catalog : List Form) :
    (waiting (catalog ++ [form])).filter keeps = (waiting catalog).filter keeps := by
  rw [waiting, waiting, List.zipIdx_append, List.zipIdx_singleton, Tiers.filter_waits_concat,
    List.map_append, List.filter_append]
  have gone : ((if waits (catalog.zipIdx ++ [(form, 0 + catalog.length)])
      (form, 0 + catalog.length) then [(form, 0 + catalog.length)] else []).map (·.1)).filter
        keeps = [] := by
    split <;> simp [dropped]
  rw [gone, List.append_nil]

/-- A form that is added behind a catalog leaves the others in the order in which they are tried. -/
theorem filter_contenders_append (dropped : keeps form = false) (catalog : List Form)
    (c : Option Char) :
    (contenders (catalog ++ [form]) c).filter keeps = (contenders catalog c).filter keeps := by
  rw [contenders, contenders, List.filter_append, List.filter_append,
    filter_waiting_append dropped]
  cases c with
  | none => rfl
  | some c => exact congrArg (· ++ _) (filter_holders_append dropped catalog c)

end Catalog

end SharpFront
