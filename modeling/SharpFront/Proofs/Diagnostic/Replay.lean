import Mathlib.Data.List.Induction
import Mathlib.Logic.Function.Basic
import SharpFront.Diagnostic.Policy

/-!
# Policies as switches

A policy looks for its last entry that is about a diagnostic. Where the entries were made line by
line, that comes to the same as a board with a switch for every code, which the entries set one
after the other.

* `PolicyEntry.Reaches`: an entry is about a line and some codes;
* `level_dropped`, `level_restored`: the entries that make no difference, and the ones that make
  all those before them make none;
* `Switchboard.replay`: the board after a line;
* `foldl_set`, `replay_eq_foldl`: the last entry about a code is what its switch says;
* `level_ofCalls`: what the level of a policy is, whatever its base sets and its entries.
-/

namespace SharpFront

/-- The entry is about a diagnostic at the line that answers to the codes. -/
def PolicyEntry.Reaches (e : PolicyEntry) (line : Nat) (codes : List Nat) : Prop :=
  e.fromLine ≤ line ∧ ∀ code ∈ e.code?, code ∈ codes

theorem PolicyEntry.covers_iff {e : PolicyEntry} {line : Nat} {codes : List Nat} :
    e.covers line codes = true ↔ e.Reaches line codes := by
  unfold covers Reaches
  cases e.code? <;> simp

instance (e : PolicyEntry) (line : Nat) (codes : List Nat) : Decidable (e.Reaches line codes) :=
  decidable_of_iff (e.covers line codes = true) PolicyEntry.covers_iff

theorem PolicyEntry.not_reaches_iff {e : PolicyEntry} {line : Nat} {codes : List Nat} :
    ¬e.Reaches line codes ↔ line < e.fromLine ∨ ∃ code ∈ e.code?, code ∉ codes := by
  unfold Reaches
  cases e.code? with
  | none => simp
  | some code => simp [imp_iff_not_or]

namespace WarningPolicy

/-- The policy with two base sets to which entries were appended, one after the other. -/
def ofCalls (disabled asErrors : CodeSet) (calls : List PolicyEntry) : WarningPolicy :=
  calls.foldl (fun p e => p.apply e.fromLine e.code? e.action) { disabled, asErrors }

variable {disabled asErrors : CodeSet} {before after calls : List PolicyEntry} {e : PolicyEntry}
  {line code : Nat} {codes : List Nat}

theorem foldl_apply (p : WarningPolicy) (calls : List PolicyEntry) :
    calls.foldl (fun p e => p.apply e.fromLine e.code? e.action) p =
      { p with entries := p.entries ++ calls } := by
  induction calls generalizing p with
  | nil => rw [List.append_nil]; rfl
  | cons e calls ih => rw [List.foldl_cons, ih, apply, List.append_assoc]; rfl

theorem ofCalls_eq (disabled asErrors : CodeSet) (calls : List PolicyEntry) :
    ofCalls disabled asErrors calls = { disabled, asErrors, entries := calls } :=
  foldl_apply _ calls

/-- The last call that is about a diagnostic. -/
def lastCall? (calls : List PolicyEntry) (line : Nat) (codes : List Nat) : Option PolicyEntry :=
  calls.reverse.find? (·.covers line codes)

theorem lastCall?_append (before after : List PolicyEntry) (line : Nat) (codes : List Nat) :
    lastCall? (before ++ after) line codes =
      (lastCall? after line codes).or (lastCall? before line codes) := by
  rw [lastCall?, List.reverse_append, List.find?_append]
  rfl

theorem lastCall?_singleton_of_not_reaches (h : ¬e.Reaches line codes) :
    lastCall? [e] line codes = none :=
  List.find?_cons_of_neg (mt PolicyEntry.covers_iff.mp h)

theorem lastCall?_singleton_of_reaches (h : e.Reaches line codes) :
    lastCall? [e] line codes = some e :=
  List.find?_cons_of_pos (PolicyEntry.covers_iff.mpr h)

theorem lastCall?_eq_none (h : ∀ e ∈ calls, ¬e.Reaches line codes) :
    lastCall? calls line codes = none := by
  apply List.find?_eq_none.mpr
  intro e isCall covers
  exact h e (List.mem_reverse.mp isCall) (PolicyEntry.covers_iff.mp covers)

/-- What the last call about a diagnostic says of its level. -/
theorem level_eq (disabled asErrors : CodeSet) (calls : List PolicyEntry) (line : Nat)
    (codes : List Nat) :
    (ofCalls disabled asErrors calls).level line codes =
      if (lastCall? calls line codes).any (·.action = .disable) then .disabled
      else (ofCalls disabled asErrors calls).baseLevel codes := by
  rw [ofCalls_eq, level, lastCall?]
  dsimp only
  generalize calls.reverse.find? (·.covers line codes) = last
  rcases last with _ | ⟨_, _, _ | _⟩ <;> rfl

theorem baseLevel_ofCalls (disabled asErrors : CodeSet) (calls : List PolicyEntry)
    (codes : List Nat) :
    (ofCalls disabled asErrors calls).baseLevel codes =
      baseLevel { disabled, asErrors } codes := by
  rw [ofCalls_eq]
  rfl

/-- An entry that is not about a diagnostic makes no difference to its level, wherever it was
made. -/
theorem level_dropped (h : ¬e.Reaches line codes) :
    (ofCalls disabled asErrors (before ++ e :: after)).level line codes =
      (ofCalls disabled asErrors (before ++ after)).level line codes := by
  have skips : lastCall? (e :: after) line codes = lastCall? after line codes := by
    rw [← List.singleton_append, lastCall?_append, lastCall?_singleton_of_not_reaches h,
      Option.or_none]
  rw [level_eq, level_eq, baseLevel_ofCalls, baseLevel_ofCalls, lastCall?_append, skips,
    ← lastCall?_append]

/-- After the last entry about a diagnostic has restored it, what came before does not count. -/
theorem level_restored (reaches : e.Reaches line codes) (restores : e.action = .restore)
    (isLast : ∀ later ∈ after, ¬later.Reaches line codes) :
    (ofCalls disabled asErrors (before ++ e :: after)).level line codes =
      baseLevel { disabled, asErrors } codes := by
  have found : lastCall? (before ++ e :: after) line codes = some e := by
    rw [← List.singleton_append, lastCall?_append, lastCall?_append, lastCall?_eq_none isLast,
      lastCall?_singleton_of_reaches reaches]
    rfl
  rw [level_eq, baseLevel_ofCalls, found, Option.any_some, restores]
  rfl

end WarningPolicy

/-! ## Switches -/

/-- What entries have made of a code: it is off, or at its base level. -/
inductive Switch where
  | off
  | base
  deriving DecidableEq, Repr

def WarningAction.switch : WarningAction → Switch
  | disable => .off
  | restore => .base

/-- The level that a switch leaves a code at, given its base level. -/
def Switch.level (base : WarningLevel) : Switch → WarningLevel
  | off => .disabled
  | .base => base

/-- A switch for every code. -/
abbrev Switchboard := Nat → Switch

namespace Switchboard

/-- An entry without a code sets every switch at once. -/
def set (b : Switchboard) (e : PolicyEntry) : Switchboard :=
  match e.code? with
  | none => fun _ => e.action.switch
  | some code => Function.update b code e.action.switch

/-- Carries out the entries of one line, in the order in which they were made. -/
def setLine (entries : List PolicyEntry) (b : Switchboard) (line : Nat) : Switchboard :=
  (entries.filter (·.fromLine == line)).foldl set b

/-- The board after a line, where all switches start at the base level. -/
def replay (entries : List PolicyEntry) (line : Nat) : Switchboard :=
  (List.range (line + 1)).foldl (setLine entries) fun _ => .base

variable {entries : List PolicyEntry} {line code : Nat}

/-- An entry sets the switch of a code when it names the code or none. -/
theorem set_apply (b : Switchboard) (e : PolicyEntry) (code : Nat) :
    b.set e code = if ∀ named ∈ e.code?, named = code then e.action.switch else b code := by
  unfold set
  cases e.code? with
  | none => simp
  | some named => simp [Function.update_apply, eq_comm]

/-- The last entry about a code is what its switch says. The induction is on the entries from the
last one back. -/
theorem foldl_set (b : Switchboard) (inForce : ∀ e ∈ entries, e.fromLine ≤ line) (code : Nat) :
    entries.foldl set b code =
      ((WarningPolicy.lastCall? entries line [code]).map (·.action.switch)).getD (b code) := by
  induction entries using List.reverseRecOn with
  | nil => rfl
  | append_singleton entries e ih =>
    obtain ⟨earlier, here⟩ := List.forall_mem_append.mp inForce
    have fromLine : e.fromLine ≤ line := here e List.mem_cons_self
    rw [List.foldl_append, List.foldl_cons, List.foldl_nil, set_apply, ih earlier,
      WarningPolicy.lastCall?_append]
    by_cases about : ∀ named ∈ e.code?, named = code
    · have reaches : e.Reaches line [code] :=
        ⟨fromLine, fun named isNamed => List.mem_singleton.mpr (about named isNamed)⟩
      rw [if_pos about, WarningPolicy.lastCall?_singleton_of_reaches reaches]
      rfl
    · have notReaches : ¬e.Reaches line [code] := by
        rintro ⟨-, reached⟩
        apply about
        intro named isNamed
        exact List.mem_singleton.mp (reached named isNamed)
      rw [if_neg about, WarningPolicy.lastCall?_singleton_of_not_reaches notReaches]
      rfl

/-- Entries that were made line by line are divided by each line. -/
theorem filter_le_succ (inOrder : entries.Pairwise fun a b => a.fromLine ≤ b.fromLine)
    (line : Nat) :
    entries.filter (·.fromLine ≤ line + 1) =
      entries.filter (·.fromLine ≤ line) ++ entries.filter (·.fromLine == line + 1) := by
  induction entries with
  | nil => rfl
  | cons e entries ih =>
    obtain ⟨fromHere, inOrder⟩ := List.pairwise_cons.mp inOrder
    by_cases isEarlier : e.fromLine ≤ line
    · have upTo : e.fromLine ≤ line + 1 := by omega
      have notNext : e.fromLine ≠ line + 1 := by omega
      simp [isEarlier, upTo, notNext, ih inOrder]
    · have noneEarlier : (e :: entries).filter (·.fromLine ≤ line) = [] := by
        apply List.filter_eq_nil_iff.mpr
        intro f isEntry
        rw [decide_eq_true_eq]
        rcases List.mem_cons.mp isEntry with rfl | isLater
        · exact isEarlier
        · have := fromHere f isLater
          omega
      rw [noneEarlier, List.nil_append]
      apply List.filter_congr
      intro f isEntry
      have notEarlier := List.filter_eq_nil_iff.mp noneEarlier f isEntry
      rw [decide_eq_true_eq] at notEarlier
      rw [Bool.eq_iff_iff, decide_eq_true_eq, beq_iff_eq]
      omega

/-- Line by line, all entries up to a line are carried out in the order in which they were made. -/
theorem replay_eq_foldl (inOrder : entries.Pairwise fun a b => a.fromLine ≤ b.fromLine)
    (line : Nat) :
    replay entries line = (entries.filter (·.fromLine ≤ line)).foldl set fun _ => .base := by
  induction line with
  | zero =>
    have same : entries.filter (·.fromLine == 0) = entries.filter (·.fromLine ≤ 0) := by
      apply List.filter_congr
      intro e _
      rw [Bool.eq_iff_iff, decide_eq_true_eq, beq_iff_eq]
      omega
    exact congrArg (List.foldl set fun _ => .base) same
  | succ line ih =>
    rw [replay] at ih ⊢
    rw [List.range_succ, List.foldl_append, ih, filter_le_succ inOrder, List.foldl_append]
    rfl

end Switchboard

namespace WarningPolicy

variable {disabled asErrors : CodeSet} {calls : List PolicyEntry} {line code : Nat}

/-- Entries from later lines are not about a line. -/
theorem lastCall?_filter (calls : List PolicyEntry) (line : Nat) (codes : List Nat) :
    lastCall? (calls.filter (·.fromLine ≤ line)) line codes = lastCall? calls line codes := by
  rw [lastCall?, lastCall?, ← List.filter_reverse, List.find?_filter]
  congr 1
  funext e
  by_cases fromLine : e.fromLine ≤ line <;> simp [PolicyEntry.covers, fromLine]

/-- The level of a code is what its switch says. -/
theorem level_eq_replay (inOrder : calls.Pairwise fun a b => a.fromLine ≤ b.fromLine) :
    (ofCalls disabled asErrors calls).level line [code] =
      (Switchboard.replay calls line code).level (baseLevel { disabled, asErrors } [code]) := by
  have inForce : ∀ e ∈ calls.filter (·.fromLine ≤ line), e.fromLine ≤ line := by
    intro e isEntry
    exact of_decide_eq_true (List.mem_filter.mp isEntry).2
  rw [Switchboard.replay_eq_foldl inOrder, Switchboard.foldl_set _ inForce, lastCall?_filter,
    level_eq, baseLevel_ofCalls]
  rcases lastCall? calls line [code] with _ | ⟨_, _, _ | _⟩ <;> rfl

/-- **What decides the level of a warning.** An entry from a later line, or about a code that the
warning does not answer to, makes no difference. Once the last entry about the warning restores it,
it is at its base level, whatever the entries before. And where the entries were made line by line,
the level of a code is what comes of setting a switch for every code, entry by entry, up to and
including the line. -/
theorem level_ofCalls (disabled asErrors : CodeSet) :
    (∀ before e after line codes, (line < e.fromLine ∨ ∃ code ∈ e.code?, code ∉ codes) →
      (ofCalls disabled asErrors (before ++ e :: after)).level line codes =
        (ofCalls disabled asErrors (before ++ after)).level line codes) ∧
    (∀ before e after line codes, e.action = .restore → e.Reaches line codes →
      (∀ later ∈ after, ¬later.Reaches line codes) →
      (ofCalls disabled asErrors (before ++ e :: after)).level line codes =
        baseLevel { disabled, asErrors } codes) ∧
    ∀ calls : List PolicyEntry, (calls.Pairwise fun a b => a.fromLine ≤ b.fromLine) →
      ∀ line code, (ofCalls disabled asErrors calls).level line [code] =
        (Switchboard.replay calls line code).level
          (baseLevel { disabled, asErrors } [code]) := by
  refine ⟨?other, ?restored, ?replay⟩
  case other =>
    intro before e after line codes other
    exact level_dropped (PolicyEntry.not_reaches_iff.mpr other)
  case restored =>
    intro before e after line codes restores reaches isLast
    exact level_restored reaches restores isLast
  case replay =>
    intro calls inOrder line code
    exact level_eq_replay inOrder

/-- A warning that counts as an error is off from the line on where all are, and counts as an error
again from the line on where its code is restored. -/
theorem level_ofCalls_restored :
    let off : PolicyEntry := ⟨2, none, .disable⟩
    let back : PolicyEntry := ⟨4, some 1030, .restore⟩
    let other : PolicyEntry := ⟨6, some 1692, .disable⟩
    (1692 ∉ [1030, 1029] ∧ (ofCalls ∅ {1030} [off, back, other]).level 8 [1030, 1029] =
      (ofCalls ∅ {1030} [off, back]).level 8 [1030, 1029]) ∧
    (back.Reaches 8 [1030, 1029] ∧ ¬other.Reaches 8 [1030, 1029] ∧
      (ofCalls ∅ {1030} [off, back, other]).level 8 [1030, 1029] = .error) ∧
    ([off, back, other].Pairwise (fun a b => a.fromLine ≤ b.fromLine) ∧
      (ofCalls ∅ {1030} [off, back, other]).level 8 [1030] = .error ∧
      (ofCalls ∅ {1030} [off, back, other]).level 8 [1633] = .disabled) := by
  intro off back other
  obtain ⟨dropped, restored, replay⟩ := level_ofCalls ∅ {1030}
  have reaches : back.Reaches 8 [1030, 1029] := by decide
  have notReaches : ¬other.Reaches 8 [1030, 1029] := by decide
  have inOrder : [off, back, other].Pairwise (fun a b => a.fromLine ≤ b.fromLine) := by decide
  refine ⟨⟨by decide, ?_⟩, ⟨reaches, notReaches, ?_⟩, inOrder, ?_, ?_⟩
  · exact dropped [off, back] other [] 8 [1030, 1029] (.inr ⟨1692, rfl, by decide⟩)
  · exact restored [off] back [other] 8 [1030, 1029] rfl reaches
      (List.forall_mem_singleton.mpr notReaches)
  · exact replay [off, back, other] inOrder 8 1030
  · exact replay [off, back, other] inOrder 8 1633

end WarningPolicy

end SharpFront
