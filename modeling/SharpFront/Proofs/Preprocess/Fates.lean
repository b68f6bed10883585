import SharpFront.Output
import SharpFront.Proofs.Preprocess.Journal

/-!
# The fates of warnings

A warning is suppressed, kept or made an error by the policy at the moment when it is reported, and
directives go on to add to the policy. They add to it line by line, so the policy at the end gives
the same answer.

* `reports_areAbout`: a directive line reports its own tokens, and only what directives report;
* `unitJournal_settled`: the lines of a journal do not go back, and no entry follows a warning about
  its line;
* `level_extend`: entries about later lines change no level;
* `report_eq_resolve`: the fate of every warning by the policy at the end.
-/

namespace SharpFront

open Condition (PointsInto pointsInto_report pointsInto_reportAfter)

/-! ## What reports are about -/

/-- What the directives report, as opposed to their place on the line and to the end of the unit. -/
def DiagnosticKind.isOfDirective : DiagnosticKind → Bool
  | directiveExpected | endOfLineExpected | unexpectedDirective | identifierExpected
  | invalidExpression | userError _ | userWarning _ | unrecognizedPragma
  | expectedDisableOrRestore | invalidNumber | endOfLineExpectedWarning => true
  | _ => false

/-- Every one of the reports is one that a directive makes, about one of the tokens. -/
def AreAbout (tokens : List PositionedToken) (rs : List Report) : Prop :=
  ∀ r ∈ rs, PointsInto tokens r ∧ r.kind.isOfDirective = true

namespace AreAbout

variable {tokens : List PositionedToken} {t : PositionedToken} {kind : DiagnosticKind}
  {a b : List Report}

theorem nil : AreAbout tokens [] := by
  intro r isReport
  cases isReport

theorem report (h : t ∈ tokens) (ofDirective : kind.isOfDirective = true) :
    AreAbout tokens [t.report kind] := by
  intro r isReport
  rw [List.mem_singleton.mp isReport]
  exact ⟨pointsInto_report h kind, ofDirective⟩

theorem reportAfter (h : t ∈ tokens) (isWord : t.token.directive?.isSome = true)
    (ofDirective : kind.isOfDirective = true) : AreAbout tokens [t.reportAfter kind] := by
  have expects : t.token.expectsMore = true := by rw [Token.expectsMore, isWord, Bool.true_or]
  intro r isReport
  rw [List.mem_singleton.mp isReport]
  exact ⟨pointsInto_reportAfter h expects kind, ofDirective⟩

theorem append (ha : AreAbout tokens a) (hb : AreAbout tokens b) : AreAbout tokens (a ++ b) := by
  intro r isReport
  rcases List.mem_append.mp isReport with isReport | isReport
  · exact ha r isReport
  · exact hb r isReport

theorem ite {c : Prop} [Decidable c] (ha : AreAbout tokens a) (hb : AreAbout tokens b) :
    AreAbout tokens (if c then a else b) := by
  split
  · exact ha
  · exact hb

/-- About a token that may be missing. -/
theorem toList {t? : Option PositionedToken} (h : ∀ t ∈ t?, t ∈ tokens)
    (ofDirective : kind.isOfDirective = true) :
    AreAbout tokens (t?.toList.map (·.report kind)) := by
  cases t? with
  | none => exact nil
  | some t => exact report (h t rfl) ofDirective

theorem mono {more : List PositionedToken} (h : AreAbout tokens a) (sub : tokens ⊆ more) :
    AreAbout more a := by
  intro r isReport
  obtain ⟨about, ofDirective⟩ := h r isReport
  exact ⟨about.mono sub, ofDirective⟩

theorem line_eq {line : Nat} (h : AreAbout tokens a) (onLine : ∀ t ∈ tokens, t.line = line) :
    ∀ r ∈ a, r.line = line := by
  intro r isReport
  obtain ⟨⟨t, isToken, kind, rfl | ⟨-, rfl⟩⟩, -⟩ := h r isReport
  · exact onLine t isToken
  · exact onLine t isToken

end AreAbout

namespace DirectiveLine

theorem excess_areAbout (tokens : List PositionedToken) (n : Nat) :
    AreAbout tokens (excess tokens n) :=
  .toList (fun _ isThere => List.mem_of_getElem? isThere) rfl

theorem leftover_areAbout (tokens : List PositionedToken) : AreAbout tokens (leftover tokens) :=
  .toList (fun _ isFirst => List.mem_of_mem_head? isFirst) rfl

theorem conditionReports_areAbout {d : DirectiveLine}
    (isWord : d.word.token.directive?.isSome = true) (symbols : SymbolSet) :
    AreAbout (d.word :: d.operands) (d.conditionReports symbols) := by
  have expects : d.word.token.expectsMore = true := by
    rw [Token.expectsMore, isWord, Bool.true_or]
  intro r isReport
  constructor
  · rcases Condition.evaluate_pointsInto _ _ _ r isReport with rfl | inside
    · exact pointsInto_reportAfter List.mem_cons_self expects _
    · exact inside.mono (List.subset_cons_self _ _)
  rcases Condition.evaluate_isMalformation _ _ _ r isReport with kind | kind
  · rw [kind]
    rfl
  · rw [kind]
    rfl

theorem symbolReports_areAbout {d : DirectiveLine}
    (isWord : d.word.token.directive?.isSome = true) :
    AreAbout (d.word :: d.operands) d.symbolReports := by
  unfold symbolReports
  split
  · exact .reportAfter List.mem_cons_self isWord rfl
  · next operand more operands =>
    have isOperand : operand ∈ d.operands := by simp [operands]
    exact ((excess_areAbout d.operands 1).ite (.report isOperand rfl)).mono
      (List.subset_cons_self _ _)

theorem fileReports_areAbout (tokens : List PositionedToken) :
    AreAbout tokens (fileReports tokens) := by
  unfold fileReports
  split
  · exact .nil
  · next file more =>
    split
    · exact (leftover_areAbout more).mono (List.subset_cons_self _ _)
    · exact (leftover_areAbout more).mono (List.subset_cons_self _ _)
    · exact .report List.mem_cons_self rfl

theorem lineReports_areAbout {d : DirectiveLine}
    (isWord : d.word.token.directive?.isSome = true) :
    AreAbout (d.word :: d.operands) d.lineReports := by
  unfold lineReports
  split
  · exact .reportAfter List.mem_cons_self isWord rfl
  · next argument more operands =>
    have rest : more ⊆ d.word :: d.operands := by
      intro t isRest
      simp [operands, isRest]
    have isOperand : argument ∈ d.word :: d.operands := by simp [operands]
    split
    · exact (leftover_areAbout more).mono rest
    · exact (leftover_areAbout more).mono rest
    · exact ((fileReports_areAbout more).mono rest).ite (.report isOperand rfl)

end DirectiveLine

open DirectiveLine

/-- A directive line reports its own tokens, or what is missing after one. -/
theorem Standing.reports_areAbout (s : Standing) (d : DirectiveLine) :
    AreAbout (d.word :: d.operands) (s.reports d) := by
  have word {kind : DiagnosticKind} (ofDirective : kind.isOfDirective = true) :
      AreAbout (d.word :: d.operands) [d.word.report kind] :=
    .report List.mem_cons_self ofDirective
  have excess : AreAbout (d.word :: d.operands) (excess d.operands 0) :=
    (excess_areAbout d.operands 0).mono (List.subset_cons_self _ _)
  have isWord {w : Directive} (names : d.word.token.directive? = some w) :
      d.word.token.directive?.isSome = true := by
    rw [names]
    rfl
  unfold reports
  split
  · next names => exact conditionReports_areAbout (isWord names) _
  · next names => exact (conditionReports_areAbout (isWord names) _).append (.ite .nil (word rfl))
  · exact excess.append (.ite .nil (word rfl))
  · exact excess.append (.ite (word rfl) .nil)
  · next names => exact symbolReports_areAbout (isWord names)
  · next names => exact symbolReports_areAbout (isWord names)
  · next names => exact (lineReports_areAbout (isWord names)).ite .nil
  · exact (word rfl).ite .nil
  · exact (word rfl).ite .nil
  · exact (word rfl).ite .nil
  · exact .nil
  · exact .nil
  · exact .nil
  · exact word rfl
  · exact word rfl
  · exact word rfl
  · exact word rfl

/-! ## The lines of a journal -/

/-- What one directive line has to say: it stays on the line, and adds no entry after a warning. -/
structure StaysOn (line : Nat) (events : List Event) : Prop where
  line_eq : ∀ e ∈ events, e.line = line
  apart : events.Pairwise fun a b => a.IsWarning → ¬b.IsEntry

namespace StaysOn

variable {line : Nat} {events : List Event}

theorem nil : StaysOn line [] where
  line_eq := by
    intro e isEvent
    cases isEvent
  apart := .nil

theorem cons {e : Event} (here : e.line = line) (notWarning : ¬e.IsWarning)
    (h : StaysOn line events) : StaysOn line (e :: events) where
  line_eq := by
    intro e isEvent
    rcases List.mem_cons.mp isEvent with rfl | isLater
    · exact here
    · exact h.line_eq e isLater
  apart := List.pairwise_cons.mpr ⟨fun _ _ isWarning => absurd isWarning notWarning, h.apart⟩

theorem settled (h : StaysOn line events) : events.Pairwise Event.Settles := by
  refine h.apart.imp_of_mem ?_
  intro a b isFirst isSecond apart
  have first := h.line_eq a isFirst
  have second := h.line_eq b isSecond
  constructor
  · omega
  · intro isWarning isEntry
    exact absurd isEntry (apart isWarning)

end StaysOn

/-- Whatever is reported is something that directives report. -/
def Event.IsOfDirective : Event → Prop
  | .report r => r.kind.isOfDirective = true
  | _ => True

/-- What the body of a directive line has to say stays on the line, and is of directives. -/
structure SaidOn (line : Nat) (events : List Event) : Prop extends StaysOn line events where
  ofDirective : ∀ e ∈ events, e.IsOfDirective

namespace SaidOn

variable {line : Nat} {events : List Event}

theorem nil : SaidOn line [] where
  toStaysOn := .nil
  ofDirective := List.forall_mem_nil _

theorem cons {e : Event} (here : e.line = line) (notWarning : ¬e.IsWarning)
    (ofDirective : e.IsOfDirective) (h : SaidOn line events) : SaidOn line (e :: events) where
  toStaysOn := h.toStaysOn.cons here notWarning
  ofDirective := List.forall_mem_cons.mpr ⟨ofDirective, h.ofDirective⟩

theorem single {e : Event} (here : e.line = line) (ofDirective : e.IsOfDirective) :
    SaidOn line [e] where
  line_eq := List.forall_mem_singleton.mpr here
  apart := List.pairwise_singleton _ e
  ofDirective := List.forall_mem_singleton.mpr ofDirective

theorem ofReports {tokens : List PositionedToken} {rs : List Report} (h : AreAbout tokens rs)
    (here : ∀ t ∈ tokens, t.line = line) : SaidOn line (rs.map .report) where
  line_eq := List.forall_mem_map.mpr (h.line_eq here)
  apart := List.pairwise_map.mpr (List.pairwise_of_forall fun _ _ _ isEntry => isEntry)
  ofDirective := List.forall_mem_map.mpr fun r isReport => (h r isReport).2

end SaidOn

theorem codeEvents_saidOn (line : Nat) (action : WarningAction) :
    ∀ codes : List PositionedToken, (∀ t ∈ codes, t.line = line) →
      SaidOn line (codeEvents line action codes)
  | [], _ => .nil
  | [item], here => by
    simp only [codeEvents]
    cases item.token.plainNumber? with
    | none => exact .single (here item List.mem_cons_self) trivial
    | some code => exact .single rfl trivial
  | item :: separator :: rest, here => by
    have later := codeEvents_saidOn line action rest fun t isLater =>
      here t (List.mem_cons_of_mem _ (List.mem_cons_of_mem _ isLater))
    have stop : SaidOn line [.report (separator.report .endOfLineExpectedWarning)] :=
      .single (here separator (List.mem_cons_of_mem _ List.mem_cons_self)) rfl
    have more : SaidOn line (if separator.token.isOperator .comma then
        codeEvents line action rest
        else [.report (separator.report .endOfLineExpectedWarning)]) := by
      split
      · exact later
      · exact stop
    simp only [codeEvents]
    cases item.token.plainNumber? with
    | none => exact more.cons (here item List.mem_cons_self) id trivial
    | some code => exact more.cons rfl id trivial

theorem pragmaEvents_saidOn {d : DirectiveLine} {line : Nat} (word : d.word.line = line)
    (here : ∀ t ∈ d.operands, t.line = line) : SaidOn line d.pragmaEvents := by
  unfold pragmaEvents
  split
  · exact .single word rfl
  · next kind rest operands =>
    rw [operands] at here
    have first : kind.line = line := here kind List.mem_cons_self
    split
    · unfold policyEvents
      split
      · exact .single first rfl
      · next action codes =>
        have codesHere : ∀ t ∈ codes, t.line = d.word.line := by
          intro t isCode
          rw [word]
          exact here t (List.mem_cons_of_mem _ (List.mem_cons_of_mem _ isCode))
        split
        · split
          · exact .single word trivial
          · rw [← word]
            exact codeEvents_saidOn d.word.line _ codes codesHere
        · exact .single (here action (List.mem_cons_of_mem _ List.mem_cons_self)) rfl
    · exact .nil
    · exact .single first rfl

namespace Standing

theorem directiveEvents_saidOn (s : Standing) {d : DirectiveLine} {line : Nat}
    (here : ∀ t ∈ d.word :: d.operands, t.line = line) : SaidOn line (s.directiveEvents d) := by
  unfold directiveEvents
  split
  · split
    · exact pragmaEvents_saidOn (here d.word List.mem_cons_self) fun t isOperand =>
        here t (List.mem_cons_of_mem _ isOperand)
    · exact .nil
  · exact .ofReports (s.reports_areAbout d) here

theorem bodyEvents_saidOn (s : Standing) {hash : PositionedToken} {body : List PositionedToken}
    (here : ∀ t ∈ body, t.line = hash.line) : SaidOn hash.line (s.bodyEvents hash body) := by
  cases body with
  | nil => exact .single rfl rfl
  | cons word operands => exact s.directiveEvents_saidOn here

theorem events_staysOn (s : Standing) {item : SourceItem} (h : item.IsWhole) :
    StaysOn item.line (s.events item) := by
  cases item with
  | token t => exact .nil
  | directive hash leads body =>
    have rest := (s.bodyEvents_saidOn h.2).toStaysOn
    cases leads with
    | true => exact rest
    | false => exact rest.cons rfl Severity.noConfusion

theorem isDirective_of_mem_events {s : Standing} {item : SourceItem} {e : Event}
    (h : e ∈ s.events item) : item.isDirective = true := by
  cases item with
  | token t => cases h
  | directive hash leads body => rfl

theorem line_of_mem_journal {items : List SourceItem} (whole : ∀ item ∈ items, item.IsWhole)
    (s : Standing) :
    ∀ e ∈ s.journal items, ∃ item ∈ items, item.isDirective = true ∧ e.line = item.line := by
  intro e isEvent
  obtain ⟨item, isItem, t, isHere⟩ := s.exists_of_mem_journal isEvent
  exact ⟨item, isItem, isDirective_of_mem_events isHere,
    (t.events_staysOn (whole item isItem)).line_eq e isHere⟩

/-- Neither what comes before a directive nor what comes after it has anything to say about its
line. -/
theorem line_ne_of_mem_journal {before after : List SourceItem} {item : SourceItem}
    (whole : ∀ other ∈ before ++ item :: after, other.IsWhole)
    (ordered : SourceItem.InOrder (before ++ item :: after))
    (isDirective : item.isDirective = true) (s : Standing) :
    (∀ e ∈ s.journal before, e.line ≠ item.line) ∧ ∀ e ∈ s.journal after, e.line ≠ item.line := by
  obtain ⟨wholeEarlier, wholeHere⟩ := List.forall_mem_append.mp whole
  obtain ⟨-, wholeLater⟩ := List.forall_mem_cons.mp wholeHere
  obtain ⟨-, fromHere, upToHere⟩ := List.pairwise_append.mp ordered
  constructor
  · intro e isEarlier
    obtain ⟨other, isItem, otherIs, same⟩ := line_of_mem_journal wholeEarlier s e isEarlier
    have := (upToHere other isItem item List.mem_cons_self).2 otherIs
    omega
  · intro e isLater
    obtain ⟨other, isItem, -, same⟩ := line_of_mem_journal wholeLater s e isLater
    have := ((List.pairwise_cons.mp fromHere).1 other isItem).2 isDirective
    omega

/-- What a journal says about the line of a directive is what the directive has to say. -/
theorem mem_journal_iff_of_line {before after : List SourceItem} {item : SourceItem}
    (whole : ∀ other ∈ before ++ item :: after, other.IsWhole)
    (ordered : SourceItem.InOrder (before ++ item :: after)) (isDirective : item.isDirective = true)
    (s : Standing) {e : Event} (onLine : e.line = item.line) :
    e ∈ s.journal (before ++ item :: after) ↔ e ∈ (s.steps before).1.events item := by
  have elsewhere := line_ne_of_mem_journal whole ordered isDirective
  have notEarlier : e ∉ s.journal before := fun isEarlier => (elsewhere s).1 e isEarlier onLine
  have notLater (s : Standing) : e ∉ s.journal after :=
    fun isLater => (elsewhere s).2 e isLater onLine
  simp only [journal_append, journal, List.mem_append, notEarlier, notLater, false_or, or_false]

/-- Later items stand on later lines than a directive, so they settle what it says. -/
theorem journal_settled {items : List SourceItem} (whole : ∀ item ∈ items, item.IsWhole)
    (ordered : SourceItem.InOrder items) (s : Standing) :
    (s.journal items).Pairwise Event.Settles := by
  induction items generalizing s with
  | nil => exact .nil
  | cons item items ih =>
    obtain ⟨first, ordered⟩ := List.pairwise_cons.mp ordered
    have wholeLater : ∀ item ∈ items, item.IsWhole :=
      fun item isItem => whole item (List.mem_cons_of_mem _ isItem)
    have here := s.events_staysOn (whole item List.mem_cons_self)
    refine List.pairwise_append.mpr ⟨here.settled, ih wholeLater ordered _, ?_⟩
    intro a isHere b isLater
    obtain ⟨other, isItem, -, same⟩ := line_of_mem_journal wholeLater _ b isLater
    have beyond := (first other isItem).2 (isDirective_of_mem_events isHere)
    refine Event.settles_of_lt ?_
    rw [here.line_eq a isHere, same]
    exact beyond

theorem exists_of_mem_closing {s : Standing} {input : List PositionedToken} {e : Event}
    (h : e ∈ s.closing input) :
    ∃ last, input.getLast? = some last ∧ e = .report (last.report .endifExpected) := by
  unfold closing at h
  split at h
  · cases h
  · obtain ⟨last, isLast, rfl⟩ := List.mem_map.mp h
    exact ⟨last, Option.mem_toList.mp isLast, rfl⟩

/-- The end of a unit adds nothing but its own report. -/
theorem mem_unitJournal_iff_mem_journal (s : Standing) (tokens : List PositionedToken) {r : Report}
    (notClosing : r.kind ≠ .endifExpected) :
    .report r ∈ s.unitJournal tokens ↔ .report r ∈ s.journal (SourceItem.ofTokens none tokens) := by
  have notThere (s : Standing) : .report r ∉ s.closing tokens := by
    intro isEvent
    obtain ⟨last, -, same⟩ := exists_of_mem_closing isEvent
    cases same
    exact notClosing rfl
  simp only [unitJournal, List.mem_append, notThere, or_false]

theorem closing_settled (s : Standing) (input : List PositionedToken) :
    (s.closing input).Pairwise Event.Settles := by
  unfold closing
  split
  · exact .nil
  · cases input.getLast? with
    | none => exact .nil
    | some last => exact List.pairwise_singleton _ _

/-- **The journal of a unit goes line by line**, and no entry follows a warning about its line. -/
theorem unitJournal_settled {tokens : List PositionedToken} (h : InLines tokens) (s : Standing) :
    (s.unitJournal tokens).Pairwise Event.Settles := by
  have whole : ∀ item ∈ SourceItem.ofTokens none tokens, item.IsWhole :=
    SourceItem.isWhole_of_mem_ofTokens
  have settled := s.journal_settled whole (SourceItem.ofTokens_inOrder h)
  refine List.pairwise_append.mpr ⟨settled, closing_settled _ tokens, ?_⟩
  intro a isEarlier b isClosing
  obtain ⟨item, isItem, -, same⟩ := line_of_mem_journal whole s a isEarlier
  obtain ⟨t, isToken, line⟩ := SourceItem.line_of_mem_ofTokens item isItem
  obtain ⟨last, isLast, rfl⟩ := exists_of_mem_closing isClosing
  constructor
  · rw [same, line]
    exact h.line_le_last isLast t isToken
  · intro _ isEntry
    cases isEntry

end Standing

/-! ## The policy in force and the policy at the end -/

/-- The entry that an event makes. -/
def Event.entry? : Event → Option PolicyEntry
  | entry e => some e
  | _ => none

theorem Event.eq_entry_of_entry? {event : Event} {e : PolicyEntry} (h : event.entry? = some e) :
    event = .entry e := by
  cases event with
  | entry f => exact congrArg Event.entry (Option.some.inj h)
  | report r => cases h
  | badCode item => cases h

namespace WarningPolicy

/-- The policy with further entries. -/
def extend (p : WarningPolicy) (entries : List PolicyEntry) : WarningPolicy :=
  { p with entries := p.entries ++ entries }

theorem extend_nil (p : WarningPolicy) : p.extend [] = p := by
  simp only [extend, List.append_nil]

theorem extend_extend (p : WarningPolicy) (a b : List PolicyEntry) :
    (p.extend a).extend b = p.extend (a ++ b) := by
  simp only [extend, List.append_assoc]

/-- Entries about later lines say nothing about a line. -/
theorem level_extend (p : WarningPolicy) {later : List PolicyEntry} {line : Nat}
    (h : ∀ e ∈ later, line < e.fromLine) (codes : List Nat) :
    (p.extend later).level line codes = p.level line codes := by
  have silent : later.reverse.find? (·.covers line codes) = none := by
    rw [List.find?_eq_none]
    intro e isLater covers
    have beyond := h e (List.mem_reverse.mp isLater)
    simp only [PolicyEntry.covers, Bool.and_eq_true, decide_eq_true_eq] at covers
    omega
  simp only [level, extend, List.reverse_append, List.find?_append, silent, Option.none_or]
  rfl

end WarningPolicy

namespace Diagnostics

theorem hear_policy (s : Diagnostics) (event : Event) :
    (s.hear event).policy = s.policy.extend event.entry?.toList := by
  cases event with
  | report r => rw [hear, report_policy]; exact (WarningPolicy.extend_nil _).symm
  | badCode item => rw [hear, report_policy]; exact (WarningPolicy.extend_nil _).symm
  | entry e => rfl

theorem hearAll_policy (s : Diagnostics) (events : List Event) :
    (s.hearAll events).policy = s.policy.extend (events.filterMap Event.entry?) := by
  induction events generalizing s with
  | nil => exact (WarningPolicy.extend_nil _).symm
  | cons event events ih =>
    rw [hearAll_cons, ih, hear_policy, WarningPolicy.extend_extend, List.filterMap_cons]
    cases event.entry? <;> rfl

/-- What becomes of a warning at each level: it is held back, or kept as a warning or an error. -/
def resolve (s : Diagnostics) (r : Report) : WarningLevel → Diagnostics
  | .disabled => { s with suppressed := s.suppressed + 1 }
  | .normal => { s with entries := s.entries.push ⟨r.kind, .warning, r.line, r.column, r.length⟩ }
  | .error => { s with entries := s.entries.push ⟨r.kind, .error, r.line, r.column, r.length⟩ }

theorem report_eq_resolve (s : Diagnostics) {r : Report} (h : r.kind.severity = .warning) :
    s.report r = s.resolve r (s.policy.level r.line r.kind.overrideCodes) := by
  simp only [report, WarningPolicy.severity?, h]
  cases s.policy.level r.line r.kind.overrideCodes <;> rfl

/-- When events settle what comes before them, the policy at their end has the same level for a
warning as the one in force at its time. -/
theorem level_hearAll (s : Diagnostics) {before after : List Event} {r : Report}
    (h : (before ++ .report r :: after).Pairwise Event.Settles)
    (isWarning : r.kind.severity = .warning) :
    (s.hearAll (before ++ .report r :: after)).policy.level r.line r.kind.overrideCodes =
      (s.hearAll before).policy.level r.line r.kind.overrideCodes := by
  obtain ⟨-, settled, -⟩ := List.pairwise_append.mp h
  have later : ∀ e ∈ after.filterMap Event.entry?, r.line < e.fromLine := by
    intro e isEntry
    obtain ⟨event, isLater, made⟩ := List.mem_filterMap.mp isEntry
    have settles := (List.pairwise_cons.mp settled).1 event isLater
    rw [Event.eq_entry_of_entry? made] at settles
    exact settles.line_lt isWarning trivial
  have final : (s.hearAll (before ++ .report r :: after)).policy =
      (s.hearAll before).policy.extend (after.filterMap Event.entry?) := by
    rw [hearAll_append, hearAll_cons, hearAll_policy, hear, report_policy]
  rw [final, WarningPolicy.level_extend _ later]

/-- The policy at the end of the events decides as the one in force at the time of a warning did. -/
theorem report_eq_resolve_hearAll (s : Diagnostics) {before after : List Event} {r : Report}
    (h : (before ++ .report r :: after).Pairwise Event.Settles)
    (isWarning : r.kind.severity = .warning) :
    (s.hearAll before).report r = (s.hearAll before).resolve r
      ((s.hearAll (before ++ .report r :: after)).policy.level r.line r.kind.overrideCodes) := by
  rw [s.level_hearAll h isWarning]
  exact report_eq_resolve _ isWarning

/-- What becomes of a report is the same by the policy in force and by the one at the end. -/
theorem resolve?_hearAll (s : Diagnostics) {before after : List Event} {r : Report}
    (h : (before ++ .report r :: after).Pairwise Event.Settles) :
    (s.hearAll (before ++ .report r :: after)).policy.resolve? r =
      (s.hearAll before).policy.resolve? r := by
  cases severity : r.kind.severity with
  | warning =>
    simp only [WarningPolicy.resolve?, WarningPolicy.severity?, severity,
      s.level_hearAll h severity]
  | info | error => simp only [WarningPolicy.resolve?, WarningPolicy.severity?, severity]

end Diagnostics

theorem entries_inOrder {events : List Event} (h : events.Pairwise Event.Settles) :
    (events.filterMap Event.entry?).Pairwise fun a b => a.fromLine ≤ b.fromLine := by
  refine h.filterMap _ ?_
  intro a b settles e made f made'
  rw [Event.eq_entry_of_entry? made, Event.eq_entry_of_entry? made'] at settles
  exact settles.line_le

/-! ## The whole text -/

/-- A run tells every sink without entries the same journal. -/
theorem diagnostics_of_settings (settings : Settings) (tokens : List PositionedToken)
    {sink : Diagnostics} (h : sink.policy.entries = []) :
    ({ PreprocessState.ofSettings settings with diagnostics := sink }.runUnit
      .default tokens).1.diagnostics = sink.hearAll (journal settings tokens) := by
  have same : { PreprocessState.ofSettings settings with diagnostics := sink }.standing =
      (PreprocessState.ofSettings settings).standing := by
    simp only [PreprocessState.standing, PreprocessState.effects, h]
    rfl
  rw [diagnostics_runUnit, same]
  rfl

/-- **The policy at the end tells the fate of every warning.** Preprocessing tells its sink the
journal of the tokens, whatever the sink. What becomes of a warning when it is reported is what the
policy of the output says about its line, unless it is about an item of a list of codes; and the
entries of that policy go line by line. -/
theorem fate_eq_final_level (file raw : String) (settings : Settings) :
    ∃ output tokens scanned, preprocess file raw settings = .ok output ∧
      tokenize raw file = .ok (tokens, scanned) ∧
      let start : Diagnostics := { policy := settings.policy }
      let events := journal settings tokens
      (∀ sink : Diagnostics, sink.policy.entries = [] →
        ({ PreprocessState.ofSettings settings with diagnostics := sink }.runUnit
          .default tokens).1.diagnostics = sink.hearAll events) ∧
      output.policy = (start.hearAll events).policy ∧
      output.diagnostics =
        (({ policy := output.policy } : Diagnostics).extend scanned).extend
          (start.hearAll events) ∧
      (∀ before r after, events = before ++ .report r :: after → r.kind.severity = .warning →
        (start.hearAll before).report r = (start.hearAll before).resolve r
          (output.policy.level r.line r.kind.overrideCodes)) ∧
      output.policy.entries.Pairwise fun a b => a.fromLine ≤ b.fromLine := by
  obtain ⟨tokens, scanned, tokenized, inLines, -⟩ := exists_tokenize raw file
  have settled : (journal settings tokens).Pairwise Event.Settles :=
    Standing.unitJournal_settled inLines _
  obtain ⟨output, run, policy, diagnostics⟩ := exists_preprocess settings tokenized
  refine ⟨output, tokens, scanned, run, tokenized, fun _ => diagnostics_of_settings _ _, policy,
    diagnostics, ?fate, ?order⟩
  case fate =>
    intro before r after split isWarning
    have verdict := Diagnostics.report_eq_resolve_hearAll { policy := settings.policy }
      (split ▸ settled) isWarning
    rw [← split, ← policy] at verdict
    exact verdict
  case order =>
    rw [policy, Diagnostics.hearAll_policy]
    exact entries_inOrder settled

end SharpFront
