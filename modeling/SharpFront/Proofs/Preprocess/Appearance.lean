import Mathlib.Data.List.Forall2
import SharpFront.Proofs.Form.Integer
import SharpFront.Proofs.Preprocess.Fates
import SharpFront.Proofs.Preprocess.Survivors
import SharpFront.Proofs.Scan.LongestMatch

/-!
# Where tokens appear to stand

The `#line` directives of included code say where the tokens after them appear to stand. Each of
them says only a part of it, so what a token shows is put together from several.

* `LineOrder`, `lineOrders`: what they order, in the order in which they are carried out;
* `sinceDefault`, `lastNumber?`, `lastFile?`: the orders that still count;
* `Reached.areWritten`: the numbers in them are those that are written;
* `steps_position`: a run obeys its orders one after the other;
* `obeyAll_obeys`: what comes of them all;
* `run_appearance`: the survivors of a text appear so, and its diagnostics do not.
-/

namespace SharpFront

/-! ## Orders -/

/-- What a `#line` orders. -/
inductive LineOrder where
  | default
  | hidden
  /-- The line of the directive counts as the number, in another file if one is named. -/
  | number (line number : Nat) (file? : Option String)
  deriving DecidableEq, Repr

namespace LineOrder

def number? : LineOrder → Option (Nat × Nat)
  | number line n _ => some (line, n)
  | _ => none

def file? : LineOrder → Option String
  | number _ _ file? => file?
  | _ => none

end LineOrder

/-- The order of a `#line` by its operands, unless a number is due and there is none. The number is
the one that is written, and what follows it is a file or of no account. -/
def DirectiveLine.lineOrder? (d : DirectiveLine) : Option LineOrder :=
  match d.operands with
  | [] => none
  | argument :: more =>
    match argument.token with
    | .keyword "default" => some .default
    | .directive .hidden => some .hidden
    | token => (Form.writtenNumber? token).map fun n => .number d.word.line n (namedFile? more)

def SourceItem.lineOrder? : SourceItem → Option LineOrder
  | directive _ _ (word :: operands) =>
    if word.token.directive? = some .line then DirectiveLine.lineOrder? ⟨word, operands⟩ else none
  | _ => none

/-- The orders that a run over the items carries out: those in included code. -/
def PreprocessState.lineOrders (s : PreprocessState) : List SourceItem → List LineOrder
  | [] => []
  | item :: items =>
    (if s.includesCode then item.lineOrder?.toList else []) ++
      (s.step .default item).1.lineOrders items

/-- The orders since the last `#line default`, newest first. -/
def sinceDefault (orders : List LineOrder) : List LineOrder :=
  orders.reverse.takeWhile (· != .default)

/-- The line of the last `#line` with a number, and the number. -/
def lastNumber? (orders : List LineOrder) : Option (Nat × Nat) :=
  (sinceDefault orders).findSome? LineOrder.number?

/-- The file that was named last. -/
def lastFile? (orders : List LineOrder) : Option String :=
  (sinceDefault orders).findSome? LineOrder.file?

theorem sinceDefault_concat (orders : List LineOrder) (order : LineOrder) :
    sinceDefault (orders ++ [order]) =
      if order = .default then [] else order :: sinceDefault orders := by
  rw [sinceDefault, List.reverse_append, List.reverse_singleton, List.singleton_append,
    List.takeWhile_cons]
  cases order <;> rfl

/-! ## Numbers as they are written -/

/-- The numbers among the tokens are those that their texts say. -/
def AreWritten (tokens : List PositionedToken) : Prop :=
  ∀ t ∈ tokens, Form.writtenNumber? t.token = t.token.plainNumber?

theorem Form.writtenNumber?_of_recognize {form : Form} {followsHash : Nat → Bool} {place : Place}
    {text : List Char} {l : Lexeme} (found : form.recognize followsHash place text = some l) :
    writtenNumber? l.token = l.token.plainNumber? := by
  cases form with
  | number => exact writtenNumber?_of_number? found
  | _ => cases recognized_of_recognize found <;> rfl

theorem Scan.Reached.areWritten {source : List Char} {s : Scan} (h : Reached source s)
    (file : String) : AreWritten (s.tokens file) := by
  refine h.forall_tokens fun s segment takes t isToken => ?_
  cases segment with
  | lexeme start l =>
    cases isToken
    obtain ⟨form, -, found⟩ := takes.exists_form
    exact Form.writtenNumber?_of_recognize found
  | skipped start blanks => cases isToken
  | rejected start c => cases isToken

/-- The item is made up of tokens that say their numbers. -/
def SourceItem.IsWritten : SourceItem → Prop
  | directive _ _ body => AreWritten body
  | token _ => True

theorem SourceItem.isWritten_of_mem_ofTokens {tokens : List PositionedToken}
    (areWritten : AreWritten tokens) {last : Option Nat} :
    ∀ item ∈ SourceItem.ofTokens last tokens, item.IsWritten
  | .token _, _ => trivial
  | .directive _ _ _, isItem => fun t isBody =>
    areWritten t ((sublist_of_mem_ofTokens isItem).subset (List.mem_cons_of_mem _ isBody))

/-! ## Obeying them -/

namespace ApparentPosition

def obey (p : ApparentPosition) : LineOrder → ApparentPosition
  | .default => {}
  | .hidden => { p with hidden := true }
  | .number line n file? => { p.setLine line n with file? := file?.or p.file? }

def obeyAll (p : ApparentPosition) (orders : List LineOrder) : ApparentPosition :=
  orders.foldl obey p

theorem obeyAll_append (p : ApparentPosition) (a b : List LineOrder) :
    p.obeyAll (a ++ b) = (p.obeyAll a).obeyAll b := List.foldl_append

/-- What comes of orders that are carried out one after the other. -/
structure Obeys (orders : List LineOrder) (p : ApparentPosition) : Prop where
  lineShift : p.lineShift =
    match lastNumber? orders with
    | none => 0
    | some (line, n) => (n : Int) - (line : Int)
  file? : p.file? = lastFile? orders
  hidden : p.hidden = true ↔ .hidden ∈ sinceDefault orders

/-- The induction is on the orders from the last one back, as the last one that says something
counts. -/
theorem obeyAll_obeys (orders : List LineOrder) :
    Obeys orders (obeyAll {} orders) := by
  induction orders using List.reverseRecOn with
  | nil => exact ⟨rfl, rfl, by simp [obeyAll, sinceDefault]⟩
  | append_singleton orders order ih =>
    have last : obeyAll {} (orders ++ [order]) = (obeyAll {} orders).obey order :=
      obeyAll_append {} orders [order]
    have recent := sinceDefault_concat orders order
    rw [last]
    cases order with
    | default =>
      rw [if_pos rfl] at recent
      constructor
      · simp [lastNumber?, recent, obey]
      · simp [lastFile?, recent, obey]
      · simp [recent, obey]
    | hidden =>
      rw [if_neg LineOrder.noConfusion] at recent
      constructor
      · rw [lastNumber?, recent]
        exact ih.lineShift
      · rw [lastFile?, recent]
        exact ih.file?
      · simp [recent, obey]
    | number line n file? =>
      rw [if_neg LineOrder.noConfusion] at recent
      constructor
      · rw [lastNumber?, recent]
        rfl
      · rw [lastFile?, recent, obey, ih.file?]
        cases file? <;> rfl
      · simpa [recent, obey, setLine] using ih.hidden

end ApparentPosition

/-- What a `#line` does is what it orders. -/
theorem DirectiveLine.moved_eq {d : DirectiveLine} (areWritten : AreWritten d.operands)
    (p : ApparentPosition) : d.moved p = p.obeyAll d.lineOrder?.toList := by
  obtain ⟨word, operands⟩ := d
  cases operands with
  | nil => rfl
  | cons argument more =>
    have written := areWritten argument List.mem_cons_self
    simp only [moved, lineOrder?]
    by_cases isDefault : argument.token = .keyword "default"
    · simp only [isDefault]
      rfl
    by_cases isHidden : argument.token = .directive .hidden
    · simp only [isHidden]
      rfl
    simp only [written]
    cases argument.token.plainNumber? <;> rfl

/-! ## The position of a run -/

namespace Standing

theorem directive_position (s : Standing) (d : DirectiveLine) (areWritten : AreWritten d.operands) :
    (s.directive d).effects.position =
      if s.includesCode = true ∧ d.word.token.directive? = some .line then
        s.effects.position.obeyAll d.lineOrder?.toList
      else s.effects.position := by
  have effect : (d.effect s.effects).position =
      if d.word.token.directive? = some .line then s.effects.position.obeyAll d.lineOrder?.toList
      else s.effects.position := by
    rw [← d.moved_eq areWritten]
    unfold DirectiveLine.effect
    split <;> simp_all
  rw [directive_effects, ite_and, ← effect]
  split <;> rfl

theorem step_position (s : Standing) {item : SourceItem} (isWritten : item.IsWritten) :
    (s.step item).1.effects.position =
      s.effects.position.obeyAll (if s.includesCode then item.lineOrder?.toList else []) := by
  match item with
  | .token t => cases h : s.includesCode <;> rfl
  | .directive _ _ [] => cases h : s.includesCode <;> rfl
  | .directive hash leads (word :: operands) =>
    have areWritten : AreWritten operands := fun t isOperand =>
      isWritten t (List.mem_cons_of_mem _ isOperand)
    have moved := s.directive_position ⟨word, operands⟩ areWritten
    have after : (s.step (.directive hash leads (word :: operands))).1 =
      s.directive ⟨word, operands⟩ := rfl
    rw [after, moved]
    simp only [SourceItem.lineOrder?]
    by_cases isLine : word.token.directive? = some .line
    · cases h : s.includesCode <;> simp [isLine, ApparentPosition.obeyAll]
    · cases h : s.includesCode <;> simp [isLine, ApparentPosition.obeyAll]

end Standing

namespace PreprocessState

theorem step_position (s : PreprocessState) {item : SourceItem} (isWritten : item.IsWritten) :
    (s.step .default item).1.position =
      s.position.obeyAll (if s.includesCode then item.lineOrder?.toList else []) := by
  have same := congrArg (fun s : Standing => s.effects.position) (standing_step s item).1
  exact same.trans (s.standing.step_position isWritten)

/-- **A run obeys its orders one after the other.** -/
theorem steps_position (s : PreprocessState) {items : List SourceItem}
    (areWritten : ∀ item ∈ items, item.IsWritten) :
    (s.steps .default items).1.position = s.position.obeyAll (s.lineOrders items) := by
  induction items generalizing s with
  | nil => rfl
  | cons item items ih =>
    have isWritten := areWritten item List.mem_cons_self
    have later := fun item isItem => areWritten item (List.mem_cons_of_mem _ isItem)
    rw [lineOrders, ApparentPosition.obeyAll_append, ← s.step_position isWritten, ← ih _ later]
    rfl

theorem exists_of_mem_lineOrders {s : PreprocessState} {items : List SourceItem}
    {order : LineOrder} (h : order ∈ s.lineOrders items) :
    ∃ (hash : PositionedToken) (leads : Bool) (d : DirectiveLine),
      .directive hash leads (d.word :: d.operands) ∈ items ∧ d.lineOrder? = some order := by
  induction items generalizing s with
  | nil => cases h
  | cons item items ih =>
    rcases List.mem_append.mp h with isHere | isLater
    · have orders : item.lineOrder? = some order := by
        split at isHere
        · exact Option.mem_toList.mp isHere
        · cases isHere
      match item with
      | .token t => cases orders
      | .directive hash leads [] => cases orders
      | .directive hash leads (word :: operands) =>
        simp only [SourceItem.lineOrder?] at orders
        split at orders
        · exact ⟨hash, leads, ⟨word, operands⟩, List.mem_cons_self, orders⟩
        · cases orders
    · obtain ⟨hash, leads, d, isItem, orders⟩ := ih isLater
      exact ⟨hash, leads, d, List.mem_cons_of_mem item isItem, orders⟩

end PreprocessState

theorem DirectiveLine.line_of_lineOrder? {d : DirectiveLine} {line n : Nat} {file? : Option String}
    (h : d.lineOrder? = some (.number line n file?)) : line = d.word.line := by
  unfold lineOrder? at h
  split at h
  · cases h
  · split at h
    · cases h
    · cases h
    · obtain ⟨number, -, same⟩ := Option.map_eq_some_iff.mp h
      cases same
      rfl

variable {settings : Settings} {before after : List PositionedToken} {t : PositionedToken}

/-- The orders that the items of some tokens give. -/
def ordersOf (settings : Settings) (tokens : List PositionedToken) : List LineOrder :=
  (PreprocessState.ofSettings settings).lineOrders (SourceItem.ofTokens none tokens)

/-- What counts for a token on no directive line is a number on an earlier line. -/
theorem line_lt_of_lastNumber? (inLines : InLines (before ++ t :: after))
    (apart : hashOn before t.line = false) {line n : Nat}
    (h : lastNumber? (ordersOf settings before) = some (line, n)) : line < t.line := by
  obtain ⟨order, isRecent, isNumber⟩ := List.exists_of_findSome?_eq_some h
  have isOrder : order ∈ ordersOf settings before :=
    List.mem_reverse.mp ((List.takeWhile_sublist _).subset isRecent)
  obtain ⟨hash, leads, d, isItem, orders⟩ := PreprocessState.exists_of_mem_lineOrders isOrder
  have line_eq : line = d.word.line := by
    cases order with
    | number line' n' file? =>
      obtain ⟨rfl, rfl⟩ := Prod.mk.inj (Option.some.inj isNumber)
      exact DirectiveLine.line_of_lineOrder? orders
    | _ => cases isNumber
  obtain ⟨isHash, onLine⟩ := SourceItem.isWhole_of_mem_ofTokens _ isItem
  have isEarlier : hash ∈ before :=
    (SourceItem.sublist_of_mem_ofTokens isItem).subset List.mem_cons_self
  have upTo := (List.pairwise_append.mp inLines).2.2 hash isEarlier t List.mem_cons_self
  have elsewhere := hashOn_eq_false_iff.mp apart hash isEarlier isHash
  have wordLine := onLine d.word List.mem_cons_self
  omega

/-! ## Survivors -/

/-- A survivor is no `#` and stands on no directive line. -/
theorem notHash_of_stays (stays : ¬Drops settings before t) :
    t.token.isOperator .hash = false ∧ hashOn before t.line = false :=
  ⟨Bool.eq_false_iff.mpr fun isHash => stays (.inl (.inl isHash)),
    Bool.eq_false_iff.mpr fun onLine => stays (.inl (.inr onLine))⟩

theorem after_position (settings : Settings) {tokens : List PositionedToken}
    (areWritten : AreWritten tokens) :
    (Standing.after settings tokens).effects.position =
      ApparentPosition.obeyAll {} (ordersOf settings tokens) := by
  have same := congrArg (fun s : Standing => s.effects.position)
    (standing_steps (.ofSettings settings) (SourceItem.ofTokens none tokens)).1
  exact same.symm.trans
    (PreprocessState.steps_position _ (SourceItem.isWritten_of_mem_ofTokens areWritten))

/-- A token on no directive line is an item, and the items before it are those of the tokens before
it. -/
theorem exists_items_eq (notHash : t.token.isOperator .hash = false)
    (apart : hashOn before t.line = false) (after : List PositionedToken) :
    ∃ back, SourceItem.ofTokens none (before ++ t :: after) =
      SourceItem.ofTokens none before ++ .token t :: back := by
  have cut : SourceItem.ofTokens none (before ++ t :: after) = _ :=
    SourceItem.ofTokens_append none before (by simpa using apart)
  rw [SourceItem.ofTokens, if_neg (by simp [notHash])] at cut
  exact ⟨_, cut⟩

/-- A survivor comes out after those before it, placed by the orders before it. -/
theorem getElem?_runUnit (inLines : InLines (before ++ t :: after)) (areWritten : AreWritten before)
    (stays : ¬Drops settings before t) :
    ((PreprocessState.ofSettings settings).runUnit .default (before ++ t :: after)).2[
        (survivors settings [] before).length]? =
      some ((ApparentPosition.obeyAll {} (ordersOf settings before)).place t) := by
  obtain ⟨notHash, apart⟩ := notHash_of_stays stays
  have kept : ((Standing.after settings before).includesCode && settings.keeps t.token) = true := by
    rw [drops_iff notHash apart] at stays
    exact (Bool.not_eq_false _).mp stays
  have earlier : (survivors settings [] before).length =
      ((PreprocessState.ofSettings settings).standing.steps
        (SourceItem.ofTokens none before)).2.length := by
    have inLinesBefore : InLines ([] ++ before) := inLines.sublist (List.sublist_append_left _ _)
    rw [← Standing.after_nil]
    exact (steps_eq_survivors [] inLinesBefore (fun _ _ => rfl) rfl).length_eq
  have isAfter : ((PreprocessState.ofSettings settings).standing.steps
      (SourceItem.ofTokens none before)).1 = Standing.after settings before := rfl
  obtain ⟨back, cut⟩ := exists_items_eq notHash apart after
  rw [(standing_runUnit _ _).2, cut, Standing.steps_append, earlier]
  simp only [Standing.steps, Standing.step, isAfter, Standing.after_settings, kept, if_true,
    after_position settings areWritten]
  simp

namespace ApparentPosition.Obeys

variable {orders : List LineOrder} {p : ApparentPosition}

/-- What stands below the last number is not shifted above the text. -/
theorem shifted_nonneg (h : Obeys orders p) {physical : Nat}
    (isLater : ∀ line n, lastNumber? orders = some (line, n) → line < physical) :
    0 ≤ (physical : Int) + p.lineShift := by
  rw [h.lineShift]
  cases isLast : lastNumber? orders with
  | none =>
    simp only
    omega
  | some number =>
    obtain ⟨line, n⟩ := number
    have := isLater line n isLast
    simp only
    omega

theorem apparentLine_eq (h : Obeys orders p) {line n physical : Nat}
    (isLast : lastNumber? orders = some (line, n)) (isLater : line < physical) :
    p.apparentLine physical = min (physical + n - line) (UInt32.size - 1) := by
  have lineShift : p.lineShift = (n : Int) - (line : Int) := by
    rw [h.lineShift, isLast]
  have shifted : ((physical : Int) + p.lineShift).toNat = physical + n - line := by
    rw [lineShift]
    omega
  rw [apparentLine, shifted]

theorem apparentLine_of_none (h : Obeys orders p) (physical : Nat)
    (isNone : lastNumber? orders = none) :
    p.apparentLine physical = min physical (UInt32.size - 1) := by
  have lineShift : p.lineShift = 0 := by
    rw [h.lineShift, isNone]
  rw [apparentLine, lineShift, Int.add_zero, Int.toNat_natCast]

end ApparentPosition.Obeys

/-! ## Diagnostics -/

namespace PreprocessState

theorem exists_step_diagnostics (s : PreprocessState) {item : SourceItem} (whole : item.IsWhole) :
    ∃ found, (s.step .default item).1.diagnostics.toList = s.diagnostics.toList ++ found ∧
      ∀ d ∈ found, d.line = item.line := by
  obtain ⟨found, kept, lines⟩ := s.diagnostics.exists_hearAll_toList (s.standing.events item)
  rw [diagnostics_step]
  refine ⟨found, kept, ?_⟩
  intro d isFound
  obtain ⟨e, isEvent, same⟩ := lines d isFound
  exact same.trans ((s.standing.events_staysOn whole).line_eq e isEvent)

theorem exists_finish_diagnostics (s : PreprocessState) (input : List PositionedToken) :
    ∃ found, (s.finish input).diagnostics.toList = s.diagnostics.toList ++ found ∧
      ∀ d ∈ found, ∃ last, input.getLast? = some last ∧ d.line = last.line := by
  obtain ⟨found, kept, lines⟩ := s.diagnostics.exists_hearAll_toList (s.standing.closing input)
  rw [diagnostics_finish]
  refine ⟨found, kept, ?_⟩
  intro d isFound
  obtain ⟨e, isEvent, same⟩ := lines d isFound
  obtain ⟨last, isLast, rfl⟩ := Standing.exists_of_mem_closing isEvent
  exact ⟨last, isLast, same⟩

end PreprocessState

/-! ## The whole text -/

/-- **Survivors appear where the last orders before them say.** A survivor comes out with the line
that the last number puts it on, in the file that was named last, and hidden if so ordered, each
since the last `#line default` of included code; else it comes out with its own line and file, and
visible. A number always stands on an earlier line than the tokens that it counts for, so they never
fall below the first line. Diagnostics stay on the lines of the text. -/
theorem run_appearance (raw file : String) (settings : Settings) :
    ∃ tokens scanned, tokenize raw file = .ok (tokens, scanned) ∧
      let fresh := (Preprocessor.ofSettings settings).setInput tokens
      let items := SourceItem.ofTokens none tokens
      let (p, result) := fresh.run
      ∃ output, result = .ok output ∧
        output.length = (survivors settings [] tokens).length ∧
        (∀ before t after, tokens = before ++ t :: after → ¬Drops settings before t →
          let front := SourceItem.ofTokens none before
          let orders := fresh.state.lineOrders front
          (∃ back, items = front ++ .token t :: back) ∧
          0 ≤ (t.line : Int) + (fresh.state.steps fresh.table front).1.position.lineShift ∧
          ∃ u, output[(survivors settings [] before).length]? = some u ∧ Keeps t u ∧
            (∀ line n, lastNumber? orders = some (line, n) →
              line < t.line ∧ u.line = min (t.line + n - line) (UInt32.size - 1)) ∧
            (lastNumber? orders = none → u.line = min t.line (UInt32.size - 1) ∧
              (t.line < UInt32.size → u.line = t.line)) ∧
            u.file = (lastFile? orders).getD file ∧
            (u.hidden = true ↔ .hidden ∈ sinceDefault orders)) ∧
        (∀ front item back, items = front ++ item :: back →
          let s := (fresh.state.steps fresh.table front).1
          ∃ found, (s.step fresh.table item).1.diagnostics.toList = s.diagnostics.toList ++ found ∧
            ∀ d ∈ found, d.line = item.line) ∧
        ∃ found, p.state.diagnostics.toList =
            (fresh.state.steps fresh.table items).1.diagnostics.toList ++ found ∧
          ∀ d ∈ found, ∃ last, tokens.getLast? = some last ∧ d.line = last.line := by
  obtain ⟨scan, reached, -, tokenized⟩ := exists_scan raw file
  have inLines := reached.inLines file
  refine ⟨_, _, tokenized, _, rfl, ?count, ?survivor, ?step, ?finish⟩
  case count =>
    have kept : List.Forall₂ Keeps (survivors settings [] (scan.tokens file)) _ :=
      steps_eq_survivors [] inLines (fun _ _ => rfl) rfl
    rw [Standing.after_nil] at kept
    exact (congrArg List.length (standing_runUnit _ _).2).trans kept.length_eq.symm
  case survivor =>
    intro before t after isSplit stays front orders
    obtain ⟨notHash, apart⟩ := notHash_of_stays stays
    have isToken : t ∈ scan.tokens file := by simp [isSplit]
    have fromFile : t.file = file := (Scan.origin_of_mem_tokens isToken).1
    have obeys := ApparentPosition.obeyAll_obeys orders
    have areWritten : AreWritten before := fun u isBefore =>
      reached.areWritten file u (isSplit ▸ List.mem_append_left _ isBefore)
    rw [isSplit] at inLines ⊢
    have isLater : ∀ line n, lastNumber? orders = some (line, n) → line < t.line :=
      fun _ _ => line_lt_of_lastNumber? inLines apart
    refine ⟨exists_items_eq notHash apart after, ?notClamped, _,
      getElem?_runUnit inLines areWritten stays, keeps_place _ t, ?number, ?noNumber, ?file,
      obeys.hidden⟩
    case notClamped =>
      have position : (PreprocessState.steps .default _ front).1.position = _ :=
        PreprocessState.steps_position (.ofSettings settings)
          (SourceItem.isWritten_of_mem_ofTokens areWritten)
      exact position ▸ obeys.shifted_nonneg isLater
    case number =>
      intro line n isLast
      exact ⟨isLater line n isLast, obeys.apparentLine_eq isLast (isLater line n isLast)⟩
    case noNumber =>
      intro isNone
      have line_eq := obeys.apparentLine_of_none t.line isNone
      refine ⟨line_eq, ?_⟩
      intro fits
      exact line_eq.trans (Nat.min_eq_left (Nat.le_sub_one_of_lt fits))
    case file =>
      rw [← fromFile, ← obeys.file?]
      rfl
  case step =>
    intro front item back isSplit
    have wholes : ∀ item ∈ SourceItem.ofTokens none (scan.tokens file), item.IsWhole :=
      SourceItem.isWhole_of_mem_ofTokens
    exact PreprocessState.exists_step_diagnostics _ (wholes item (by simp [isSplit]))
  case finish => exact PreprocessState.exists_finish_diagnostics _ _

/-- The tokens of the line `#line 200 "foo.cs"` and of the line break after it. -/
def namedLine : List PositionedToken :=
  [⟨.operator .hash, "main.cs", 1, 1, 1, false⟩, ⟨.directive .line, "main.cs", 1, 2, 4, false⟩,
    ⟨.whitespace, "main.cs", 1, 6, 1, false⟩,
    ⟨.number ⟨.finite 200 0, 10, false, ⟨6, "200"⟩⟩, "main.cs", 1, 7, 3, false⟩,
    ⟨.whitespace, "main.cs", 1, 10, 1, false⟩, ⟨.string "foo.cs", "main.cs", 1, 11, 8, false⟩,
    ⟨.whitespace, "main.cs", 1, 19, 1, false⟩]

/-- `#line 200 "foo.cs"` counts as line 200 of the file, so what follows it is on line 201. -/
theorem run_appearance_named :
    ∃ tokens scanned output u,
      tokenize "#line 200 \"foo.cs\"\nx" "main.cs" = .ok (tokens, scanned) ∧
      ((Preprocessor.ofSettings {}).setInput tokens).run.2 = .ok output ∧ output[0]? = some u ∧
      u.token = .identifier ⟨19, "x"⟩ ∧ u.line = 201 ∧ u.file = "foo.cs" ∧ u.hidden = false := by
  let x : PositionedToken := ⟨.identifier ⟨19, "x"⟩, "main.cs", 2, 1, 1, false⟩
  have scanned := tokenize_guided "main.cs" "#line 200 \"foo.cs\"\nx"
    [.operator .hash, .word, .whitespace, .number, .whitespace, .string, .whitespace, .word]
    (namedLine ++ [x]) (by decide) (by decide_cbv) (by cbv) rfl
  obtain ⟨tokens, found, tokenized, output, ran, -, survivor, -⟩ :=
    run_appearance "#line 200 \"foo.cs\"\nx" "main.cs" {}
  have isTokens := congrArg Prod.fst (Except.ok.inj (tokenized.symm.trans scanned))
  have stays : ¬Drops {} namedLine x := by decide +kernel
  obtain ⟨-, -, u, isOutput, keeps, number, -, file, hidden⟩ :=
    survivor namedLine x [] isTokens stays
  have orders : (PreprocessState.ofSettings {}).lineOrders (SourceItem.ofTokens none namedLine) =
      [.number 1 200 (some "foo.cs")] := by decide +kernel
  have isFirst : (survivors {} [] namedLine).length = 0 := by decide +kernel
  have line := (number 1 200 (congrArg lastNumber? orders)).2
  have named := file.trans (congrArg (fun orders => (lastFile? orders).getD "main.cs") orders)
  have visible : u.hidden = false := by
    rw [Bool.eq_false_iff, Ne, hidden]
    intro isHidden
    have recent := congrArg sinceDefault orders ▸ isHidden
    revert recent
    decide
  exact ⟨tokens, found, output, u, tokenized, ran, isFirst ▸ isOutput, keeps.token_eq, line, named,
    visible⟩

end SharpFront
