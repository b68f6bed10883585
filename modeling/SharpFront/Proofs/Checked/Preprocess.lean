import SharpFront.Output
import SharpFront.Proofs.Checked.Directive
import SharpFront.Proofs.Checked.Scan
import SharpFront.Proofs.Preprocess.Item

/-!
# Preprocessing that can fail

The whole way from a source text to tokens, with every fault that a stage could run into.

* `preprocess_eq_ok`: no source text leads to a failure or a fault.
-/

namespace SharpFront

namespace Checked

/-! ## The run -/

/-- Reports a `#` that does not lead its line. -/
def checkFirst (s : PreprocessState) (hash : PositionedToken) (leads : Bool) :
    Checked PreprocessState :=
  if leads then .ok s else put s (hash.report .notFirstCharacter)

def step (s : PreprocessState) :
    SourceItem → Checked (PreprocessState × Option PositionedToken)
  | .directive hash leads body => do
    let s ← checkFirst s hash leads
    return (← dispatch hash body s, none)
  | .token t =>
    return (s, if s.includesCode && s.keeps t.token then some (s.position.place t) else none)

def steps (s : PreprocessState) :
    List SourceItem → Checked (PreprocessState × List PositionedToken)
  | [] => return (s, [])
  | item :: items => do
    let (s, kept) ← step s item
    let (s, later) ← steps s items
    return (s, kept.toList ++ later)

/-- An open condition is reported at the last token of the unit. -/
def finish (s : PreprocessState) (input : List PositionedToken) : Checked PreprocessState :=
  if s.conditions.isEmpty then .ok s else putAny s .endifExpected input.getLast?

def preprocess (file raw : String) (settings : Settings) : Checked (Except Failure Output) := do
  match ← tokenize raw file with
  | .error failure => return .error failure
  | .ok (input, scanned) =>
    let (s, tokens) ← steps (.ofSettings settings) (SourceItem.ofTokens none input)
    let s ← finish s input
    let found := s.diagnostics
    return .ok {
      tokens
      diagnostics := (({ policy := found.policy } : Diagnostics).extend scanned).extend found
      symbols := s.symbols
      policy := found.policy
      source := .ofRaw raw }

/-! ## No fault on the way -/

/-- The tokens of the item fit. -/
def ItemFits : SourceItem → Prop
  | .directive hash _ body => hash.Fits ∧ ∀ t ∈ body, t.Fits
  | .token t => t.Fits

theorem itemFits_of_mem_ofTokens {tokens : List PositionedToken} {last : Option Nat}
    (fits : ∀ t ∈ tokens, t.Fits) : ∀ item ∈ SourceItem.ofTokens last tokens, ItemFits item
  | .token t, isItem => fits t (SourceItem.of_token_mem_ofTokens isItem).1
  | .directive _ _ _, isItem =>
    have areTokens := (SourceItem.sublist_of_mem_ofTokens isItem).subset
    List.forall_mem_cons.mp fun t isBody => fits t (areTokens isBody)

theorem place_fits (p : ApparentPosition) {t : PositionedToken} (h : t.Fits) :
    (p.place t).Fits := by
  refine ⟨?_, h.2⟩
  have positive : 0 < UInt32.size := Nat.zero_lt_of_lt h.1
  simp only [ApparentPosition.place, ApparentPosition.apparentLine]
  omega

theorem step_eq {item : SourceItem} (s : PreprocessState) (fits : ItemFits item) :
    step s item = .ok (s.step .default item) := by
  cases item with
  | token t => rfl
  | directive hash leads body =>
    have first : checkFirst s hash leads =
        .ok (if leads then s else s.report (hash.report .notFirstCharacter)) := by
      cases leads with
      | true => rfl
      | false => exact put_eq s (fits.1.report _)
    simp only [step, first, ok_bind, dispatch_eq fits.1 fits.2]
    rfl

theorem steps_eq {items : List SourceItem} (s : PreprocessState)
    (fits : ∀ item ∈ items, ItemFits item) : steps s items = .ok (s.steps .default items) := by
  induction items generalizing s with
  | nil => rfl
  | cons item items ih =>
    have later := fun s => ih s fun item isItem => fits item (List.mem_cons_of_mem _ isItem)
    simp only [steps, step_eq s (fits item List.mem_cons_self), ok_bind, later]
    rfl

theorem steps_fits {items : List SourceItem} (s : PreprocessState)
    (fits : ∀ item ∈ items, ItemFits item) :
    ∀ t ∈ (s.steps .default items).2, t.Fits := by
  induction items generalizing s with
  | nil =>
    intro t isToken
    cases isToken
  | cons item items ih =>
    intro t isKept
    rcases List.mem_append.mp isKept with isKept | isLater
    · cases item with
      | directive hash leads body => cases isKept
      | token t' =>
        have isPlaced := Option.mem_toList.mp isKept
        simp only at isPlaced
        split at isPlaced
        · cases isPlaced
          exact place_fits s.position (fits (.token t') List.mem_cons_self)
        · cases isPlaced
    · exact ih _ (fun item isItem => fits item (List.mem_cons_of_mem _ isItem)) t isLater

theorem finish_eq {input : List PositionedToken} (s : PreprocessState)
    (fits : ∀ t ∈ input, t.Fits) : finish s input = .ok (s.finish input) := by
  unfold finish PreprocessState.finish
  split
  · rfl
  · exact putAny_eq s _ fun t isLast => fits t (List.mem_of_getLast? isLast)

end Checked

/-- **Preprocessing always gives an output.** On the way nothing is cut inside a character or past the
end of the text, no directive looks past its tokens, and no number outgrows 32 bits, be it those of
the cursor, those that are reported or those of the tokens that survive. -/
theorem preprocess_eq_ok (file raw : String) (settings : Settings)
    (h : raw.length < UInt32.size - 1) :
    ∃ output, preprocess file raw settings = .ok output ∧
      Checked.preprocess file raw settings = .ok (.ok output) ∧
      ∀ t ∈ output.tokens, t.Fits := by
  obtain ⟨scan, reached, atEnd, tokenized, checked⟩ := Checked.tokenize_eq_ok raw file h
  obtain ⟨parts, division⟩ := reached.exists_isDivision file (normalize_short h) atEnd
  have fits : ∀ t ∈ scan.tokens file, t.Fits := fun t isToken => division.tokens_fit isToken
  have itemsFit := @Checked.itemFits_of_mem_ofTokens (scan.tokens file) none fits
  have stepped := Checked.steps_eq (.ofSettings settings) itemsFit
  have survivors := Checked.steps_fits (.ofSettings settings) itemsFit
  refine ⟨?output, ?run, ?checked, ?survivors⟩
  case run =>
    simp only [preprocess, tokenized]
    rfl
  case checked =>
    simp only [Checked.preprocess, checked, Checked.ok_bind, stepped, Checked.finish_eq _ fits]
    rfl
  case survivors => exact survivors

/-- A number that is no line, a `#pragma` without its kind, an escape cut short, literals without an
end. -/
theorem preprocess_eq_ok_malformed :
    "#line 0x\n#pragma\n#if (\n'é\\u12\n@\"".length < UInt32.size - 1 ∧
      ∃ output, preprocess "main.cs" "#line 0x\n#pragma\n#if (\n'é\\u12\n@\"" {} = .ok output ∧
        Checked.preprocess "main.cs" "#line 0x\n#pragma\n#if (\n'é\\u12\n@\"" {} =
          .ok (.ok output) ∧
        ∀ t ∈ output.tokens, t.Fits :=
  ⟨by decide, preprocess_eq_ok "main.cs" "#line 0x\n#pragma\n#if (\n'é\\u12\n@\"" {} (by decide)⟩

end SharpFront
