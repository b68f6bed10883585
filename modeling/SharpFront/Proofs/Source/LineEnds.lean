import SharpFront.Output
import SharpFront.Proofs.Place

/-!
# Line ends

Normalisation is one pass with a look at the next character. It does what three passes do, each with
one rule for the whole text.

* `replaceAll`: a pass; `normalize_eq_replaceAll`: the three of them;
* `normalize_append`: where a text can be cut;
* `normalize_withLineEnds`: the line ends in which a text is written;
* `normalize_passes`: these laws, and that scanning and preprocessing see no line ends.
-/

namespace SharpFront

/-- Every `first :: more`, from left to right, becomes `new`. -/
def replaceAll (first : Char) (more new : List Char) : List Char → List Char
  | [] => []
  | c :: rest =>
    if (first :: more) <+: (c :: rest) then
      new ++ replaceAll first more new (rest.drop more.length)
    else c :: replaceAll first more new rest
termination_by cs => cs.length
decreasing_by
  · simp only [List.length_drop, List.length_cons]
    omega
  · exact Nat.lt_succ_self _

variable {first c : Char} {more new rest : List Char}

theorem replaceAll_of_isPrefix (h : (first :: more) <+: (c :: rest)) :
    replaceAll first more new (c :: rest) =
      new ++ replaceAll first more new (rest.drop more.length) := by
  rw [replaceAll, if_pos h]

theorem replaceAll_of_not_isPrefix (h : ¬(first :: more) <+: (c :: rest)) :
    replaceAll first more new (c :: rest) = c :: replaceAll first more new rest := by
  rw [replaceAll, if_neg h]

/-- One character at a time. -/
theorem replaceAll_single (first : Char) (new cs : List Char) :
    replaceAll first [] new cs = cs.flatMap fun c => if c = first then new else [c] := by
  induction cs with
  | nil => rw [replaceAll, List.flatMap_nil]
  | cons c cs ih =>
    rw [List.flatMap_cons, ← ih]
    by_cases isFirst : c = first
    · rw [replaceAll_of_isPrefix (by simp [isFirst]), if_pos isFirst]
      rfl
    · rw [replaceAll_of_not_isPrefix (by simp [Ne.symm isFirst]), if_neg isFirst]
      rfl

/-! ## Three passes -/

theorem normalize_return (h : rest.head? ≠ some '\n') :
    normalize ('\r' :: rest) = '\n' :: normalize rest := by
  rw [normalize, if_pos rfl]
  rintro others - rfl
  exact h rfl

/-- Pairs first, then the carriage returns that are left, then NULs. -/
theorem normalize_eq_replaceAll (cs : List Char) :
    normalize cs =
      replaceAll '\x00' [] [] (replaceAll '\r' [] ['\n'] (replaceAll '\r' ['\n'] ['\n'] cs)) := by
  simp only [replaceAll_single]
  fun_induction normalize cs with
  | case1 => simp [replaceAll]
  | case2 rest ih =>
    rw [replaceAll_of_isPrefix (by simp)]
    simpa using ih
  | case3 rest notPair ih =>
    have alone : ¬['\r', '\n'] <+: ('\r' :: rest) := by
      rintro ⟨others, isPair⟩
      exact notPair others rfl (List.cons.inj isPair).2.symm
    rw [replaceAll_of_not_isPrefix alone]
    simpa using ih
  | case4 rest notPair notReturn ih =>
    rw [replaceAll_of_not_isPrefix (by simp)]
    simpa using ih
  | case5 c rest notPair notReturn notNull ih =>
    rw [replaceAll_of_not_isPrefix (by simp [Ne.symm notReturn])]
    simpa [notReturn, notNull] using ih

/-- A source text stays as it is. -/
theorem normalize_normalize (cs : List Char) : normalize (normalize cs) = normalize cs :=
  normalize_of_plain (plain_of_mem_normalize cs)

/-! ## Texts put together -/

/-- The line end between two texts is a pair that is cut in two. -/
def CutsPair (a b : List Char) : Prop := a.getLast? = some '\r' ∧ b.head? = some '\n'

theorem CutsPair.cons {a b : List Char} (h : CutsPair a b) (c : Char) : CutsPair (c :: a) b := by
  refine ⟨?_, h.2⟩
  rw [List.getLast?_cons, h.1]
  rfl

/-- A text can be cut anywhere but inside a pair. -/
theorem normalize_append {a b : List Char} (whole : ¬CutsPair a b) :
    normalize (a ++ b) = normalize a ++ normalize b := by
  fun_induction normalize a with
  | case1 => rfl
  | case2 rest ih =>
    rw [List.cons_append, List.cons_append, normalize, List.cons_append,
      ih fun cuts => whole ((cuts.cons '\n').cons '\r')]
  | case3 rest notPair ih =>
    have notFeed : (rest ++ b).head? ≠ some '\n' := by
      cases rest with
      | nil => exact fun isFeed => whole ⟨rfl, isFeed⟩
      | cons c others =>
        exact fun isFeed => notPair others rfl (congrArg (· :: others) (Option.some.inj isFeed))
    rw [List.cons_append, normalize_return notFeed, List.cons_append,
      ih fun cuts => whole (cuts.cons '\r')]
  | case4 rest notPair notReturn ih =>
    rw [List.cons_append, normalize, if_neg notReturn, if_pos rfl,
      ih fun cuts => whole (cuts.cons '\x00')]
    exact fun others isReturn _ => notReturn isReturn
  | case5 c rest notPair notReturn notNull ih =>
    rw [List.cons_append, normalize, if_neg notReturn, if_neg notNull, List.cons_append,
      ih fun cuts => whole (cuts.cons c)]
    exact fun others isReturn _ => notReturn isReturn

theorem normalize_cons (notReturn : c ≠ '\r') (rest : List Char) :
    normalize (c :: rest) = normalize [c] ++ normalize rest := by
  refine normalize_append (a := [c]) ?_
  rintro ⟨isReturn, -⟩
  exact notReturn (Option.some.inj isReturn)

/-! ## Texts with other line ends -/

/-- The text with every line feed written as another line end. -/
def withLineEnds (ending text : List Char) : List Char := replaceAll '\n' [] ending text

theorem withLineEnds_cons (ending : List Char) (c : Char) (text : List Char) :
    withLineEnds ending (c :: text) =
      (if c = '\n' then ending else [c]) ++ withLineEnds ending text := by
  simp only [withLineEnds, replaceAll_single, List.flatMap_cons]

/-- Written with carriage returns, a text has no line feed. -/
theorem head?_withLineEnds_return (text : List Char) :
    (withLineEnds ['\r'] text).head? ≠ some '\n' := by
  cases text with
  | nil => simp [withLineEnds, replaceAll]
  | cons c text =>
    rw [withLineEnds_cons]
    by_cases isFeed : c = '\n'
    · simp [isFeed]
    · simp [isFeed]

/-- Pairs and carriage returns stand for line feeds. -/
theorem normalize_withLineEnds {ending text : List Char}
    (isEnding : ending ∈ [['\r', '\n'], ['\r']]) (noReturn : '\r' ∉ text) :
    normalize (withLineEnds ending text) = normalize text := by
  induction text with
  | nil => simp [withLineEnds, replaceAll]
  | cons c text ih =>
    rw [List.mem_cons, not_or] at noReturn
    rw [withLineEnds_cons, normalize_cons (Ne.symm noReturn.1), ← ih noReturn.2]
    by_cases isFeed : c = '\n'
    · rw [if_pos isFeed, isFeed]
      rw [List.mem_cons, List.mem_singleton] at isEnding
      rcases isEnding with rfl | rfl
      · rfl
      · exact normalize_return (head?_withLineEnds_return text)
    · rw [if_neg isFeed]
      exact normalize_cons (Ne.symm noReturn.1) _

/-- **One pass normalises as three do.** It replaces pairs by line feeds, then carriage returns, and
then drops NULs. No carriage return and no NUL is left; what is normal stays as it is; and a text
can be normalised in parts, unless a pair is cut in two. So it makes no difference to scanning and
preprocessing whether the lines of a text end in line feeds, in pairs or in carriage returns. -/
theorem normalize_passes :
    (∀ cs, normalize cs = replaceAll '\x00' [] []
      (replaceAll '\r' [] ['\n'] (replaceAll '\r' ['\n'] ['\n'] cs))) ∧
    (∀ cs, '\r' ∉ normalize cs ∧ '\x00' ∉ normalize cs) ∧
    (∀ cs, normalize (normalize cs) = normalize cs) ∧
    (∀ a b, ¬CutsPair a b → normalize (a ++ b) = normalize a ++ normalize b) ∧
    ∀ text : String, '\r' ∉ text.toList → ∀ ending ∈ [['\r', '\n'], ['\r']],
      let raw := String.ofList (withLineEnds ending text.toList)
      ∀ file, tokenize raw file = tokenize text file ∧
        ∀ settings, preprocess file raw settings = preprocess file text settings := by
  refine ⟨normalize_eq_replaceAll, ?plain, normalize_normalize, fun _ _ => normalize_append, ?ends⟩
  case plain =>
    intro cs
    have plain := plain_of_mem_normalize cs
    exact ⟨fun isChar => (plain _ isChar).1 rfl, fun isChar => (plain _ isChar).2 rfl⟩
  case ends =>
    intro text noReturn ending isEnding raw file
    have same : SourceText.ofRaw raw = SourceText.ofRaw text := by
      simp only [SourceText.ofRaw, raw, String.toList_ofList,
        normalize_withLineEnds isEnding noReturn]
    have tokenized : tokenize raw file = tokenize text file := by
      simp only [tokenize, Lexer.setInput, same]
    refine ⟨tokenized, ?_⟩
    intro settings
    simp only [preprocess, tokenized, same]

/-- A cut before a line feed, but after NUL, and a text with a line of nothing but NUL. -/
theorem normalize_passes_nul :
    ¬CutsPair ['a', '\r', '\x00'] ['\n', 'b'] ∧
    normalize (['a', '\r', '\x00'] ++ ['\n', 'b']) =
      normalize ['a', '\r', '\x00'] ++ normalize ['\n', 'b'] ∧
    '\r' ∉ "a\n\x00\nb".toList ∧ ['\r'] ∈ [['\r', '\n'], ['\r']] ∧
    String.ofList (withLineEnds ['\r'] "a\n\x00\nb".toList) = "a\r\x00\rb" ∧
    tokenize "a\r\x00\rb" "main.cs" = tokenize "a\n\x00\nb" "main.cs" ∧
    preprocess "main.cs" "a\r\x00\rb" {} = preprocess "main.cs" "a\n\x00\nb" {} := by
  obtain ⟨-, -, -, append, ends⟩ := normalize_passes
  have whole : ¬CutsPair ['a', '\r', '\x00'] ['\n', 'b'] := by
    rintro ⟨isReturn, -⟩
    cases isReturn
  have noReturn : '\r' ∉ "a\n\x00\nb".toList := by decide
  have isEnding : ['\r'] ∈ [['\r', '\n'], ['\r']] := by decide
  have written : String.ofList (withLineEnds ['\r'] "a\n\x00\nb".toList) = "a\r\x00\rb" := by
    rw [withLineEnds, replaceAll_single]
    rfl
  have same := ends _ noReturn _ isEnding "main.cs"
  rw [written] at same
  exact ⟨whole, append _ _ whole, noReturn, isEnding, written, same.1, same.2 {}⟩

end SharpFront
