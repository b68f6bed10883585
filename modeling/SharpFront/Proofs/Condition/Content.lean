import SharpFront.Proofs.Token.Content

/-!
# Conditions by content

Nothing in the value of a condition or in its reports depends on where the spans of its tokens
start.

* `Reading.step_content`: what is read of a token by content is the content of what is read;
* `evaluate_content`: the whole condition.
-/

namespace SharpFront.Condition

variable (defined : String → Bool)

theorem term?_content (t : Token) : term? defined t.content = term? defined t := by
  cases t <;> rfl

def PlacedTerm.content (term : PlacedTerm) : PlacedTerm := (term.1, term.2.content)

def Partial.content : Partial → Partial
  | start => start
  | value b => value b
  | pending b o t => pending b o t.content

theorem foldTerms_content (p : Partial) (terms : List PlacedTerm) :
    foldTerms p.content (terms.map PlacedTerm.content) = foldTerms p terms := by
  fun_induction foldTerms p terms with
  | case1 | case2 | case3 | case5 | case6 | case9 => rfl
  | case4 b t terms ih | case7 b o t terms ih | case8 b o t c t' terms ih => exact ih

def Group.content (g : Group) : Group where
  opener := g.opener.map fun (index, t) => (index, t.content)
  terms := g.terms.map PlacedTerm.content

namespace Reading

def content (r : Reading) : Reading where
  group := r.group.content
  outer := r.outer.map Group.content
  reports := r.reports

theorem closeGroup_content (g : Group) (index : Nat) :
    closeGroup g.content index = closeGroup g index := by
  have terms : foldTerms .start (g.terms.map PlacedTerm.content).reverse =
      foldTerms .start g.terms.reverse := by
    rw [← List.map_reverse]
    exact foldTerms_content .start g.terms.reverse
  cases opener : g.opener with
  | none => simp only [closeGroup, Group.content, opener, Option.map_none, terms]
  | some first =>
    simp only [closeGroup, Group.content, opener, Option.map_some, terms,
      PositionedToken.reportAfter_content]

theorem step_content (r : Reading) (t : PositionedToken) (index : Nat) :
    r.content.step defined (t.content, index) = (r.step defined (t, index)).content := by
  obtain ⟨group, outer, reports⟩ := r
  simp only [step, PositionedToken.token_content, Token.isBrace_content, term?_content]
  split
  · rfl
  · split
    · cases outer with
      | nil => rfl
      | cons parent others =>
        simp only [content, List.map_cons, closeGroup_content]
        rfl
    · split <;> rfl

theorem read_content (tokens : List PositionedToken) :
    read defined (tokens.map PositionedToken.content) = (read defined tokens).content := by
  rw [read, List.zipIdx_map, List.foldl_map]
  change List.foldl _ (content {}) _ = _
  exact List.foldl_hom content fun r entry => step_content defined r entry.1 entry.2

end Reading

theorem unclosed?_content (tokens : List PositionedToken) :
    unclosed? (tokens.map PositionedToken.content) = unclosed? tokens := by
  have steps : (tokens.zipIdx.map (Prod.map PositionedToken.content id)).foldl trackDepth (0, 0) =
      tokens.zipIdx.foldl trackDepth (0, 0) := by
    rw [List.foldl_map]
    congr 1
    funext state entry
    simp only [trackDepth, Prod.map, PositionedToken.token_content, Token.isBrace_content, id_eq]
  rw [unclosed?, List.zipIdx_map, steps]
  rfl

/-- A condition is evaluated by content. -/
theorem evaluate_content (tokens : List PositionedToken) (anchor : PositionedToken) :
    evaluate defined (tokens.map PositionedToken.content) anchor.content =
      evaluate defined tokens anchor := by
  simp only [evaluate, List.isEmpty_map, PositionedToken.reportAfter_content, unclosed?_content]
  split
  · rfl
  · split
    · next start isOpen =>
      have opener : ((tokens.map PositionedToken.content)[start]?.map
          fun t => t.report .invalidExpression) =
            tokens[start]?.map fun t => t.report .invalidExpression := by
        rw [List.getElem?_map, Option.map_map]
        rfl
      rw [opener, ← List.map_take, Reading.read_content]
      rfl
    · have terms : foldTerms .start (Reading.read defined tokens).content.group.terms.reverse =
          foldTerms .start (Reading.read defined tokens).group.terms.reverse := by
        simp only [Reading.content, Group.content, ← List.map_reverse]
        exact foldTerms_content .start _
      rw [Reading.read_content, terms]
      rfl

end SharpFront.Condition
