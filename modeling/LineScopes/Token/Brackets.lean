import LineScopes.Selector.Written

/-!
# Text with balanced brackets

Whoever loads a grammar may say by selectors in which text brackets have to be balanced. An
excluding selector wins over an including one.

**Main definitions.** `BracketSelectors`, `BracketSelectors.ofTexts`, `BracketSelectors.accepts`,
`BracketSelectors.settled`.

**Main statements.** `accepts_of_settled`: a settled answer needs no look at the scopes.
-/

namespace LineScopes

/-- Where brackets have to be balanced. -/
structure BracketSelectors where
  balanced : List Selector
  unbalanced : List Selector
  /-- Whether text is included unless an unbalanced selector accepts it. -/
  includesAll : Bool
deriving Repr, Inhabited

namespace BracketSelectors

/-- The selectors of all alternatives of written selectors. -/
def parseAll (texts : List String) : Except Error (List Selector) := do
  return (← texts.mapM parseSelector).flatten.map Alternative.selector

/-- Reads written selectors. A balanced `*` includes everything. -/
def ofTexts
    (balanced unbalanced : List String) : Except Error BracketSelectors := do
  let included ← parseAll (balanced.filter (· ≠ "*"))
  let excluded ← parseAll unbalanced
  return ⟨included, excluded, balanced.contains "*"⟩

/-- Whether brackets have to be balanced in text with the given scopes. -/
def accepts
    (b : BracketSelectors)
    (names : List String) : Bool :=
  if b.unbalanced.any (·.accepts names) then false
  else b.balanced.any (·.accepts names) || b.includesAll

/-- Whether every text is accepted because nothing is excluded. -/
def acceptsEverything (b : BracketSelectors) : Bool :=
  b.includesAll && b.unbalanced.isEmpty

/-- Whether no text is accepted because nothing is included. -/
def acceptsNothing (b : BracketSelectors) : Bool :=
  b.balanced.isEmpty && !b.includesAll

/-- Whether the answer is the same for every text. -/
def settled (b : BracketSelectors) : Bool :=
  b.acceptsEverything || b.acceptsNothing

/-- A settled answer needs no look at the scopes. -/
theorem accepts_of_settled
    {b : BracketSelectors}
    (h : b.settled = true)
    (names : List String) :
    b.accepts names = b.acceptsEverything := by
  rcases b with ⟨balanced, unbalanced, all⟩
  cases balanced <;> cases unbalanced <;> cases all <;>
    simp_all [settled, acceptsEverything, acceptsNothing, accepts]

end BracketSelectors

end LineScopes
