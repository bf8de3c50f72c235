import LineScopes.Scan.Coverage
import LineScopes.Token.Brackets
import LineScopes.Token.Override

/-!
# Tokens

The segments of a line become tokens in one of two forms: with all scope names, or as runs of
equal metadata. Selectors may override the token type of a run and decide whether brackets in it
have to be balanced. Each form takes away the added newline in its own way.

**Main definitions.** `Token`, `Run`, `Token.ofSegments`, `Run.ofSegments`, `Run.finished`.
-/

namespace LineScopes

/-- A part of a line with its scope names, outermost first. -/
structure Token where
  first : Nat
  last : Nat
  scopes : List String
deriving DecidableEq, Repr, Inhabited

namespace Token

/-- The token of a segment. -/
def ofSegment (s : Segment) : Token :=
  ⟨s.first, s.last, s.scopes.names⟩

/-- The part of a token that lies in the line; `size` counts the added newline. -/
def withoutNewline
    (size : Nat)
    (t : Token) : Token :=
  if size ≤ t.last then { t with last := size - 1 } else t

/-- The tokens of segments given newest first. Only the newest one can include the newline. -/
def ofSegments
    (size : Nat) : (newest : List Segment) → List Token
  | [] => []
  | s :: rest => ((ofSegment s).withoutNewline size :: rest.map ofSegment).reverse

end Token

/-- A stretch of text with the same metadata and the same answer about brackets. It lasts until
the next run. -/
structure Run where
  first : Nat
  metadata : Metadata
  /-- Whether brackets have to be balanced, if that is asked for. -/
  balanced : Option Bool
deriving DecidableEq, Repr, Inhabited

namespace Run

/-- The run that would start with a segment. Starts are kept in words of 32 bits. The scopes are
only looked at if some selector depends on them. -/
def ofSegment
    (overrides : List TokenTypeOverride)
    (brackets : Option BracketSelectors)
    (s : Segment) : Run :=
  let first := s.first % UInt32.size
  let metadata := s.scopes.metadata?.getD 0
  if overrides.isEmpty && brackets.all BracketSelectors.settled then
    { first, metadata, balanced := brackets.map BracketSelectors.acceptsEverything }
  else
    let names := s.scopes.names
    { first
      metadata := overrides.foldl (TokenTypeOverride.apply names) metadata
      balanced := brackets.map (·.accepts names) }

/-- Adds a run unless the newest one goes on. -/
def append
    (newest : List Run)
    (r : Run) : List Run :=
  match newest with
  | [] => [r]
  | last :: rest =>
    if last.metadata = r.metadata ∧ last.balanced = r.balanced then last :: rest
    else r :: last :: rest

/-- The runs of segments, both newest first. -/
def ofSegments
    (overrides : List TokenTypeOverride)
    (brackets : Option BracketSelectors) : List Segment → List Run
  | [] => []
  | s :: rest =>
    append (ofSegments overrides brackets rest) (ofSegment overrides brackets s)

/-- The runs without one for the added newline alone, newest first. `size` counts the newline. -/
def dropNewline
    (size : Nat) : List Run → List Run
  | [] => []
  | r :: rest => if r.first = size - 1 then rest else r :: rest

/-- The runs of a scanned line, newest first. If none is left, one run covers the line, with the
given scopes. -/
def finished
    (overrides : List TokenTypeOverride)
    (brackets : Option BracketSelectors)
    (c : Coverage)
    (scopes : ScopeList)
    (size : Nat) : List Run :=
  match dropNewline size (ofSegments overrides brackets c.newest) with
  | [] => ofSegments overrides brackets (Coverage.empty.extend scopes size).newest
  | newest => newest

/-- The runs of a scanned line, with a report if the line is covered only now. -/
def finish
    (debug : Bool)
    (overrides : List TokenTypeOverride)
    (brackets : Option BracketSelectors)
    (c : Coverage)
    (scopes : ScopeList)
    (size : Nat) : Reported (List Run) := do
  if (dropNewline size (ofSegments overrides brackets c.newest)).isEmpty then
    Coverage.empty.reportExtend debug scopes size
  return finished overrides brackets c scopes size

@[simp] theorem outcome_finish
    (debug : Bool)
    (overrides : List TokenTypeOverride)
    (brackets : Option BracketSelectors)
    (c : Coverage)
    (scopes : ScopeList)
    (size : Nat) :
    (finish debug overrides brackets c scopes size).outcome =
      .ok (finished overrides brackets c scopes size) := by
  unfold finish
  split
  · simp only [Reported.outcome_bind, Coverage.reportExtend, Reported.outcome_reportIf]
    rfl
  · rfl

end Run

end LineScopes
