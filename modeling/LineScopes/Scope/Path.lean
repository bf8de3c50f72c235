/-!
# Scope paths

The scopes around a piece of text form a path: the outermost scope is pushed first, the innermost
last. The empty path has no scope.

**Main definitions.** `ScopePath`, `ScopePath.push`, `ScopePath.pushAll`, `ScopePath.parent`,
`ScopePath.segments`.
-/

namespace LineScopes

/-- A path of scope names. The innermost name comes first, so that pushing is one step. -/
structure ScopePath where
  inward : List String
deriving DecidableEq, Repr, Inhabited

namespace ScopePath

/-- The path without scopes. -/
def empty : ScopePath :=
  ⟨[]⟩

/-- Pushes a name as the new innermost scope. -/
def push
    (p : ScopePath)
    (name : String) : ScopePath :=
  ⟨name :: p.inward⟩

/-- Pushes names one after the other, outermost first. -/
def pushAll
    (p : ScopePath)
    (names : List String) : ScopePath :=
  names.foldl push p

/-- The path of the given names, outermost first. -/
def ofSegments
    (names : List String) : ScopePath :=
  empty.pushAll names

/-- The path around the innermost scope. -/
def parent
    (p : ScopePath) : ScopePath :=
  ⟨p.inward.tail⟩

/-- The innermost name. -/
def innermost?
    (p : ScopePath) : Option String :=
  p.inward.head?

/-- Whether there is no scope. -/
def isEmpty
    (p : ScopePath) : Bool :=
  p.inward.isEmpty

/-- All names, outermost first. -/
def segments
    (p : ScopePath) : List String :=
  p.inward.reverse

/-- The names separated by spaces, outermost first. -/
def text
    (p : ScopePath) : String :=
  " ".intercalate p.segments

/-- The form shown in descriptions. -/
def describe
    (p : ScopePath) : String :=
  "ScopeStack(" ++ p.text ++ ")"

@[simp] theorem segments_empty :
    empty.segments = [] := by
  rfl

@[simp] theorem segments_push
    (p : ScopePath)
    (name : String) :
    (p.push name).segments = p.segments ++ [name] := by
  simp [segments, push]

@[simp] theorem segments_pushAll
    (p : ScopePath)
    (names : List String) :
    (p.pushAll names).segments = p.segments ++ names := by
  induction names generalizing p with
  | nil => simp [pushAll]
  | cons name rest ih =>
    have h := ih (p.push name)
    simp only [pushAll, List.foldl_cons] at h ⊢
    simp [h]

@[simp] theorem segments_ofSegments
    (names : List String) :
    (ofSegments names).segments = names := by
  simp [ofSegments]

end ScopePath

end LineScopes
