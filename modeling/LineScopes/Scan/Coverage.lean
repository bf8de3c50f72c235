import LineScopes.Journal
import LineScopes.Scan.State

/-!
# Covering a line with segments

A scan divides the line into segments from left to right. A segment begins where the one before
ended, so only its end and its scopes are given; an end that has been reached already adds
nothing.

**Main definitions.** `Segment`, `Coverage`, `Coverage.extend`, `Coverage.finished`,
`Coverage.finish`.

**Main statements.** `reached_extend`: the reached offset is the larger one.
-/

namespace LineScopes

/-- A part of a line with its scopes. -/
structure Segment where
  first : Nat
  last : Nat
  scopes : ScopeList
deriving DecidableEq, Repr, Inhabited

/-- How far a line is covered. -/
structure Coverage where
  /-- The segments so far, the newest first. -/
  newest : List Segment
  /-- Where the next segment begins. -/
  reached : Nat
deriving DecidableEq, Repr, Inhabited

namespace Coverage

/-- Nothing is covered yet. -/
def empty : Coverage :=
  ⟨[], 0⟩

/-- Covers the line up to an offset, unless that has been done. -/
def extend
    (c : Coverage)
    (scopes : ScopeList)
    (last : Nat) : Coverage :=
  if c.reached < last then ⟨⟨c.reached, last, scopes⟩ :: c.newest, last⟩ else c

/-- What is reported about an extension. -/
def reportExtend
    (debug : Bool)
    (c : Coverage)
    (scopes : ScopeList)
    (last : Nat) : Reported Unit :=
  Reported.reportIf (debug && decide (c.reached < last)) .trace fun _ =>
    "[produce] [" ++ toString c.reached ++ ".." ++ toString last ++ "] " ++ scopes.path.text

/-- Covers the line up to an offset and reports it. -/
def produce
    (debug : Bool)
    (c : Coverage)
    (scopes : ScopeList)
    (last : Nat) : Reported Coverage := do
  c.reportExtend debug scopes last
  return c.extend scopes last

/-- The segments without one for the added newline alone, newest first. `size` counts the
newline. -/
def dropNewline
    (size : Nat) : List Segment → List Segment
  | [] => []
  | s :: rest => if s.first = size - 1 then rest else s :: rest

/-- The segments of a scanned line, newest first. If none is left, one segment covers the line,
with the given scopes. -/
def finished
    (c : Coverage)
    (scopes : ScopeList)
    (size : Nat) : List Segment :=
  match dropNewline size c.newest with
  | [] => (empty.extend scopes size).newest
  | newest => newest

/-- The segments of a scanned line, with a report if the line is covered only now. -/
def finish
    (debug : Bool)
    (c : Coverage)
    (scopes : ScopeList)
    (size : Nat) : Reported (List Segment) := do
  if (dropNewline size c.newest).isEmpty then empty.reportExtend debug scopes size
  return c.finished scopes size

@[simp] theorem reached_extend
    (c : Coverage)
    (scopes : ScopeList)
    (last : Nat) :
    (c.extend scopes last).reached = max c.reached last := by
  unfold extend
  split
  · simp
    omega
  · omega

@[simp] theorem outcome_produce
    (debug : Bool)
    (c : Coverage)
    (scopes : ScopeList)
    (last : Nat) :
    (c.produce debug scopes last).outcome = .ok (c.extend scopes last) := by
  simp only [produce, Reported.outcome_bind, reportExtend, Reported.outcome_reportIf]
  rfl

@[simp] theorem outcome_finish
    (debug : Bool)
    (c : Coverage)
    (scopes : ScopeList)
    (size : Nat) :
    (c.finish debug scopes size).outcome = .ok (c.finished scopes size) := by
  unfold finish
  split
  · simp only [Reported.outcome_bind, reportExtend, Reported.outcome_reportIf]
    rfl
  · rfl

end Coverage

end LineScopes
