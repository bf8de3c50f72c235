import LineScopes.Grammar.Compiled
import LineScopes.Scan.State

/-!
# Choosing a match

At a place of a line, the patterns of the open rule and those of the injections whose selectors
accept the scopes compete. The match that starts first wins. Of two that start at the same place
an injection with priority left comes before the open rule, and every other injection comes after
it; among injections the first one listed wins.

**Main definitions.** `ScanPoint`, `Grammar.setInside`, `ruleMatch`, `injectionMatch`, `prefer`,
`nextMatch`.
-/

namespace LineScopes

/-- Where and how a text is being scanned. -/
structure ScanPoint where
  text : String
  /-- Whether `\A` can match. -/
  firstLine : Bool
  pos : Nat
  /-- Where `\G` can match. -/
  anchor : Option Nat

namespace ScanPoint

/-- The anchors in force. -/
def anchors (p : ScanPoint) : Anchors :=
  .ofScan p.firstLine p.anchor p.pos

end ScanPoint

/-- The earliest match of a set. -/
def PatternSet.findAt
    (s : PatternSet)
    (p : ScanPoint) : Except Error (Option PatternMatch) :=
  s.find p.text p.pos p.anchors

namespace Grammar

/-- Whether a rule is a region with an end pattern. -/
def isRegion
    (g : Grammar)
    (id : RuleId) : Bool :=
  match g.rule? id with
  | some (.region _) => true
  | _ => false

/-- The patterns that can match while a frame is on top. A region whose end pattern holds
captured texts has patterns of its own. -/
def setInside
    (g : Grammar)
    (f : Frame) : PatternSet :=
  match f.closing with
  | some text =>
    if g.isRegion f.rule then
      f.patterns.getD (.ofItems g.engine (ruleItems g.rules f.rule (some text)))
    else
      g.sets.inside f.rule
  | none => g.sets.inside f.rule

/-- The pattern that says whether the rule of a frame goes on. -/
def setOnward
    (g : Grammar)
    (f : Frame) : PatternSet :=
  match f.closing with
  | some text => f.patterns.getD (.ofItems g.engine (continuingItems g.rules f.rule (some text)))
  | none => g.sets.onward f.rule

/-- Keeps the patterns of a frame that are its own. -/
def keepInside
    (g : Grammar)
    (f : Frame) : Frame :=
  if f.closing.isSome && g.isRegion f.rule then { f with patterns := some (g.setInside f) } else f

/-- Keeps the continuation pattern of a frame that is its own. -/
def keepOnward
    (g : Grammar)
    (f : Frame) : Frame :=
  if f.closing.isSome then { f with patterns := some (g.setOnward f) } else f

/-- Only the patterns of the frame may change. -/
theorem exists_keepInside_eq
    (g : Grammar)
    (f : Frame) :
    ∃ patterns, g.keepInside f = { f with patterns } := by
  unfold keepInside
  split
  · exact ⟨_, rfl⟩
  · exact ⟨f.patterns, rfl⟩

theorem exists_keepOnward_eq
    (g : Grammar)
    (f : Frame) :
    ∃ patterns, g.keepOnward f = { f with patterns } := by
  unfold keepOnward
  split
  · exact ⟨_, rfl⟩
  · exact ⟨f.patterns, rfl⟩

end Grammar

/-- The match of the open rule. If there is none, the scan may be repeated with `\G` allowed. -/
def ruleMatch
    (g : Grammar)
    (p : ScanPoint)
    (f : Frame) : Reported (Option PatternMatch) := do
  let patterns := g.setInside f
  Reported.reportIf g.options.debug .trace fun _ =>
    "[match_rule] " ++ PatternSet.describe patterns.items
  match ← patterns.findAt p with
  | some m => return some m
  | none =>
    if g.options.retryWithoutAnchor && !p.anchors.allowG then
      patterns.find p.text p.pos p.anchors.withG
    else
      return none

/-- A match of an injection with the priority of the injection. -/
abbrev InjectedMatch := Priority × PatternMatch

/-- Whether a match starts before the best one so far. -/
def improves
    (m : PatternMatch) : Option InjectedMatch → Bool
  | none => true
  | some (_, best) => m.first < best.first

/-- The best match of some injections and the best one so far. A match at the place of the scan
ends the search, because none can be better. -/
def bestInjected
    (g : Grammar)
    (p : ScanPoint) : List Injection → Option InjectedMatch → Reported (Option InjectedMatch)
  | [], best => return best
  | i :: rest, best => do
    match ← (g.sets.inside i.rule).findAt p with
    | none => bestInjected g p rest best
    | some m =>
      if improves m best then
        Reported.reportIf g.options.debug .debug fun _ =>
          "[match_injections] injection " ++ Text.quote i.written ++ " matched at " ++
            toString m.first
        if m.first = p.pos then return some (i.priority, m)
        else bestInjected g p rest (some (i.priority, m))
      else
        bestInjected g p rest best

/-- The best match of the injections that accept the scopes. -/
def injectionMatch
    (g : Grammar)
    (p : ScanPoint)
    (f : Frame) : Reported (Option InjectedMatch) :=
  if g.injections.isEmpty then return none
  else
    let names := f.contentScopes.names
    bestInjected g p (g.injections.filter (·.selector.accepts names)) none

/-- The better one of the match of the open rule and that of an injection. -/
def prefer : Option PatternMatch → Option InjectedMatch → Option PatternMatch
  | own, none => own
  | none, some (_, m) => some m
  | some own, some (priority, m) =>
    if m.first < own.first ∨ (m.first = own.first ∧ priority = .left) then some m else some own

/-- The next match of a line. -/
def nextMatch
    (g : Grammar)
    (p : ScanPoint)
    (f : Frame) : Reported (Option PatternMatch) := do
  let own ← ruleMatch g p f
  let injected ← injectionMatch g p f
  return prefer own injected

end LineScopes
