import LineScopes.Scan.Candidate
import LineScopes.Scan.Coverage

/-!
# Captured groups

The groups of a match get scopes of their own, on top of the scopes of the open rule. Groups may
be nested; the innermost open group covers the text up to the next start or end of a group. A
group whose rule has patterns is scanned again as a text of its own.

**Main definitions.** `LineScanner`, `Rescan`, `OpenGroup`, `closeUntil`, `scanGroups`,
`handleCaptures`.
-/

namespace LineScopes

/-- A grammar together with what decides about metadata. -/
structure LineScanner where
  grammar : Grammar
  attribution : Attribution

namespace LineScanner

/-- Whether everything is reported. -/
def debug (s : LineScanner) : Bool :=
  s.grammar.options.debug

/-- Covers the text up to an offset. -/
def produce
    (s : LineScanner)
    (c : Coverage)
    (scopes : ScopeList)
    (last : Nat) : Reported Coverage :=
  c.produce s.debug scopes last

@[simp] theorem outcome_produce_bind
    {α : Type}
    (s : LineScanner)
    (c : Coverage)
    (scopes : ScopeList)
    (last : Nat)
    (f : Coverage → Reported α) :
    (s.produce c scopes last >>= f).outcome = (f (c.extend scopes last)).outcome := by
  rw [Reported.outcome_bind, produce, Coverage.outcome_produce]
  rfl

/-- The scopes inside a rule name that may refer to groups. -/
def pushTemplate
    (s : LineScanner)
    (scopes : ScopeList)
    (name : Option NameTemplate)
    (text : String)
    (groups : Groups) : ScopeList :=
  scopes.pushName s.attribution (name.map (·.resolve text groups))

end LineScanner

/-- Scans a text from an offset on with a given state, and goes on covering the line. -/
abbrev Rescan :=
  (text : String) → (firstLine : Bool) → (pos : Nat) → State → Coverage → Reported Coverage

/-- A group that has been entered: its scopes and its end. -/
structure OpenGroup where
  scopes : ScopeList
  last : Nat

/-- A match whose groups are handled. -/
structure GroupSite where
  text : String
  firstLine : Bool
  /-- The state with the rule of the match on top. -/
  state : State
  groups : Groups
  /-- The end of the match, which is that of its group 0. -/
  last : Nat

/-- The rule of a group with a text that is not empty, and its span. -/
def captureOf?
    (g : Grammar)
    (slot : Option RuleId)
    (span : Option Span) : Option (CaptureRule × Span) :=
  match slot.bind g.rule?, span with
  | some (.capture r), some s => if s.first = s.last then none else some (r, s)
  | _, _ => none

/-- Covers the text of the groups that end at or before an offset, and leaves them. -/
def closeUntil
    (s : LineScanner)
    (first : Nat) : List OpenGroup → Coverage → Reported (List OpenGroup × Coverage)
  | [], c => return ([], c)
  | g :: rest, c =>
    if g.last ≤ first then do
      closeUntil s first rest (← s.produce c g.scopes g.last)
    else
      return (g :: rest, c)

/-- Covers the text of all open groups, the innermost first. -/
def closeAll
    (s : LineScanner) : List OpenGroup → Coverage → Reported Coverage
  | [], c => return c
  | g :: rest, c => do closeAll s rest (← s.produce c g.scopes g.last)

/-- The scopes of the innermost open group, or else of the open rule. -/
def currentScopes
    (site : GroupSite) : List OpenGroup → ScopeList
  | [] => site.state.top.contentScopes
  | g :: _ => g.scopes

/-- Scans a group again, with its rule on top of the stack. -/
def rescanGroup
    (s : LineScanner)
    (rescan : Rescan)
    (site : GroupSite)
    (r : CaptureRule)
    (rule : RuleId)
    (span : Span)
    (c : Coverage) : Reported Coverage := do
  let outer := site.state.top.contentScopes
  let nameScopes := s.pushTemplate outer r.name site.text site.groups
  let contentScopes := s.pushTemplate nameScopes r.contentName site.text site.groups
  Reported.reportIf s.debug .debug fun _ =>
    "[handle_captures] tokenizing capture [" ++ toString span.first ++ ".." ++
      toString span.last ++ "] again"
  let frame := Frame.entered rule (some span.first) none false nameScopes contentScopes
  rescan (Text.slice site.text 0 span.last) (site.firstLine && span.first == 0) span.first
    (site.state.push frame) c

/-- Handles the groups one by one. A group that starts behind the match ends this. -/
def scanGroups
    (s : LineScanner)
    (rescan : Rescan)
    (site : GroupSite) :
    List (Option RuleId × Option Span) → List OpenGroup → Coverage → Reported Coverage
  | [], groups, c => closeAll s groups c
  | (slot, span) :: rest, groups, c =>
    match captureOf? s.grammar slot span with
    | none => scanGroups s rescan site rest groups c
    | some (r, span) =>
      if site.last < span.first then closeAll s groups c
      else do
        let (groups, c) ← closeUntil s span.first groups c
        let c ← s.produce c (currentScopes site groups) span.first
        match r.retokenize with
        | some rule => do
          let c ← rescanGroup s rescan site r rule span c
          scanGroups s rescan site rest groups c
        | none =>
          if r.name.isSome then
            let scopes :=
              s.pushTemplate (currentScopes site groups) r.name site.text site.groups
            scanGroups s rescan site rest (⟨scopes, span.last⟩ :: groups) c
          else
            scanGroups s rescan site rest groups c

/-- Covers the text of the groups of a match that have rules. Nothing is done without such rules, nor
if the match as a whole has no span. -/
def handleCaptures
    (s : LineScanner)
    (rescan : Rescan)
    (site : GroupSite)
    (captures : List (Option RuleId))
    (c : Coverage) : Reported Coverage :=
  if captures.isEmpty || (site.groups.span? 0).isNone then return c
  else scanGroups s rescan site (captures.zip site.groups) [] c

end LineScopes
