import LineScopes.Scan.Captures

/-!
# One step of a scan

A step finds the next match and handles it: an end pattern closes the region on top, a region or a
rule that lasts line by line is opened, and any other rule is entered and left at once. A match
that would let the scan go round in circles is undone and one character is skipped.

**Main definitions.** `Cursor`, `Handled`, `handleClosing`, `handleRule`, `Progress`, `step`.
-/

namespace LineScopes

/-- Where a scan of a text has got to. -/
structure Cursor where
  /-- Whether `\A` can match. -/
  firstLine : Bool
  pos : Nat
  /-- Where `\G` can match. -/
  anchor : Option Nat
  state : State
  coverage : Coverage

namespace Cursor

/-- The place of the next match. -/
def point
    (c : Cursor)
    (text : String) : ScanPoint :=
  ⟨text, c.firstLine, c.pos, c.anchor⟩

/-- Keeps the patterns of the top frame. -/
def kept
    (g : Grammar)
    (c : Cursor) : Cursor :=
  { c with state := c.state.mapTop g.keepInside }

/-- Moves to the end of a match if that is further on. -/
def advance
    (c : Cursor)
    (last : Nat) : Cursor :=
  if c.pos < last then { c with pos := last, firstLine := false } else c

end Cursor

/-- What has become of a match. -/
structure Handled where
  anchor : Option Nat
  state : State
  coverage : Coverage
  /-- The state to go on with, if the match must not be handled again. -/
  recovery : Option State

/-- What is given to the groups of a match. -/
def Cursor.site
    (c : Cursor)
    (text : String)
    (m : PatternMatch)
    (state : State) : GroupSite where
  text := text
  firstLine := c.firstLine
  state := state
  groups := m.groups
  last := m.last

/-- The captures of the end pattern of a rule. -/
def closingCaptures : Option Rule → List (Option RuleId)
  | some (.region r) => r.closingCaptures
  | _ => []

/-- Closes the region on top. A region that was opened at the same place is kept. -/
def handleClosing
    (s : LineScanner)
    (rescan : Rescan)
    (text : String)
    (c : Cursor)
    (m : PatternMatch) : Reported Handled := do
  let captures := closingCaptures (s.grammar.rule? c.state.top.rule)
  let coverage ← s.produce c.coverage c.state.top.contentScopes m.first
  let closed := c.state.mapTop fun f => f.withContentScopes f.nameScopes
  let coverage ← handleCaptures s rescan (c.site text m closed) captures coverage
  let coverage ← s.produce coverage closed.top.contentScopes m.last
  let stuck := m.last ≤ c.pos && closed.top.enter == some c.pos
  Reported.reportIf stuck .warn fun _ =>
    "[tokenize_string] grammar pushed and popped a rule without advancing at " ++ toString c.pos
  return {
    anchor := closed.top.anchor
    state := closed.pop
    coverage
    recovery := if stuck then some closed else none }

/-- The captures of the begin pattern of a rule that stays open, and the pattern that ends it. -/
def openingOf? : Rule → Option (List (Option RuleId) × PatternSource)
  | .region r => some (r.openingCaptures, r.closing)
  | .lines r => some (r.openingCaptures, r.continuing)
  | _ => none

/-- The captures of a rule that does not stay open. -/
def simpleCaptures : Rule → List (Option RuleId)
  | .simple r => r.captures
  | _ => []

/-- Inserts captured texts into the end pattern of the frame on top, if it refers to any. -/
def resolveClosing
    (closing : PatternSource)
    (text : String)
    (groups : Groups)
    (state : State) : State :=
  if closing.hasBackReferences then
    state.mapTop (·.withClosing (closing.resolve text groups))
  else
    state

/-- Opens a rule that stays open. A rule that was opened at the same place already is left at
once. -/
def handleOpening
    (s : LineScanner)
    (rescan : Rescan)
    (text : String)
    (c : Cursor)
    (m : PatternMatch)
    (rule : Rule)
    (entered : State)
    (captures : List (Option RuleId))
    (closing : PatternSource)
    (coverage : Coverage) : Reported Handled := do
  Reported.reportIf s.debug .debug fun _ => "[tokenize_string] pushing " ++ rule.label
  let coverage ← handleCaptures s rescan (c.site text m entered) captures coverage
  let coverage ← s.produce coverage entered.top.contentScopes m.last
  let contentScopes :=
    s.pushTemplate entered.top.nameScopes rule.contentName text m.groups
  let opened := resolveClosing closing text m.groups
    (entered.mapTop (·.withContentScopes contentScopes))
  let stuck := m.last ≤ c.pos && c.state.hasSameRuleAs opened
  Reported.reportIf stuck .warn fun _ =>
    "[tokenize_string] " ++ rule.label ++ " pushed again at " ++ toString c.pos ++
      " without advancing"
  return {
    anchor := some m.last
    state := opened
    coverage
    recovery := if stuck then some opened.pop else none }

/-- Enters and leaves a rule. If it did not advance, the frame below is left, too. -/
def handleSimple
    (s : LineScanner)
    (rescan : Rescan)
    (text : String)
    (c : Cursor)
    (m : PatternMatch)
    (rule : Rule)
    (entered : State)
    (coverage : Coverage) : Reported Handled := do
  let coverage ←
    handleCaptures s rescan (c.site text m entered) (simpleCaptures rule) coverage
  let coverage ← s.produce coverage entered.top.contentScopes m.last
  let left := entered.pop
  let stuck := decide (m.last ≤ c.pos)
  Reported.reportIf stuck .warn fun _ =>
    "[tokenize_string] " ++ rule.label ++ " matched without advancing at " ++ toString c.pos
  return {
    anchor := c.anchor
    state := left
    coverage
    recovery := if stuck then some left.pop else none }

/-- Enters the rule of a match. -/
def handleRule
    (s : LineScanner)
    (rescan : Rescan)
    (text : String)
    (c : Cursor)
    (m : PatternMatch)
    (id : RuleId)
    (rule : Rule) : Reported Handled := do
  let coverage ← s.produce c.coverage c.state.top.contentScopes m.first
  let scopes := s.pushTemplate c.state.top.contentScopes rule.name text m.groups
  let entered := c.state.push
    (.entered id (some c.pos) c.anchor (m.last == text.utf8ByteSize) scopes scopes)
  match openingOf? rule with
  | some (captures, closing) =>
    handleOpening s rescan text c m rule entered captures closing coverage
  | none => handleSimple s rescan text c m rule entered coverage

/-- What follows a step. -/
inductive Progress where
  | onward (c : Cursor)
  | finished (c : Cursor)

/-- Covers the rest of the text and ends the scan. -/
def finishText
    (s : LineScanner)
    (text : String)
    (c : Cursor) : Reported Progress := do
  let coverage ← s.produce c.coverage c.state.top.contentScopes text.utf8ByteSize
  return .finished { c with coverage }

/-- Goes on behind a match. After a recovery one character is skipped. -/
def proceed
    (s : LineScanner)
    (text : String)
    (c : Cursor)
    (m : PatternMatch)
    (h : Handled) : Reported Progress := do
  let c := { c with anchor := h.anchor, state := h.state, coverage := h.coverage }
  match h.recovery with
  | none => return .onward (c.advance m.last)
  | some state =>
    let next := Text.nextOffset text c.pos
    let coverage ←
      s.produce c.coverage state.top.contentScopes (min next text.utf8ByteSize)
    let c := { c with state, coverage }
    if text.utf8ByteSize ≤ next then return .finished c
    else return .onward { c with pos := next, firstLine := false }

/-- The number of a match in a report. -/
def reportMatch
    (text : String)
    (m : PatternMatch) : String :=
  "[tokenize_string] matched " ++ m.label.describe ++ " [" ++ toString m.first ++ ".." ++
    toString m.last ++ "] " ++ Text.quote (Text.slice text m.first m.last)

/-- Handles a match and goes on behind it. -/
def handleMatch
    (s : LineScanner)
    (rescan : Rescan)
    (text : String)
    (c : Cursor)
    (m : PatternMatch) : Reported Progress :=
  match m.label with
  | .closing => do proceed s text c m (← handleClosing s rescan text c m)
  | .continuing => finishText s text c
  | .rule id =>
    match s.grammar.rule? id with
    | none => finishText s text c
    | some rule => do proceed s text c m (← handleRule s rescan text c m id rule)

/-- Finds and handles the next match. -/
def step
    (s : LineScanner)
    (rescan : Rescan)
    (text : String)
    (c : Cursor) : Reported Progress := do
  Reported.reportIf s.debug .trace fun _ =>
    "[tokenize_string] scanning " ++ toString c.pos ++ ": |" ++
      Text.quote (Text.sliceFrom text c.pos) ++ "|"
  let c := c.kept s.grammar
  match ← nextMatch s.grammar (c.point text) c.state.top with
  | none => do
    Reported.reportIf s.debug .debug fun _ => "[tokenize_string] no more matches"
    finishText s text c
  | some m => do
    Reported.reportIf s.debug .debug fun _ => reportMatch text m
    handleMatch s rescan text c m

end LineScopes
