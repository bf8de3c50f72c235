import LineScopes.Scan.Step

/-!
# Rules that last line by line

At the start of a line every open rule that lasts line by line is asked whether it goes on, the
outermost one first. Each of them looks at the line behind the match of the one before. The first
one that does not go on is left, and with it everything above it.

**Main definitions.** `linesFrames`, `continueRules`, `startLine`.
-/

namespace LineScopes

/-- The rule of a number, if it lasts line by line. -/
def Grammar.linesRule?
    (g : Grammar)
    (id : RuleId) : Option WhileRule :=
  match g.rule? id with
  | some (.lines r) => some r
  | _ => none

/-- The open rules that last line by line, the outermost first, each with the state in which it is
on top. -/
def linesFrames
    (g : Grammar)
    (s : State) : List (WhileRule × State) :=
  (s.suffixes.filterMap fun t => (g.linesRule? t.top.rule).map (·, t)).reverse

/-- Keeps the continuation patterns of all frames that have their own. -/
def keepContinuations
    (g : Grammar)
    (s : State) : State :=
  let keep := fun f : Frame => if (g.linesRule? f.rule).isSome then g.keepOnward f else f
  ⟨keep s.top, s.below.map keep⟩

/-- Covers the text of a continuation. -/
def handleContinuation
    (s : LineScanner)
    (rescan : Rescan)
    (text : String)
    (c : Cursor)
    (r : WhileRule)
    (state : State)
    (m : PatternMatch) : Reported Cursor := do
  Reported.reportIf s.debug .debug fun _ =>
    "[check_while_conditions] while of " ++ r.opening.text ++ " still matches [" ++
      toString m.first ++ ".." ++ toString m.last ++ "]"
  let coverage ← s.produce c.coverage state.top.contentScopes m.first
  let coverage ←
    handleCaptures s rescan (c.site text m state) r.continuingCaptures coverage
  let coverage ← s.produce coverage state.top.contentScopes m.last
  return { c with coverage, anchor := some m.last }.advance m.last

/-- Asks the rules one after the other. -/
def continueRules
    (s : LineScanner)
    (rescan : Rescan)
    (text : String) : List (WhileRule × State) → Cursor → Reported Cursor
  | [], c => return c
  | (r, state) :: rest, c => do
    let leave : Reported Cursor := do
      Reported.reportIf s.debug .debug fun _ =>
        "[check_while_conditions] while of " ++ r.opening.text ++ " failed, popping"
      return { c with state := state.pop }
    match ← (s.grammar.setOnward state.top).findAt (c.point text) with
    | none => leave
    | some m =>
      if m.label = .continuing then do
        continueRules s rescan text rest (← handleContinuation s rescan text c r state m)
      else
        leave

/-- The start of a line: what goes on of the state left by the line before. `\G` matches at the
start if the rule on top was opened by a match that included the end of its line. -/
def startLine
    (s : LineScanner)
    (rescan : Rescan)
    (text : String)
    (firstLine : Bool)
    (state : State)
    (coverage : Coverage) : Reported Cursor :=
  let state := keepContinuations s.grammar state
  let anchor := if state.top.reachesEnd then some 0 else none
  continueRules s rescan text (linesFrames s.grammar state)
    { firstLine, pos := 0, anchor, state, coverage }

end LineScopes
