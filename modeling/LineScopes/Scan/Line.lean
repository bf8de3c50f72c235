import LineScopes.Scan.Continuation
import LineScopes.Token.Basic

/-!
# Scanning a line

A line is scanned step by step until its end is covered. A newline is added first, since patterns
expect one.

**Bounds.** At one place of a text, frames that were open can be closed, and every rule can be
opened once; then the scan moves on. So the stack grows by at most the number of rules at each
place, which bounds the steps of a scan. Nothing bounds how deep scans of groups are nested in each
other, since every one of them has more scopes around it, which selectors may ask for. So the depth
is a parameter of everything that scans; a scan that would need more fails with `deepScan`, and with
any other outcome a greater depth changes nothing.

**Main definitions.** `run`, `stepBound`, `scanText`, `ScannedLine`, `scanLine`,
`Grammar.tokenizeLine`, `Grammar.encodeLine`, `Grammar.tokenizeText`.

**Main statements.** `outcome_run_succ`: what is reported does not matter for the outcome.
-/

namespace LineScopes

/-- How many scans may begin before the time for a line is over. -/
abbrev TimeLimit := Option Nat

/-- Where a scan ended, and whether it ended early because time was over. -/
structure ScanEnd where
  cursor : Cursor
  stopped : Bool

/-- Repeats steps. The entries reported so far are given newest first. -/
def run
    (s : LineScanner)
    (rescan : Rescan)
    (text : String) : (bound : Nat) → TimeLimit → Cursor → List Entry → Reported ScanEnd
  | 0, _, _, newest => ⟨newest.reverse, .error .endlessScan⟩
  | bound + 1, limit, c, newest =>
    if limit = some 0 then
      let entry : Entry :=
        ⟨.warn, "[tokenize_string] time limit reached at " ++ toString c.pos ++ ", stopping"⟩
      ⟨(entry :: newest).reverse, .ok ⟨c, true⟩⟩
    else
      let r := step s rescan text c
      let newest := r.entries.reverse ++ newest
      match r.outcome with
      | .error e => ⟨newest.reverse, .error e⟩
      | .ok (.finished c) => ⟨newest.reverse, .ok ⟨c, false⟩⟩
      | .ok (.onward c) => run s rescan text bound (limit.map Nat.pred) c newest

theorem outcome_run_entries
    (s : LineScanner)
    (rescan : Rescan)
    (text : String)
    (bound : Nat)
    (limit : TimeLimit)
    (c : Cursor)
    (es es' : List Entry) :
    (run s rescan text bound limit c es).outcome =
      (run s rescan text bound limit c es').outcome := by
  induction bound generalizing limit c es es' with
  | zero => rfl
  | succ bound ih =>
    unfold run
    split
    · rfl
    · dsimp only
      cases (step s rescan text c).outcome with
      | error e => rfl
      | ok p =>
        cases p with
        | finished c => rfl
        | onward c => exact ih _ _ _ _

/-- What follows a step, with a continuation for the case that the scan goes on. -/
def Progress.andThen
    (p : Progress)
    (next : Cursor → Except Error ScanEnd) : Except Error ScanEnd :=
  match p with
  | .finished c => .ok ⟨c, false⟩
  | .onward c => next c

theorem outcome_run_succ
    (s : LineScanner)
    (rescan : Rescan)
    (text : String)
    (bound : Nat)
    (limit : TimeLimit)
    (c : Cursor)
    (es : List Entry) :
    (run s rescan text (bound + 1) limit c es).outcome =
      if limit = some 0 then .ok ⟨c, true⟩
      else (step s rescan text c).outcome.bind fun p => p.andThen fun c =>
        (run s rescan text bound (limit.map Nat.pred) c []).outcome := by
  conv => lhs; unfold run
  split
  · rfl
  · dsimp only
    cases (step s rescan text c).outcome with
    | error e => rfl
    | ok p =>
      cases p with
      | finished c => rfl
      | onward c => exact outcome_run_entries _ _ _ _ _ _ _ _

/-- Enough steps for a text, whatever the rules match. -/
def stepBound
    (g : Grammar)
    (text : String)
    (s : State) : Nat :=
  let places := text.utf8ByteSize + 1
  let rules := g.rules.size + 2
  places * (s.depth + (places + 1) * rules)

/-- Scans a text that is part of a line; scans are nested up to the given depth, this one
included. -/
def rescanText
    (s : LineScanner) : (nesting : Nat) → Rescan
  | 0 => fun _ _ _ _ _ => Reported.fail .deepScan
  | nesting + 1 => fun text firstLine pos state coverage => do
    let start : Cursor := { firstLine, pos, anchor := none, state, coverage }
    let found ←
      run s (rescanText s nesting) text (stepBound s.grammar text state) none start []
    return found.cursor.coverage

/-- Scans a whole line, the added newline included. -/
def scanText
    (s : LineScanner)
    (nesting : Nat)
    (text : String)
    (firstLine : Bool)
    (state : State)
    (limit : TimeLimit) : Reported ScanEnd := do
  let rescan := rescanText s nesting
  let start ← startLine s rescan text firstLine state .empty
  run s rescan text (stepBound s.grammar text start.state) limit start []

/-- A covered line, with the state to go on with on the next line. -/
structure ScannedLine where
  /-- The length of the line with the added newline. -/
  size : Nat
  coverage : Coverage
  state : State
  /-- Whether time was over before the end of the line. -/
  stopped : Bool

/-- The segments of a scanned line, newest first. -/
def ScannedLine.segments (l : ScannedLine) : List Segment :=
  l.coverage.finished l.state.top.contentScopes l.size

/-- The state a line starts with. The first line starts with the scope of the grammar, if it has
a name. -/
def startState
    (s : LineScanner)
    (previous : State) : State :=
  if previous.isInitial then
    let scope := s.grammar.scope
    .root (if scope = "" then .empty else ScopeList.empty.push s.attribution scope)
  else
    previous.reset

/-- Scans a line, given without its line end. -/
def scanLine
    (s : LineScanner)
    (nesting : Nat)
    (line : String)
    (previous : State)
    (limit : TimeLimit) : Reported ScannedLine := do
  let text := line ++ "\n"
  let found ← scanText s nesting text previous.isInitial (startState s previous) limit
  return {
    size := text.utf8ByteSize
    coverage := found.cursor.coverage
    state := found.cursor.state
    stopped := found.stopped }

/-- The tokens of a line. -/
structure TokenizedLine where
  tokens : List Token
  state : State
  stopped : Bool

/-- The runs of a line. -/
structure EncodedLine where
  runs : List Run
  state : State
  stopped : Bool

/-- The answers about brackets, if they are asked for. -/
def EncodedLine.brackets (l : EncodedLine) : Option (List Bool) :=
  l.runs.mapM Run.balanced

namespace Grammar

/-- The scanner for a grammar and a theme. -/
def scanner
    (g : Grammar)
    (theme : Theme) : LineScanner :=
  ⟨g, ⟨g.languages, theme⟩⟩

/-- Tokenizes a line, with scans of groups up to a depth. The state is `State.initial` for the first
line, and for any other one the state left by the line before. -/
def tokenizeLine
    (g : Grammar)
    (nesting : Nat)
    (theme : Theme)
    (line : String)
    (previous : State)
    (limit : TimeLimit) : Reported TokenizedLine := do
  let s := g.scanner theme
  let l ← scanLine s nesting line previous limit
  let segments ← l.coverage.finish s.debug l.state.top.contentScopes l.size
  return { tokens := Token.ofSegments l.size segments, state := l.state, stopped := l.stopped }

/-- Tokenizes a line into runs of metadata. -/
def encodeLine
    (g : Grammar)
    (nesting : Nat)
    (theme : Theme)
    (line : String)
    (previous : State)
    (limit : TimeLimit) : Reported EncodedLine := do
  let s := g.scanner theme
  let l ← scanLine s nesting line previous limit
  let runs ← Run.finish s.debug g.overrides g.brackets l.coverage l.state.top.contentScopes l.size
  return { runs := runs.reverse, state := l.state, stopped := l.stopped }

/-- Tokenizes lines one after the other. -/
def tokenizeLines
    (g : Grammar)
    (nesting : Nat)
    (theme : Theme) : List String → State → Reported (List (List Token))
  | [], _ => return []
  | line :: rest, state => do
    let l ← g.tokenizeLine nesting theme line state none
    return l.tokens :: (← tokenizeLines g nesting theme rest l.state)

/-- A line without one carriage return at its end. -/
def dropReturn (line : String) : String :=
  match line.toList.reverse with
  | '\r' :: rest => String.ofList rest.reverse
  | _ => line

/-- Tokenizes a whole text. -/
def tokenizeText
    (g : Grammar)
    (nesting : Nat)
    (theme : Theme)
    (text : String) : Reported (List (List Token)) :=
  g.tokenizeLines nesting theme ((Text.splitAt '\n' text).map dropReturn) .initial

end Grammar

end LineScopes
