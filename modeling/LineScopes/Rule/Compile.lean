import LineScopes.Grammar.Library
import LineScopes.Grammar.Reference
import LineScopes.Grammar.Surroundings
import LineScopes.Journal
import LineScopes.Rule.Table

/-!
# Compiling grammars

The rules of a grammar, and of everything it includes, become one table. A number is reserved
before the body of a rule is compiled, so a rule may include itself. Each rule and each grammar
is compiled once; it is known by its address.

**Main definitions.** `Build`, `Target`, `visit`, `compileTarget`, `compileBound`.
-/

namespace LineScopes

/-- What a compilation works from. -/
structure Sources where
  library : Library
  /-- The grammar being tokenized. -/
  base : RawGrammar

namespace Sources

/-- A grammar of the library; the grammar being tokenized is always known. -/
def grammar?
    (s : Sources)
    (scope : String) : Option RawGrammar :=
  match s.library.get? scope with
  | some g => some g
  | none => if s.base.scopeName = scope then some s.base else none

end Sources

/-- What gets a number of its own. -/
inductive Target where
  | rule (surroundings : Surroundings) (placed : PlacedRule)
  /-- The root patterns of a grammar. -/
  | root (grammar : RawGrammar)

/-- The table under construction. -/
structure Build where
  rules : RuleTable := #[]
  /-- The numbers of the rules met so far. -/
  ruleIds : List (RuleAddress × RuleId) := []
  /-- The numbers of the grammars met so far. -/
  grammarIds : List (String × RuleId) := []
  /-- How many includes could not be resolved. -/
  missing : Nat := 0
  /-- Whether the captures of some rule need a longer list than there can be. -/
  overflowed : Bool := false
  /-- What has been reported, the newest first. -/
  entries : List Entry := []

namespace Build

/-- The number of a target that has been met. -/
def idOf?
    (b : Build) : Target → Option RuleId
  | .rule _ p => b.ruleIds.lookup p.address
  | .root g => b.grammarIds.lookup g.scopeName

/-- Reserves the next number for a target. -/
def reserve
    (b : Build)
    (t : Target) : Build :=
  let id := b.rules.size
  let b := { b with rules := b.rules.push .pending }
  match t with
  | .rule _ p => { b with ruleIds := (p.address, id) :: b.ruleIds }
  | .root g => { b with grammarIds := (g.scopeName, id) :: b.grammarIds }

/-- Fills a reserved place. -/
def fill
    (b : Build)
    (id : RuleId)
    (r : Rule) : Build :=
  { b with rules := b.rules.setIfInBounds id r }

/-- Adds a rule that no include can refer to. -/
def push
    (b : Build)
    (r : Rule) : Build :=
  { b with rules := b.rules.push r }

/-- Notes an include that could not be resolved. -/
def noteMissing
    (b : Build)
    (text scope : String) : Build :=
  { b with
    missing := b.missing + 1
    entries :=
      ⟨.warn, "[compile] could not resolve include `" ++ text ++ "` in " ++ scope⟩ :: b.entries }

/-- Notes captures that need a longer list than there can be. -/
def noteOverflow (b : Build) : Build :=
  { b with overflowed := true }

/-- Whether the rule with a number is inert. -/
def isInert
    (b : Build)
    (id : RuleId) : Bool :=
  (b.rules[id]?.map Rule.isInert).getD false

end Build

/-- A step of a compilation. -/
abbrev Compiling := StateM Build

/-- A function that gives targets their numbers. -/
abbrev Visitor := Target → Compiling RuleId

/-- What an include refers to. -/
def targetOf?
    (sources : Sources)
    (s : Surroundings) : Reference → Option Target
  | .base => some (.root sources.base)
  | .self => some (.root s.grammar)
  | .named "$base" => some (.root sources.base)
  | .named "$self" => some (.root s.grammar)
  | .named name => (s.lookup name).map (.rule s)
  | .whole scope => (sources.grammar? scope).map .root
  | .part scope name => do
    let g ← sources.grammar? scope
    let placed ← (Surroundings.root g).lookup name
    return .rule (.root g) placed

/-- The number of what an include refers to, if it can be resolved. -/
def compileReference
    (sources : Sources)
    (visitor : Visitor)
    (s : Surroundings)
    (text : String) : Compiling (Option RuleId) := do
  match targetOf? sources s (.ofText text) with
  | some t => return some (← visitor t)
  | none =>
    modify (·.noteMissing text s.grammar.scopeName)
    return none

/-- The number of a pattern. A pattern that includes something stands for what it includes. -/
def compilePattern
    (sources : Sources)
    (visitor : Visitor)
    (s : Surroundings)
    (p : PlacedRule) : Compiling (Option RuleId) :=
  match p.rule.reference with
  | some text => compileReference sources visitor s text
  | none => some <$> visitor (.rule s p)

/-- The numbers of a list of patterns, and whether some could not be resolved. Inert rules are left
out. -/
def compilePatterns
    (sources : Sources)
    (visitor : Visitor)
    (s : Surroundings) : List PlacedRule → Compiling (List RuleId × Bool)
  | [] => return ([], false)
  | p :: rest => do
    match ← compilePattern sources visitor s p with
    | none =>
      let (ids, _) ← compilePatterns sources visitor s rest
      return (ids, true)
    | some id =>
      let inert := (← get).isInert id
      let (ids, missing) ← compilePatterns sources visitor s rest
      return (if inert then ids else id :: ids, missing)

/-- The captures with a number as key, in the order of their keys. -/
def numbered (captures : Captures) : List (Nat × String × RawRule) :=
  captures.filterMap fun (key, r) => (Text.Decimal.index? key).map (·, key, r)

/-- A capture with patterns of its own is also compiled as a rule, which tokenizes the captured text
again. -/
def compileRetokenized
    (visitor : Visitor)
    (s : Surroundings)
    (p : PlacedRule) : Compiling (Option RuleId) :=
  if p.rule.patterns.isSome then some <$> visitor (.rule s p) else return none

/-- Adds the rule of a captured group. -/
def compileCapture
    (visitor : Visitor)
    (s : Surroundings)
    (owner : RuleAddress)
    (role : CaptureRole)
    (slots : List (Option RuleId)) :
    Nat × String × RawRule → Compiling (List (Option RuleId))
  | (n, key, r) => do
    let retokenize ← compileRetokenized visitor s ⟨owner.step (.capture role key), r⟩
    let id := (← get).rules.size
    modify (·.push (.capture {
      name := NameTemplate.ofName? r.name
      contentName := NameTemplate.ofName? r.contentName
      retokenize }))
    return slots.set n (some id)

/-- The length of a list with a slot for every group. -/
def slotCount (wanted : List (Nat × String × RawRule)) : Nat :=
  (wanted.map fun (n, _) => n + 1).foldl max 0

/-- The length of the longest list of slots there can be: a slot takes eight bytes, and a list takes
less than half of the bytes a word can count. -/
def slotLimit : Nat :=
  (UInt64.size / 2 - 1) / 8

/-- The rules of captured groups by group number. If no list is long enough for the greatest number,
the program panics. This is noted here, and what is compiled from there on does not matter. -/
def compileCaptures
    (visitor : Visitor)
    (s : Surroundings)
    (owner : RuleAddress)
    (role : CaptureRole)
    (captures : Captures) : Compiling (List (Option RuleId)) := do
  let wanted := numbered captures
  if slotLimit < slotCount wanted then
    modify Build.noteOverflow
    wanted.foldlM (compileCapture visitor s owner role) []
  else
    wanted.foldlM (compileCapture visitor s owner role) (List.replicate (slotCount wanted) none)

/-- The captures of a delimiter; the shared ones if it has none of its own. -/
def compileDelimiterCaptures
    (visitor : Visitor)
    (s : Surroundings)
    (p : PlacedRule)
    (role : CaptureRole)
    (own : Option Captures) : Compiling (List (Option RuleId)) :=
  match own, p.rule.captures with
  | some captures, _ => compileCaptures visitor s p.address role captures
  | none, some captures => compileCaptures visitor s p.address .shared captures
  | none, none => return []

/-- A text that is set and not empty. -/
def nonEmpty (t : Option String) : Option String :=
  t.filter (· ≠ "")

/-- The end of a region whose end pattern is missing; it never matches. -/
def neverEnds : String :=
  "\uffff"

/-- What a rule without a pattern of its own holds: its patterns, or else what it includes. -/
def compileHeld
    (sources : Sources)
    (visitor : Visitor)
    (s : Surroundings)
    (p : PlacedRule) : Compiling (List RuleId × Bool) :=
  match p.rule.patterns, p.rule.reference with
  | none, some text => do
    match ← compileReference sources visitor s text with
    | some id => return ([id], false)
    | none => return ([], true)
  | patterns, _ =>
    compilePatterns sources visitor s (placedPatterns p.address (patterns.getD []))

/-- Compiles the body of a rule. -/
def compileRule
    (sources : Sources)
    (visitor : Visitor)
    (s : Surroundings)
    (p : PlacedRule) : Compiling Rule := do
  let name := NameTemplate.ofName? p.rule.name
  let contentName := NameTemplate.ofName? p.rule.contentName
  let children := placedPatterns p.address (p.rule.patterns.getD [])
  match nonEmpty p.rule.matchPattern, nonEmpty p.rule.beginPattern with
  | some pattern, _ =>
    let captures ← compileDelimiterCaptures visitor s p .shared none
    return .simple { name, pattern := .ofPattern pattern, captures }
  | none, some opening =>
    let (patterns, missing) ← compilePatterns sources visitor s children
    match nonEmpty p.rule.whilePattern with
    | some continuing =>
      let openingCaptures ← compileDelimiterCaptures visitor s p .opening p.rule.beginCaptures
      let continuingCaptures ←
        compileDelimiterCaptures visitor s p .continuing p.rule.whileCaptures
      return .lines {
        name, contentName, patterns, missing, openingCaptures, continuingCaptures
        opening := .ofPattern opening
        continuing := .ofPattern continuing }
    | none =>
      let closing := (nonEmpty p.rule.endPattern).getD neverEnds
      let openingCaptures ← compileDelimiterCaptures visitor s p .opening p.rule.beginCaptures
      let closingCaptures ← compileDelimiterCaptures visitor s p .closing p.rule.endCaptures
      return .region {
        name, contentName, patterns, missing, openingCaptures, closingCaptures
        opening := .ofPattern opening
        closing := .ofPattern closing
        closingLast := p.rule.endLast }
  | none, none =>
    let (patterns, missing) ← compileHeld sources visitor (s.enter p) p
    return .group { name, contentName, patterns, missing }

/-- Compiles the root patterns of a grammar. -/
def compileRoot
    (sources : Sources)
    (visitor : Visitor)
    (g : RawGrammar) : Compiling Rule := do
  let children := placedPatterns ⟨g.scopeName, []⟩ g.patterns
  let (patterns, missing) ← compilePatterns sources visitor (.root g) children
  return .group {
    name := NameTemplate.ofName? (some g.scopeName)
    contentName := none
    patterns, missing }

/-- The number of a target: the one it has, or a new one for its compiled body. -/
def visit
    (sources : Sources)
    (visitor : Visitor)
    (t : Target) : Compiling RuleId := do
  match (← get).idOf? t with
  | some id => return id
  | none =>
    let id := (← get).rules.size
    modify (·.reserve t)
    let r ← match t with
      | .rule s p => compileRule sources visitor s p
      | .root g => compileRoot sources visitor g
    modify (·.fill id r)
    return id

/-- Compiles a target in which at most `bound` targets are nested. -/
def compileTarget
    (sources : Sources) : (bound : Nat) → Visitor
  | 0, t => do
    let id := (← get).rules.size
    modify (·.reserve t)
    return id
  | bound + 1, t => visit sources (compileTarget sources bound) t

/-- Nested targets are all different, so there are no more than rules and grammars. -/
def compileBound (sources : Sources) : Nat :=
  sources.library.size + sources.base.size + 2

end LineScopes
