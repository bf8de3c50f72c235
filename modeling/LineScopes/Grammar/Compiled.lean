import LineScopes.Regex.Engine
import LineScopes.Rule.Injection
import LineScopes.Rule.PatternSets
import LineScopes.Token.Brackets
import LineScopes.Token.Languages
import LineScopes.Token.Override

/-!
# Compiled grammars

A compiled grammar has everything needed to scan lines but a theme.

**Main definitions.** `Grammar`, `GrammarSettings`, `Grammar.compile`, `Grammar.standalone`.
-/

namespace LineScopes

/-- How lines are scanned. -/
structure ScanOptions where
  /-- Whether every scan, match and segment is reported. -/
  debug : Bool := false
  /-- Whether a scan without result is repeated as if `\G` matched there. -/
  retryWithoutAnchor : Bool := false
deriving DecidableEq, Repr, Inhabited

/-- What is asked for when a grammar is loaded for runs of metadata. -/
structure GrammarSettings where
  embedded : List (String × Nat) := []
  /-- Selectors with the token types they give, in the order they are applied. -/
  tokenTypes : List (String × TokenType) := []
  balanced : List String := []
  unbalanced : List String := []
deriving Repr, Inhabited

/-- A grammar ready to scan lines. -/
structure Grammar where
  scope : String
  rules : RuleTable
  injections : List Injection
  engine : Engine
  sets : PatternSets engine rules
  languages : Languages
  overrides : List TokenTypeOverride
  /-- Where brackets have to be balanced; absent if that is not asked for. -/
  brackets : Option BracketSelectors
  options : ScanOptions

/-- What a grammar is compiled with. -/
structure CompileRequest where
  sources : Sources
  /-- The scopes of the grammars injected into the one compiled. -/
  injected : List String := []
  language : Nat := 0
  settings : Option GrammarSettings := none
  engine : Engine := regexEngine
  options : ScanOptions := {}

namespace Grammar

/-- What the root patterns and the injections are compiled to, if at most `bound` targets are
nested. -/
def buildWithin
    (bound : Nat)
    (r : CompileRequest) : Except Error (List Injection) × Build :=
  let visitor := compileTarget r.sources bound
  let (_, build) := (visitor (.root r.sources.base)).run {}
  (collectInjections r.sources visitor r.injected).run.run build

/-- The rules and injections of a compilation, with its reports. An overflow has ended it before any
other error. -/
def compileWithin
    (bound : Nat)
    (r : CompileRequest) : Except Error (List Injection) × Build :=
  let (outcome, build) := buildWithin bound r
  (if build.overflowed then .error .groupOverflow else outcome, build)

/-- The rules and injections of a compilation with enough room for nested targets. -/
def compileRules (r : CompileRequest) : Except Error (List Injection) × Build :=
  compileWithin (compileBound r.sources) r

theorem compileRules_eq_ok_iff
    {r : CompileRequest}
    {injections : List Injection} :
    (compileRules r).1 = .ok injections ↔
      (compileRules r).2.overflowed = false ∧
        (buildWithin (compileBound r.sources) r).1 = .ok injections := by
  unfold compileRules compileWithin
  dsimp only
  cases (buildWithin (compileBound r.sources) r).2.overflowed <;> simp

/-- Token types for the selectors of the settings. -/
def compileOverrides (settings : GrammarSettings) : Except Error (List TokenTypeOverride) := do
  return (← settings.tokenTypes.mapM fun (text, type) => TokenTypeOverride.ofText text type).flatten

/-- The bracket selectors of the settings. -/
def compileBrackets : Option GrammarSettings → Except Error (Option BracketSelectors)
  | none => .ok none
  | some settings => some <$> BracketSelectors.ofTexts settings.balanced settings.unbalanced

/-- Compiles a grammar. -/
def compile (r : CompileRequest) : Reported Grammar := do
  let (outcome, build) := compileRules r
  let scope := r.sources.base.scopeName
  build.entries.reverse.forM fun e => Reported.report e.level e.text
  let injections ← Reported.ofExcept outcome
  Reported.reportIf (build.missing > 0) .warn fun _ =>
    "[Grammar::compile] " ++ scope ++ ": " ++ toString build.missing ++
      " include(s) could not be resolved"
  Reported.report .debug ("[Grammar::compile] " ++ scope ++ ": " ++ toString build.rules.size ++
    " rules, " ++ toString injections.length ++ " injections")
  let settings := r.settings.getD {}
  let overrides ← Reported.ofExcept (compileOverrides settings)
  let brackets ← Reported.ofExcept (compileBrackets r.settings)
  return {
    scope
    rules := build.rules
    injections
    engine := r.engine
    sets := .ofTable r.engine build.rules
    languages := { initial := r.language, embedded := settings.embedded }
    overrides
    brackets
    options := r.options }

/-- Compiles a grammar that knows no other one. -/
def standalone (g : RawGrammar) : Reported Grammar :=
  compile { sources := { library := .empty, base := g } }

/-- The rule with a number. -/
def rule?
    (g : Grammar)
    (id : RuleId) : Option Rule :=
  g.rules[id]?

end Grammar

end LineScopes
