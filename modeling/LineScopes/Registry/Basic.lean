import LineScopes.Grammar.Compiled
import LineScopes.Grammar.Dependency
import LineScopes.Theme.Basic
import LineScopes.Theme.Reader

/-!
# Registries

A registry holds the grammars known so far, as documents and compiled, and the theme they are used
with. Documents are added directly or come from a loader.

**Main definitions.** `Loader`, `Load`, `Registry`, `Registry.Action`, `Registry.store`,
`Registry.compileScope`, `Registry.add`, `Registry.setTheme`.
-/

namespace LineScopes

/-- Where grammar documents come from. -/
structure Loader where
  /-- What is known about a scope: a document, or a failure. -/
  answers : List (String × Except Error RawGrammar) := []
  /-- The scopes of the grammars to inject into a grammar. -/
  injections : List (String × List String) := []
  /-- How often a caller has to come back before a scope is loaded. -/
  delays : List (String × Nat) := []

namespace Loader

/-- The document of a scope, if there is one. -/
def answer
    (l : Loader)
    (scope : String) : Except Error (Option RawGrammar) :=
  match l.answers.lookup scope with
  | none => .ok none
  | some (.ok g) => .ok (some g)
  | some (.error e) => .error e

/-- How often a caller has to come back for a scope. -/
def delay
    (l : Loader)
    (scope : String) : Nat :=
  (l.delays.lookup scope).getD 0

end Loader

/-- How far the load of a scope has got. -/
inductive Load where
  /-- The loader has not been asked yet. -/
  | created
  /-- Callers have to come back this many times. -/
  | waiting (turns : Nat)
  | done (outcome : Except Error Unit)

/-- What is known about grammars, and the theme. -/
structure Registry where
  loader : Option Loader
  engine : Engine
  options : ScanOptions
  theme : Theme
  /-- The documents, by their own scope names. -/
  library : Library
  /-- The scopes of injected grammars, by the scope they are injected into. -/
  injections : List (String × List String)
  /-- The compiled grammars by scope. -/
  compiled : List (String × Grammar)
  /-- The loads that were ever begun, by scope. -/
  loads : List (String × Load)
  /-- The scopes the loader was asked for, in order. -/
  asked : List String

/-- What a registry is made of. -/
structure RegistryOptions where
  theme : Option ThemeDocument := none
  /-- The fixed color numbers, if any. -/
  colorMap : Option (List String) := none
  loader : Option Loader := none
  engine : Engine := regexEngine
  options : ScanOptions := {}

/-- Puts a value under a key, in front of all others. -/
def putFirst {α : Type}
    (key : String)
    (value : α)
    (entries : List (String × α)) : List (String × α) :=
  (key, value) :: entries.filter (·.1 ≠ key)

namespace Registry

/-- A registry without grammars. -/
def ofOptions (o : RegistryOptions) : Except Error Registry := do
  let theme ← Theme.ofDocument o.theme o.colorMap
  return {
    loader := o.loader
    engine := o.engine
    options := o.options
    theme
    library := .empty
    injections := []
    compiled := []
    loads := []
    asked := [] }

/-- An operation on a registry. What it changed stays changed if it fails. -/
def Action (α : Type) : Type :=
  Registry → Registry × Reported α

namespace Action

variable {α β : Type}

/-- Runs one operation, then the next on its value. -/
def andThen
    (x : Action α)
    (f : α → Action β) : Action β := fun r =>
  let (r, first) := x r
  match first.outcome with
  | .error e => (r, ⟨first.entries, .error e⟩)
  | .ok a =>
    let (r, second) := f a r
    (r, ⟨first.entries ++ second.entries, second.outcome⟩)

instance : Monad Action where
  pure a := fun r => (r, pure a)
  bind := andThen

/-- An operation that changes nothing. -/
def ofReported (x : Reported α) : Action α := fun r =>
  (r, x)

/-- The registry itself. -/
def current : Action Registry := fun r =>
  (r, pure r)

/-- Changes the registry. -/
def change (f : Registry → Registry) : Action Unit := fun r =>
  (f r, pure ())

end Action

/-- The scopes of the grammars injected into a grammar. -/
def injectedInto
    (r : Registry)
    (scope : String) : List String :=
  (r.injections.lookup scope).getD []

/-- Stores a document. Its injections replace older ones only if they are given. -/
def store
    (g : RawGrammar)
    (injected : Option (List String)) : Action Unit := do
  Action.ofReported (Reported.report .debug ("[Registry] storing grammar " ++ g.scopeName))
  Action.change fun r => { r with
    library := r.library.insert g
    injections := match injected with
      | some scopes => putFirst g.scopeName scopes r.injections
      | none => r.injections }

/-- What the grammar of a scope is compiled with. -/
def compileRequest
    (r : Registry)
    (base : RawGrammar)
    (language : Nat)
    (settings : Option GrammarSettings) : CompileRequest where
  sources := { library := r.library, base }
  injected := r.injectedInto base.scopeName
  language := language
  settings := settings
  engine := r.engine
  options := r.options

/-- The compiled grammar of a scope. It is compiled once, with the settings asked for first. -/
def compileScope
    (scope : String)
    (language : Nat)
    (settings : Option GrammarSettings) : Action Grammar := fun r =>
  match r.compiled.lookup scope with
  | some g => (r, pure g)
  | none =>
    match r.library.get? scope with
    | none => (r, Reported.fail (.unknownGrammar scope))
    | some base =>
      let result := Grammar.compile (r.compileRequest base language settings)
      match result.outcome with
      | .ok g => ({ r with compiled := putFirst scope g r.compiled }, result)
      | .error _ => (r, result)

/-- Adds a document and compiles it, in the place of any grammar with the same scope. -/
def add
    (g : RawGrammar)
    (injected : List String) : Action Grammar := do
  store g (if injected.isEmpty then none else some injected)
  Action.change fun r => { r with compiled := r.compiled.filter (·.1 ≠ g.scopeName) }
  compileScope g.scopeName 0 none

/-- A grammar that has been compiled. -/
def grammar?
    (r : Registry)
    (scope : String) : Option Grammar :=
  r.compiled.lookup scope

/-- Replaces the theme. -/
def setTheme
    (document : ThemeDocument)
    (colorMap : Option (List String)) : Action Unit := fun r =>
  match Theme.ofDocument (some document) colorMap with
  | .ok theme => ({ r with theme }, pure ())
  | .error e => (r, Reported.fail e)

/-- The colors of the theme by number. -/
def colors (r : Registry) : List String :=
  r.theme.colors.colors

end Registry

end LineScopes
