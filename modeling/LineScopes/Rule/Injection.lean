import LineScopes.Rule.Compile
import LineScopes.Selector.Written

/-!
# Injections

An injected rule is in force wherever its selector accepts the current scopes, whatever rule is on
top of the stack.

**Main definitions.** `Injection`, `collectInjections`.
-/

namespace LineScopes

/-- An injected rule. -/
structure Injection where
  /-- The selector as written. -/
  written : String
  selector : Selector
  priority : Priority
  rule : RuleId
deriving Repr

namespace Injection

/-- Injections with priority left come first, those with priority right last; otherwise they keep
their places. -/
def sort (injections : List Injection) : List Injection :=
  injections.mergeSort fun a b => a.priority.value ≤ b.priority.value

end Injection

/-- The injections of one rule, one for each alternative of its selector. -/
def injectionsOf
    (text : String)
    (rule : RuleId) : Except Error (List Injection) := do
  let alternatives ← parseSelector text
  return alternatives.map fun a => ⟨text, a.selector, a.priority, rule⟩

/-- A step of a compilation that may fail. -/
abbrev Collecting := ExceptT Error Compiling

/-- The injections a grammar declares for itself. -/
def ownInjections
    (sources : Sources)
    (visitor : Visitor) : List (String × RawRule) → Collecting (List Injection)
  | [] => return []
  | (text, r) :: rest => do
    let root : RuleAddress := ⟨sources.base.scopeName, []⟩
    let id ← visitor (.rule (.root sources.base) ⟨root.step (.injection text), r⟩)
    let here ← ExceptT.mk (pure (injectionsOf text id))
    return here ++ (← ownInjections sources visitor rest)

/-- The injections of other grammars into this one. A grammar without an injection selector is
left out. -/
def foreignInjections
    (sources : Sources)
    (visitor : Visitor) : List String → Collecting (List Injection)
  | [] => return []
  | scope :: rest => do
    match sources.grammar? scope with
    | none =>
      modify fun b => { b with
        entries := ⟨.warn, "[collect_injections] injection grammar " ++ scope ++
          " was not loaded"⟩ :: b.entries }
      foreignInjections sources visitor rest
    | some g =>
      match g.injectionSelector with
      | none => foreignInjections sources visitor rest
      | some text => do
        let id ← visitor (.root g)
        let here ← ExceptT.mk (pure (injectionsOf text id))
        return here ++ (← foreignInjections sources visitor rest)

/-- All injections in order. -/
def collectInjections
    (sources : Sources)
    (visitor : Visitor)
    (injected : List String) : Collecting (List Injection) := do
  let own ← ownInjections sources visitor (sources.base.injections.getD [])
  let foreign ← foreignInjections sources visitor injected
  return Injection.sort (own ++ foreign)

end LineScopes
