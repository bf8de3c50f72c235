import LineScopes.Grammar.Library

/-!
# Surroundings of a rule

A name is looked up in the repositories around the rule that mentions it.

**Main definitions.** `Layer`, `Surroundings`, `Surroundings.lookup`, `Surroundings.enter`.
-/

namespace LineScopes

/-- A repository in force, with the address of the rule or grammar it belongs to. -/
structure Layer where
  owner : RuleAddress
  entries : Repository

/-- Where includes are resolved from: a grammar and the repositories around, innermost first. The
repository of the grammar itself comes last and is not listed. -/
structure Surroundings where
  grammar : RawGrammar
  layers : List Layer

namespace Surroundings

/-- The surroundings at the root of a grammar. -/
def root (g : RawGrammar) : Surroundings :=
  ⟨g, []⟩

/-- The repository of the grammar itself. -/
def grammarLayer (s : Surroundings) : Layer :=
  ⟨⟨s.grammar.scopeName, []⟩, s.grammar.repository.getD []⟩

/-- The rule with a name, in the innermost repository that has one. -/
def lookup
    (s : Surroundings)
    (name : String) : Option PlacedRule :=
  (s.layers ++ [s.grammarLayer]).findSome? fun layer =>
    (layer.entries.lookup name).map fun r => ⟨layer.owner.step (.named name), r⟩

/-- The surroundings inside a rule that has a repository of its own. -/
def enter
    (s : Surroundings)
    (p : PlacedRule) : Surroundings :=
  match p.rule.repository with
  | some entries => { s with layers := ⟨p.address, entries⟩ :: s.layers }
  | none => s

end Surroundings

end LineScopes
