import LineScopes.Grammar.Document

/-!
# Libraries of grammars

A library holds one grammar for each scope. Every rule in it has an address.

**Main definitions.** `Library`, `Library.get?`, `Library.insert`, `PlacedRule`,
`PlacedRule.children`, `Library.size`.
-/

namespace LineScopes

/-- A rule together with its address. -/
structure PlacedRule where
  address : RuleAddress
  rule : RawRule
deriving Repr

/-- Grammars, one for each scope name. -/
structure Library where
  grammars : List RawGrammar
deriving Repr, Inhabited

namespace Library

/-- The library without grammars. -/
def empty : Library :=
  ⟨[]⟩

/-- The grammar of a scope. -/
def get?
    (l : Library)
    (scope : String) : Option RawGrammar :=
  l.grammars.find? (·.scopeName == scope)

/-- Whether there is a grammar of a scope. -/
def contains
    (l : Library)
    (scope : String) : Bool :=
  (l.get? scope).isSome

/-- Replaces the grammar of a list with the same scope name, or adds one at the end. -/
def replaceGrammar (g : RawGrammar) : List RawGrammar → List RawGrammar
  | [] => [g]
  | h :: rest =>
    if h.scopeName = g.scopeName then g :: rest else h :: replaceGrammar g rest

/-- Stores a grammar in the place of any grammar with the same scope name. -/
def insert
    (l : Library)
    (g : RawGrammar) : Library :=
  ⟨replaceGrammar g l.grammars⟩

/-- The scopes that have a grammar. -/
def scopes (l : Library) : List String :=
  l.grammars.map RawGrammar.scopeName

theorem find?_replaceGrammar_self
    (g : RawGrammar)
    (gs : List RawGrammar) :
    (replaceGrammar g gs).find? (·.scopeName == g.scopeName) = some g := by
  induction gs with
  | nil => simp [replaceGrammar]
  | cons h rest ih =>
    unfold replaceGrammar
    split
    · simp
    · rename_i hne
      simp [hne, ih]

@[simp] theorem get?_insert_self
    (l : Library)
    (g : RawGrammar) :
    (l.insert g).get? g.scopeName = some g :=
  find?_replaceGrammar_self g l.grammars

end Library

/-- The four capture lists of a rule with their roles. -/
def RawRule.captureLists (r : RawRule) : List (CaptureRole × Captures) :=
  [(.shared, r.captures.getD []), (.opening, r.beginCaptures.getD []),
    (.closing, r.endCaptures.getD []), (.continuing, r.whileCaptures.getD [])]

/-- The patterns of a rule with the places they stand at. -/
def placedPatterns
    (a : RuleAddress)
    (patterns : List RawRule) : List PlacedRule :=
  patterns.mapIdx fun i r => ⟨a.step (.pattern i), r⟩

/-- The rules directly inside a rule, with their addresses. -/
def PlacedRule.children (p : PlacedRule) : List PlacedRule :=
  placedPatterns p.address (p.rule.patterns.getD []) ++
    p.rule.captureLists.flatMap (fun (role, captures) =>
      captures.map fun (key, r) => ⟨p.address.step (.capture role key), r⟩) ++
    (p.rule.repository.getD []).map fun (name, r) => ⟨p.address.step (.named name), r⟩

/-- The rules directly inside a grammar, with their addresses. -/
def RawGrammar.children (g : RawGrammar) : List PlacedRule :=
  let root : RuleAddress := ⟨g.scopeName, []⟩
  placedPatterns root g.patterns ++
    (g.repository.getD []).map (fun (name, r) => ⟨root.step (.named name), r⟩) ++
    (g.injections.getD []).map fun (selector, r) => ⟨root.step (.injection selector), r⟩

mutual

/-- How many rules a rule consists of, itself included. -/
def RawRule.size : RawRule → Nat
  | ⟨_, _, _, _, captures, _, beginCaptures, _, endCaptures, _, whileCaptures, patterns,
      repository, _⟩ =>
    1 + sizeOfEntries? captures + sizeOfEntries? beginCaptures + sizeOfEntries? endCaptures +
      sizeOfEntries? whileCaptures + sizeOfRules? patterns + sizeOfEntries? repository

/-- The number of rules in an optional list of entries. -/
def sizeOfEntries? : Option (List (String × RawRule)) → Nat
  | none => 0
  | some entries => sizeOfEntries entries

/-- The number of rules in a list of entries. -/
def sizeOfEntries : List (String × RawRule) → Nat
  | [] => 0
  | (_, r) :: rest => r.size + sizeOfEntries rest

/-- The number of rules in an optional list. -/
def sizeOfRules? : Option (List RawRule) → Nat
  | none => 0
  | some rules => sizeOfRules rules

/-- The number of rules in a list. -/
def sizeOfRules : List RawRule → Nat
  | [] => 0
  | r :: rest => r.size + sizeOfRules rest

end

/-- How many rules a grammar consists of. -/
def RawGrammar.size (g : RawGrammar) : Nat :=
  sizeOfRules g.patterns + sizeOfEntries? g.repository + sizeOfEntries? g.injections

/-- How many rules and grammars a library consists of. -/
def Library.size (l : Library) : Nat :=
  l.grammars.foldr (fun g n => g.size + 1 + n) 0

end LineScopes
