import LineScopes.Error
import LineScopes.Grammar.Library
import LineScopes.Grammar.Reference
import LineScopes.Grammar.Surroundings

/-!
# Dependencies between grammars

Before a grammar can be compiled, the grammars it refers to have to be loaded. This goes in
rounds: everything requested is loaded, then what was loaded is walked for references that were
never requested.

**Main definitions.** `Request`, `Walk`, `walkRule`, `Requests`, `Requests.next`.
-/

namespace LineScopes

/-- What is requested of another grammar. -/
inductive Request where
  /-- The grammar with everything it includes. -/
  | whole (scope : String)
  /-- A named rule of the grammar. -/
  | part (scope name : String)
deriving DecidableEq, Repr

namespace Request

/-- The grammar that is needed. -/
def scope : Request → String
  | whole s => s
  | part s _ => s

/-- The text by which requests are told apart. -/
def key : Request → String
  | whole s => s
  | part s n => s ++ "#" ++ n

end Request

/-- What a walk has found. -/
structure Walk where
  /-- The requests found, in the order they were met. -/
  found : List Request := []
  /-- The rules walked so far; none is walked twice. -/
  visited : List RuleAddress := []

namespace Walk

/-- Adds a request unless one with the same key was found. -/
def add
    (w : Walk)
    (r : Request) : Walk :=
  if w.found.any (·.key == r.key) then w else { w with found := w.found ++ [r] }

/-- Marks a rule as walked. -/
def mark
    (w : Walk)
    (a : RuleAddress) : Walk :=
  { w with visited := a :: w.visited }

end Walk

/-- The rules at the root of a grammar, those it injects into itself included. -/
def rootRules (g : RawGrammar) : List PlacedRule :=
  let root : RuleAddress := ⟨g.scopeName, []⟩
  placedPatterns root g.patterns ++
    (g.injections.getD []).map fun (selector, r) => ⟨root.step (.injection selector), r⟩

/-- The patterns of a rule, then its captures. -/
def innerRules (p : PlacedRule) : List PlacedRule :=
  placedPatterns p.address (p.rule.patterns.getD []) ++
    p.rule.captureLists.flatMap fun (role, captures) =>
      captures.map fun (key, r) => ⟨p.address.step (.capture role key), r⟩

/-- The grammar with a scope among the one walked and the initial one. -/
def knownGrammar
    (base self : RawGrammar)
    (scope : String) : Option RawGrammar :=
  if scope = self.scopeName then some self
  else if scope = base.scopeName then some base
  else none

/-- The rules an include leads to without loading anything, with their surroundings, or else the
request it makes. -/
def followReference
    (base : RawGrammar)
    (s : Surroundings) : Reference → (Surroundings × List PlacedRule) ⊕ Request
  | .base => .inl (.root base, rootRules base)
  | .self => .inl (.root s.grammar, rootRules s.grammar)
  | .named name => .inl (s, (s.lookup name).toList)
  | .whole scope =>
    match knownGrammar base s.grammar scope with
    | some g => .inl (.root g, rootRules g)
    | none => .inr (.whole scope)
  | .part scope name =>
    match knownGrammar base s.grammar scope with
    | some g => .inl (.root g, ((Surroundings.root g).lookup name).toList)
    | none => .inr (.part scope name)

/-- Walks a rule and everything it leads to. Nested rules are all different, which bounds how
deep the walk goes. -/
def walkRule
    (base : RawGrammar) : (bound : Nat) → Surroundings → PlacedRule → Walk → Walk
  | 0, _, _, w => w
  | bound + 1, s, p, w =>
    if w.visited.contains p.address then w
    else
      let s := s.enter p
      let w := (innerRules p).foldl (fun w q => walkRule base bound s q w) (w.mark p.address)
      match p.rule.reference with
      | none => w
      | some text =>
        match followReference base s (.ofText text) with
        | .inl (s', rules) => rules.foldl (fun w q => walkRule base bound s' q w) w
        | .inr request => w.add request

/-- Walks what a request asks for in its grammar. -/
def walkRequest
    (base self : RawGrammar)
    (r : Request)
    (w : Walk) : Walk :=
  let bound := base.size + self.size + 1
  let s := Surroundings.root self
  let rules := match r with
    | .whole _ => rootRules self
    | .part _ name => (s.lookup name).toList
  rules.foldl (fun w q => walkRule base bound s q w) w

/-- The requests of all rounds. -/
structure Requests where
  /-- The grammar everything starts from. -/
  initial : String
  /-- The scopes requested as a whole. -/
  wholes : List String
  /-- The keys of the requested parts. -/
  parts : List String
  /-- What is to be loaded in this round. -/
  queue : List Request
deriving DecidableEq, Repr

namespace Requests

/-- Starts with the grammar of a scope. -/
def start (scope : String) : Requests :=
  ⟨scope, [scope], [], [.whole scope]⟩

/-- Puts a request into the queue unless it is covered by an earlier one. -/
def enqueue
    (q : Requests)
    (r : Request) : Requests :=
  if q.wholes.contains r.scope then q
  else
    match r with
    | .whole scope => { q with wholes := scope :: q.wholes, queue := q.queue ++ [r] }
    | .part _ _ =>
      if q.parts.contains r.key then q
      else { q with parts := r.key :: q.parts, queue := q.queue ++ [r] }

/-- Walks one loaded request and adds the grammars injected into its grammar. A grammar that is
not known is skipped, but the initial one has to be known. -/
def collect
    (initial : String)
    (library : Library)
    (injected : String → List String)
    (w : Walk)
    (r : Request) : Except Error Walk :=
  match library.get? r.scope with
  | none => if r.scope = initial then .error (.unknownGrammar initial) else .ok w
  | some self =>
    match library.get? initial with
    | none => .error (.unknownGrammar initial)
    | some base =>
      .ok ((injected r.scope).foldl (fun w s => w.add (.whole s)) (walkRequest base self r w))

/-- Ends a round: the queue is replaced by the new requests of what has been loaded. -/
def next
    (q : Requests)
    (library : Library)
    (injected : String → List String) : Except Error Requests := do
  let w ← q.queue.foldlM (collect q.initial library injected) {}
  return w.found.foldl enqueue { q with queue := [] }

/-- Ends a round, also one that fails: then nothing is left in the queue. -/
def advance
    (q : Requests)
    (library : Library)
    (injected : String → List String) : Requests × Except Error Unit :=
  match q.next library injected with
  | .ok q' => (q', .ok ())
  | .error e => ({ q with queue := [] }, .error e)

end Requests

end LineScopes
