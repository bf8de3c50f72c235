import LineScopes.Registry.Basic

/-!
# Loading grammars

A caller that wants a grammar goes on in rounds: everything requested is loaded, then the loaded
documents are walked for further requests, until nothing is left. Then the grammar is compiled.
Several callers may be under way at once; they take turns, and a load that one of them began is
shared by all.

**Main definitions.** `GrammarRequest`, `Caller`, `Registry.advanceLoad`, `Registry.poll`,
`Registry.loadAll`, `Registry.load`.
-/

namespace LineScopes

/-- A grammar that is wanted. -/
structure GrammarRequest where
  scope : String
  language : Nat := 0
  settings : Option GrammarSettings := none

/-- How far a caller has got. -/
inductive Phase where
  /-- A round begins. -/
  | between
  /-- The round waits for these scopes; some of them have been loaded. -/
  | awaiting (scopes : List (String × Bool))
  | finished (outcome : Except Error Grammar)

/-- Someone who wants a grammar. -/
structure Caller where
  request : GrammarRequest
  requests : Requests
  phase : Phase

namespace Caller

/-- A caller at the beginning. -/
def start (request : GrammarRequest) : Caller :=
  ⟨request, .start request.scope, .between⟩

/-- Whether the caller has an answer. -/
def isFinished (c : Caller) : Bool :=
  match c.phase with
  | .finished _ => true
  | _ => false

/-- Whether the caller waits. -/
def isAwaiting (c : Caller) : Bool :=
  match c.phase with
  | .awaiting _ => true
  | _ => false

/-- The answer, once there is one. -/
def outcome (c : Caller) : Except Error Grammar :=
  match c.phase with
  | .finished outcome => outcome
  | _ => .error (.unknownGrammar c.request.scope)

end Caller

namespace Registry

/-- Sets how far the load of a scope has got. -/
def setLoad
    (scope : String)
    (load : Load) : Action Unit :=
  Action.change fun r => { r with loads := putFirst scope load r.loads }

/-- Ends the load of a scope: the loader's document is stored. -/
def completeLoad
    (loader : Loader)
    (scope : String) : Action Unit := do
  match loader.answer scope with
  | .error e => setLoad scope (.done (.error e))
  | .ok none => do
    Action.ofReported
      (Reported.report .warn ("[Registry] the loader has no grammar for " ++ scope))
    setLoad scope (.done (.ok ()))
  | .ok (some g) => do
    store g (loader.injections.lookup scope)
    setLoad scope (.done (.ok ()))

/-- Goes on with a load that the loader was asked for. -/
def continueLoad
    (loader : Loader)
    (scope : String)
    (turns : Nat) : Action Bool := do
  match turns with
  | 0 => do
    completeLoad loader scope
    return true
  | n + 1 => do
    setLoad scope (.waiting n)
    return false

/-- One turn of a load. Says whether it is done. -/
def advanceLoad
    (loader : Loader)
    (scope : String) : Action Bool := do
  match (← Action.current).loads.lookup scope with
  | some (.done _) => return true
  | some (.waiting turns) => continueLoad loader scope turns
  | _ => do
    Action.change fun r => { r with asked := r.asked ++ [scope] }
    continueLoad loader scope (loader.delay scope)

/-- The loads needed for a round: one for every request whose grammar is not known. -/
def neededLoads
    (r : Registry)
    (requests : Requests) : List String :=
  (requests.queue.map Request.scope).filter fun scope => !r.library.contains scope

/-- Begins the loads that nobody has begun. -/
def beginLoads (scopes : List String) : Action Unit :=
  Action.change fun r => { r with
    loads := scopes.foldl (fun loads scope =>
      if (loads.lookup scope).isSome then loads else putFirst scope .created loads) r.loads }

/-- One turn of all loads that a caller waits for. -/
def advanceLoads (loader : Loader) : List (String × Bool) → Action (List (String × Bool))
  | [] => return []
  | (scope, isLoaded) :: rest => do
    let isLoaded ← if isLoaded then pure true else advanceLoad loader scope
    return (scope, isLoaded) :: (← advanceLoads loader rest)

/-- The first failure of some loads. -/
def firstFailure
    (r : Registry)
    (scopes : List String) : Except Error Unit :=
  scopes.forM fun scope =>
    match r.loads.lookup scope with
    | some (.done outcome) => outcome
    | _ => .ok ()

/-- Ends a round, after which the caller is at the beginning of the next one. -/
def endRound (c : Caller) : Action Caller := do
  let r ← Action.current
  match c.requests.next r.library r.injectedInto with
  | .ok requests => return { c with requests, phase := .between }
  | .error e => return { c with phase := .finished (.error e) }

/-- Waits for the loads of a round, and ends it once they are done. -/
def awaitLoads
    (loader : Loader)
    (c : Caller)
    (scopes : List (String × Bool)) : Action Caller := do
  let scopes ← advanceLoads loader scopes
  if scopes.all Prod.snd then
    match firstFailure (← Action.current) (scopes.map Prod.fst) with
    | .error e => return { c with phase := .finished (.error e) }
    | .ok () => endRound c
  else
    return { c with phase := .awaiting scopes }

/-- Compiles the grammar of a caller that needs nothing more. -/
def finishCaller (c : Caller) : Action Caller := fun r =>
  let (r, result) := compileScope c.request.scope c.request.language c.request.settings r
  (r, ⟨result.entries, .ok { c with phase := .finished result.outcome }⟩)

/-- Takes a caller one phase further. -/
def advanceCaller (c : Caller) : Action Caller := do
  let r ← Action.current
  match c.phase with
  | .finished _ => return c
  | .between =>
    if c.requests.queue.isEmpty then finishCaller c
    else
      match r.loader with
      | none => endRound c
      | some loader => do
        let scopes := r.neededLoads c.requests
        beginLoads scopes
        awaitLoads loader c (scopes.map (·, false))
  | .awaiting scopes =>
    match r.loader with
    | none => endRound c
    | some loader => awaitLoads loader c scopes

/-- One turn of a caller: it goes on until it has to wait or has its answer. -/
def poll : (bound : Nat) → Caller → Action Caller
  | 0, c => return c
  | bound + 1, c => do
    let c ← advanceCaller c
    if c.isAwaiting || c.isFinished then return c else poll bound c

/-- One turn of every caller in order. -/
def pollAll (bound : Nat) : List Caller → Action (List Caller)
  | [] => return []
  | c :: rest => do
    let c ← if c.isFinished then pure c else poll bound c
    return c :: (← pollAll bound rest)

/-- Turns until every caller has its answer. -/
def pollUntilFinished
    (bound : Nat) : (turns : Nat) → List Caller → Action (List Caller)
  | 0, callers => return callers
  | turns + 1, callers => do
    let callers ← pollAll bound callers
    if callers.all Caller.isFinished then return callers
    else pollUntilFinished bound turns callers

/-- How many requests all documents in reach can make. -/
def requestBound (r : Registry) : Nat :=
  let loaded := (r.loader.map fun l => l.answers.filterMap fun (_, a) => a.toOption).getD []
  let listed := (r.loader.map Loader.injections).getD [] ++ r.injections
  r.library.size + (Library.mk loaded).size + (listed.flatMap Prod.snd).length

/-- The longest time a load may take. -/
def longestDelay (r : Registry) : Nat :=
  ((r.loader.map Loader.delays).getD []).foldl (fun n (_, d) => max n d) 0

/-- All callers take turns until each one has its answer. -/
def loadAll (requests : List GrammarRequest) : Action (List (Except Error Grammar)) := do
  let r ← Action.current
  let rounds := r.requestBound + 3
  let turns := (rounds * requests.length + 1) * (r.longestDelay + 2)
  let callers ← pollUntilFinished rounds turns (requests.map Caller.start)
  return callers.map Caller.outcome

/-- Loads a grammar and everything it needs. -/
def load (request : GrammarRequest) : Action Grammar := do
  let answers ← loadAll [request]
  Action.ofReported (Reported.ofExcept (answers.headD (.error (.unknownGrammar request.scope))))

end Registry

end LineScopes
