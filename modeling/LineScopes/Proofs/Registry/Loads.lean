import LineScopes.Proofs.Registry.Operations
import LineScopes.Registry.Loading

/-!
# The load of a scope

An operation on a registry is read by its result, what it leaves and gives; results compose without
the entries. The load of a scope goes on in turns: with the first one the loader is asked, with the
last one its answer is stored, and after that nothing changes any more.

**Main definitions.** `Action.result`, `Registry.HasLoaded`, `Registry.hasAsked`,
`Registry.answered`, `Registry.Quiet`.

**Main statements.** `advanceLoad_cases`: what one turn of a load does. `AskedOnce.advanceLoad`: the
loader is not asked again.
-/

namespace LineScopes

namespace Registry

namespace Action

variable {α β : Type}

/-- What an operation leaves and gives, unless it fails. -/
def result
    (x : Action α)
    (r : Registry) : Option (Registry × α) :=
  match (x r).2.outcome with
  | .ok a => some ((x r).1, a)
  | .error _ => none

@[simp] theorem result_pure
    (a : α)
    (r : Registry) :
    (pure a : Action α).result r = some (r, a) := by
  rfl

@[simp] theorem result_bind
    (x : Action α)
    (f : α → Action β)
    (r : Registry) :
    (x >>= f).result r = (x.result r).bind fun (r, a) => (f a).result r := by
  change (match (andThen x f r).2.outcome with
    | .ok b => some ((andThen x f r).1, b)
    | .error _ => none) = _
  unfold result andThen
  cases h : (x r).2.outcome <;> simp only [h, Option.bind]

@[simp] theorem result_current
    (r : Registry) :
    current.result r = some (r, r) := by
  rfl

@[simp] theorem result_change
    (f : Registry → Registry)
    (r : Registry) :
    (change f).result r = some (f r, ()) := by
  rfl

@[simp] theorem result_report
    (level : Level)
    (text : String)
    (r : Registry) :
    (ofReported (Reported.report level text)).result r = some (r, ()) := by
  rfl

end Action

section Load

variable (r : Registry) (l : Loader) (scope : String)

/-- The load of a scope is done. -/
def HasLoaded : Prop :=
  ∃ outcome, r.loads.lookup scope = some (.done outcome)

/-- Whether the loader was asked for a scope, as far as the loads tell. -/
def hasAsked : Bool :=
  match r.loads.lookup scope with
  | none => false
  | some .created => false
  | some (.waiting _) => true
  | some (.done _) => true

/-- How often the loader still puts a caller off. -/
def turnsLeft : Nat :=
  match r.loads.lookup scope with
  | some (.done _) => 0
  | some (.waiting turns) => turns
  | _ => l.delay scope

/-- The registry once the loader has been asked for a scope. -/
def askedFor : Registry :=
  if r.hasAsked scope then r else { r with asked := r.asked ++ [scope] }

/-- The registry once the loader has answered for a scope. -/
def answered : Registry :=
  let stored := match l.answer scope with
    | .ok (some g) => (store g (l.injections.lookup scope) r).1
    | _ => r
  { stored with loads := putFirst scope (.done ((l.answer scope).map fun _ => ())) r.loads }

/-- The registry once the loader has put a caller off. -/
def delayed
    (turns : Nat) : Registry :=
  { r with loads := putFirst scope (.waiting turns) r.loads }

theorem result_completeLoad :
    (completeLoad l scope).result r = some (r.answered l scope, ()) := by
  unfold completeLoad answered
  split <;> rename_i h <;> simp [h, setLoad] <;> rfl

theorem result_continueLoad
    (turns : Nat) :
    (continueLoad l scope turns).result r =
      match turns with
      | 0 => some (r.answered l scope, true)
      | n + 1 => some (r.delayed scope n, false) := by
  cases turns with
  | zero =>
      simp [continueLoad, result_completeLoad]
  | succ n =>
      simp [continueLoad, setLoad, delayed]

variable {r l scope}

theorem result_advanceLoad_of_done
    (h : r.HasLoaded scope) :
    (advanceLoad l scope).result r = some (r, true) := by
  obtain ⟨outcome, h⟩ := h
  simp [advanceLoad, h]

theorem result_advanceLoad
    (h : ¬ r.HasLoaded scope) :
    (advanceLoad l scope).result r =
      match r.turnsLeft l scope with
      | 0 => some ((r.askedFor scope).answered l scope, true)
      | n + 1 => some ((r.askedFor scope).delayed scope n, false) := by
  unfold advanceLoad askedFor hasAsked turnsLeft
  cases hload : r.loads.lookup scope with
  | none =>
      simp [hload, result_continueLoad]
  | some load =>
      cases load with
      | created =>
          simp [hload, result_continueLoad]
      | waiting turns =>
          simp [hload, result_continueLoad]
      | done outcome =>
          exact absurd ⟨outcome, hload⟩ h

/-- A load that is done stays as it is. For any other one the loader is asked unless it was asked
before, and either the load is done with its answer or the caller is put off. -/
theorem advanceLoad_cases
    {r' : Registry}
    {isLoaded : Bool}
    (h : (advanceLoad l scope).result r = some (r', isLoaded)) :
    (r.HasLoaded scope ∧ r' = r ∧ isLoaded = true) ∨
      (¬ r.HasLoaded scope ∧ r' = (r.askedFor scope).answered l scope ∧ isLoaded = true) ∨
      ∃ n, ¬ r.HasLoaded scope ∧ r.turnsLeft l scope = n + 1 ∧
        r' = (r.askedFor scope).delayed scope n ∧ isLoaded = false := by
  by_cases hdone : r.HasLoaded scope
  · rw [result_advanceLoad_of_done hdone] at h
    cases h
    exact .inl ⟨hdone, rfl, rfl⟩
  · rw [result_advanceLoad hdone] at h
    split at h <;> cases h
    · exact .inr (.inl ⟨hdone, rfl, rfl⟩)
    · exact .inr (.inr ⟨_, hdone, ‹_›, rfl, rfl⟩)

theorem exists_result_advanceLoad
    (r : Registry)
    (l : Loader)
    (scope : String) :
    ∃ r' isLoaded, (advanceLoad l scope).result r = some (r', isLoaded) := by
  by_cases hdone : r.HasLoaded scope
  · exact ⟨_, _, result_advanceLoad_of_done hdone⟩
  · rw [result_advanceLoad hdone]
    split <;> exact ⟨_, _, rfl⟩

theorem hasAsked_congr
    {r r' : Registry}
    (h : r'.loads.lookup scope = r.loads.lookup scope) :
    r'.hasAsked scope = r.hasAsked scope := by
  unfold hasAsked
  rw [h]

theorem HasLoaded.hasAsked
    (h : r.HasLoaded scope) :
    r.hasAsked scope = true := by
  obtain ⟨outcome, h⟩ := h
  simp only [Registry.hasAsked, h]

@[simp] theorem loads_askedFor :
    (r.askedFor scope).loads = r.loads := by
  unfold askedFor
  split <;> rfl

@[simp] theorem loader_askedFor :
    (r.askedFor scope).loader = r.loader := by
  unfold askedFor
  split <;> rfl

@[simp] theorem library_askedFor :
    (r.askedFor scope).library = r.library := by
  unfold askedFor
  split <;> rfl

theorem loads_answered :
    (r.answered l scope).loads =
      putFirst scope (.done ((l.answer scope).map fun _ => ())) r.loads := by
  rfl

@[simp] theorem asked_answered :
    (r.answered l scope).asked = r.asked := by
  unfold answered
  split <;> rfl

@[simp] theorem loader_answered :
    (r.answered l scope).loader = r.loader := by
  unfold answered
  split <;> rfl

theorem library_answered
    {g : RawGrammar}
    (h : l.answer scope = .ok (some g)) :
    (r.answered l scope).library = r.library.insert g := by
  simp only [answered, h]
  rfl

/-- Nothing that matters to loads is forgotten. -/
structure Onward
    (r r' : Registry) : Prop where
  loader : r'.loader = r.loader
  done : ∀ scope outcome, r.loads.lookup scope = some (.done outcome) →
    r'.loads.lookup scope = some (.done outcome)

/-- The loader is neither asked nor answers. -/
structure Quiet
    (r r' : Registry) : Prop where
  loader : r'.loader = r.loader
  asked : r'.asked = r.asked
  load : ∀ scope, r'.loads.lookup scope = r.loads.lookup scope ∨
    r.loads.lookup scope = none ∧ r'.loads.lookup scope = some .created

/-- The loader was asked at most once for each scope, and the loads tell for which. -/
structure AskedOnce
    (r : Registry) : Prop where
  nodup : r.asked.Nodup
  mem_iff : ∀ scope, scope ∈ r.asked ↔ r.hasAsked scope = true

section Turn

variable {r' : Registry} {isLoaded : Bool}

theorem lookup_advanceLoad_of_ne
    (h : (advanceLoad l scope).result r = some (r', isLoaded))
    {other : String}
    (hne : other ≠ scope) :
    r'.loads.lookup other = r.loads.lookup other := by
  rcases advanceLoad_cases h with ⟨-, rfl, -⟩ | ⟨-, rfl, -⟩ | ⟨n, -, -, rfl, -⟩
  · rfl
  · rw [loads_answered, lookup_putFirst_of_ne hne, loads_askedFor]
  · simp [delayed, lookup_putFirst_of_ne hne]

theorem hasAsked_advanceLoad
    (h : (advanceLoad l scope).result r = some (r', isLoaded)) :
    r'.hasAsked scope = true := by
  rcases advanceLoad_cases h with ⟨hdone, rfl, -⟩ | ⟨-, rfl, -⟩ | ⟨n, -, -, rfl, -⟩
  · exact hdone.hasAsked
  · simp [hasAsked, loads_answered]
  · simp [hasAsked, delayed]

theorem asked_advanceLoad
    (h : (advanceLoad l scope).result r = some (r', isLoaded)) :
    r'.asked = if r.hasAsked scope then r.asked else r.asked ++ [scope] := by
  have hasked : (r.askedFor scope).asked =
      if r.hasAsked scope then r.asked else r.asked ++ [scope] := by
    unfold askedFor
    split <;> rfl
  rcases advanceLoad_cases h with ⟨hdone, rfl, -⟩ | ⟨-, rfl, -⟩ | ⟨n, -, -, rfl, -⟩
  · rw [if_pos hdone.hasAsked]
  · rw [asked_answered, hasked]
  · exact hasked

/-- A turn that says that the load is done is right. -/
theorem hasLoaded_advanceLoad
    (h : (advanceLoad l scope).result r = some (r', true)) :
    r'.HasLoaded scope := by
  rcases advanceLoad_cases h with ⟨hdone, rfl, -⟩ | ⟨-, rfl, -⟩ | ⟨n, -, -, -, hfalse⟩
  · exact hdone
  · exact ⟨_, by rw [loads_answered, lookup_putFirst_self]⟩
  · cases hfalse

/-- A load that becomes done was answered in this turn. -/
theorem answer_of_hasLoaded
    (h : (advanceLoad l scope).result r = some (r', isLoaded))
    {other : String}
    (hbefore : ¬ r.HasLoaded other)
    (hafter : r'.HasLoaded other) :
    other = scope ∧ r'.loads.lookup scope = some (.done ((l.answer scope).map fun _ => ())) ∧
      ∀ g, l.answer scope = .ok (some g) → r'.library = r.library.insert g := by
  have heq : other = scope := by
    by_contra hne
    rw [HasLoaded, lookup_advanceLoad_of_ne h hne] at hafter
    exact hbefore hafter
  subst heq
  rcases advanceLoad_cases h with ⟨hdone, -, -⟩ | ⟨-, rfl, -⟩ | ⟨n, -, -, rfl, -⟩
  · exact absurd hdone hbefore
  · refine ⟨rfl, by rw [loads_answered, lookup_putFirst_self], fun g hg => ?_⟩
    rw [library_answered hg, library_askedFor]
  · obtain ⟨outcome, hafter⟩ := hafter
    simp [delayed] at hafter

theorem onward_advanceLoad
    (h : (advanceLoad l scope).result r = some (r', isLoaded)) :
    Onward r r' := by
  refine ⟨?_, fun other outcome hdone => ?_⟩
  · rcases advanceLoad_cases h with ⟨-, rfl, -⟩ | ⟨-, rfl, -⟩ | ⟨n, -, -, rfl, -⟩
    · rfl
    · rw [loader_answered, loader_askedFor]
    · exact loader_askedFor
  · by_cases hne : other = scope
    · subst hne
      rw [result_advanceLoad_of_done ⟨outcome, hdone⟩] at h
      cases h
      exact hdone
    · rw [lookup_advanceLoad_of_ne h hne, hdone]

/-- The loader is asked only for scopes it was not asked for before. -/
theorem AskedOnce.advanceLoad
    (hr : r.AskedOnce)
    (h : (advanceLoad l scope).result r = some (r', isLoaded)) :
    r'.AskedOnce := by
  have hmem : ∀ other, other ∈ r'.asked ↔ other = scope ∨ other ∈ r.asked := by
    intro other
    rw [asked_advanceLoad h]
    split
    · rename_i hasked
      refine ⟨.inr, ?_⟩
      rintro (rfl | hother)
      · exact (hr.mem_iff _).mpr hasked
      · exact hother
    · simp [or_comm]
  refine ⟨?_, fun other => ?_⟩
  · rw [asked_advanceLoad h]
    split
    · exact hr.nodup
    · rename_i hasked
      refine List.nodup_append.mpr ⟨hr.nodup, List.nodup_singleton scope, ?_⟩
      rintro s hs t ht rfl
      rw [List.mem_singleton] at ht
      exact hasked ((hr.mem_iff scope).mp (ht ▸ hs))
  · rw [hmem]
    by_cases hne : other = scope
    · subst hne
      simp [hasAsked_advanceLoad h]
    · rw [hasAsked_congr (lookup_advanceLoad_of_ne h hne), ← hr.mem_iff]
      simp [hne]

end Turn

end Load

section Between

variable {r r' r'' : Registry}

namespace Onward

theorem refl
    (r : Registry) :
    Onward r r :=
  ⟨rfl, fun _ _ h => h⟩

theorem trans
    (h : Onward r r')
    (h' : Onward r' r'') :
    Onward r r'' :=
  ⟨h'.loader.trans h.loader, fun scope outcome hdone =>
    h'.done scope outcome (h.done scope outcome hdone)⟩

theorem hasLoaded
    (h : Onward r r')
    {scope : String}
    (hdone : r.HasLoaded scope) :
    r'.HasLoaded scope :=
  hdone.imp fun outcome hlookup => h.done scope outcome hlookup

end Onward

namespace Quiet

theorem refl
    (r : Registry) :
    Quiet r r :=
  ⟨rfl, rfl, fun _ => .inl rfl⟩

theorem onward
    (h : Quiet r r') :
    Onward r r' := by
  refine ⟨h.loader, fun scope outcome hdone => ?_⟩
  rcases h.load scope with hsame | ⟨hnone, -⟩
  · rw [hsame, hdone]
  · rw [hdone] at hnone
    cases hnone

theorem hasLoaded_iff
    (h : Quiet r r')
    (scope : String) :
    r'.HasLoaded scope ↔ r.HasLoaded scope := by
  unfold HasLoaded
  rcases h.load scope with hsame | ⟨hnone, hcreated⟩
  · rw [hsame]
  · simp [hnone, hcreated]

theorem askedOnce
    (h : Quiet r r')
    (hr : r.AskedOnce) :
    r'.AskedOnce := by
  refine ⟨h.asked ▸ hr.nodup, fun scope => ?_⟩
  rw [h.asked, hr.mem_iff]
  rcases h.load scope with hsame | ⟨hnone, hcreated⟩
  · rw [hasAsked_congr hsame]
  · simp [hasAsked, hnone, hcreated]

end Quiet

/-- Loads are begun where there are none, and none is touched. -/
theorem quiet_beginLoads
    (scopes : List String)
    (r : Registry) :
    Quiet r (beginLoads scopes r).1 := by
  refine ⟨rfl, rfl, fun scope => ?_⟩
  change (scopes.foldl _ r.loads).lookup scope = r.loads.lookup scope ∨
    r.loads.lookup scope = none ∧ (scopes.foldl _ r.loads).lookup scope = some .created
  generalize r.loads = loads
  induction scopes generalizing loads with
  | nil =>
      exact .inl rfl
  | cons s rest ih =>
      rw [List.foldl_cons]
      by_cases hbegun : (loads.lookup s).isSome
      · simpa [hbegun] using ih loads
      · simp only [hbegun, Bool.false_eq_true, if_false]
        by_cases hs : scope = s
        · subst hs
          rcases ih (putFirst scope .created loads) with h | ⟨h, -⟩
          · exact .inr ⟨Option.not_isSome_iff_eq_none.mp hbegun, by simpa using h⟩
          · simp at h
        · simpa only [lookup_putFirst_of_ne hs] using ih (putFirst s .created loads)

theorem quiet_compileScope
    (scope : String)
    (language : Nat)
    (settings : Option GrammarSettings)
    (r : Registry) :
    Quiet r (compileScope scope language settings r).1 := by
  unfold compileScope
  split
  · exact .refl r
  · split
    · exact .refl r
    · dsimp only
      split
      · exact ⟨rfl, rfl, fun _ => .inl rfl⟩
      · exact .refl r

theorem quiet_run
    (o : Operation)
    (r : Registry) :
    Quiet r (o.run r).1 := by
  cases o with
  | add g injected =>
      simp only [Operation.run, Prod.map, id, add_eq]
      split <;> exact ⟨rfl, rfl, fun _ => .inl rfl⟩
  | setTheme document colorMap =>
      simp only [Operation.run, Prod.map, id, setTheme_eq]
      exact ⟨rfl, rfl, fun _ => .inl rfl⟩
  | grammar scope =>
      exact .refl r
  | colors =>
      exact .refl r
  | tokenize g line state limit =>
      exact .refl r
  | encode g line state limit =>
      exact .refl r

end Between

/-- How the load of a scope ended. -/
def outcomeOf
    (r : Registry)
    (scope : String) : Except Error Unit :=
  match r.loads.lookup scope with
  | some (.done outcome) => outcome
  | _ => .ok ()

theorem firstFailure_eq
    (r : Registry)
    (scopes : List String) :
    firstFailure r scopes = scopes.forM r.outcomeOf := by
  rfl

theorem HasLoaded.lookup
    {r : Registry}
    {scope : String}
    (h : r.HasLoaded scope) :
    r.loads.lookup scope = some (.done (r.outcomeOf scope)) := by
  obtain ⟨outcome, h⟩ := h
  simp only [outcomeOf, h]

theorem Onward.outcomeOf
    {r r' : Registry}
    {scope : String}
    (h : Onward r r')
    (hdone : r.HasLoaded scope) :
    r'.outcomeOf scope = r.outcomeOf scope := by
  obtain ⟨outcome, hdone⟩ := hdone
  simp only [Registry.outcomeOf, hdone, h.done scope outcome hdone]

theorem mem_neededLoads
    {r : Registry}
    {requests : Requests}
    {scope : String} :
    scope ∈ r.neededLoads requests ↔
      (∃ x ∈ requests.queue, x.scope = scope) ∧ r.library.contains scope = false := by
  simp [neededLoads]

/-- A new registry has asked for nothing. -/
theorem ofOptions_loads
    {o : RegistryOptions}
    {r : Registry}
    (h : ofOptions o = .ok r) :
    r.loader = o.loader ∧ r.AskedOnce := by
  obtain ⟨theme, -, heq⟩ := exists_of_bind_eq_ok h
  cases heq
  exact ⟨rfl, List.nodup_nil, fun scope => by simp [hasAsked]⟩

/-- A caller whose loads are done: the documents are walked for what is needed next. -/
def walked
    (r : Registry)
    (c : Caller) : Caller :=
  match c.requests.next r.library r.injectedInto with
  | .ok requests => { c with requests, phase := .between }
  | .error e => { c with phase := .finished (.error e) }

/-- A caller at the end of a round: a failure is its answer. -/
def concluded
    (r : Registry)
    (c : Caller) : Except Error Unit → Caller
  | .error e => { c with phase := .finished (.error e) }
  | .ok () => r.walked c

theorem result_endRound
    (c : Caller)
    (r : Registry) :
    (endRound c).result r = some (r, r.walked c) := by
  unfold endRound walked
  rw [Action.result_bind, Action.result_current]
  dsimp only [Option.bind]
  split <;> simp [*]

/-- What a caller waited with is forgotten at the end of a round. -/
theorem concluded_phase
    (r : Registry)
    (c : Caller)
    (phase : Phase)
    (x : Except Error Unit) :
    r.concluded { c with phase } x = r.concluded c x := by
  cases x with
  | error e =>
      rfl
  | ok =>
      rfl

theorem result_awaitLoads
    {l : Loader}
    {c : Caller}
    {r r' : Registry}
    {scopes scopes' : List (String × Bool)}
    (h : (advanceLoads l scopes).result r = some (r', scopes')) :
    (awaitLoads l c scopes).result r = some (r',
      if scopes'.all Prod.snd then r'.concluded c ((scopes'.map Prod.fst).forM r'.outcomeOf)
      else { c with phase := .awaiting scopes' }) := by
  unfold awaitLoads
  rw [Action.result_bind, h, Option.bind_some]
  dsimp only
  split
  · rw [Action.result_bind, Action.result_current, Option.bind_some, ← firstFailure_eq]
    dsimp only
    split <;> rename_i hfirst <;> rw [hfirst]
    · rfl
    · exact result_endRound c r'
  · rfl

theorem result_finishCaller
    (c : Caller)
    (r : Registry) :
    (finishCaller c).result r =
      let compiled := compileScope c.request.scope c.request.language c.request.settings r
      some (compiled.1, { c with phase := .finished compiled.2.outcome }) := by
  rfl

end Registry

end LineScopes
