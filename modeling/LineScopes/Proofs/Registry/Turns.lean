import LineScopes.Proofs.Registry.Loads

/-!
# Callers that take turns

Callers come, go through their rounds and get their answers, grammars are added, and loads are
answered, all in any order: a run is a list of events, each of which leaves a registry and its
callers. The loader is only known by what it says when it is asked or answers, so loads are done in
any order too. A caller that waits can go on whatever the others do, and that callers take turns,
one after the other, is one of the runs.

**Main definitions.** `Turn`, `Caller.turn`, `Hub`, `Hub.Event`, `Hub.step`, `Hub.run`.

**Main statements.** `Hub.caller_cases`, `Hub.registry_cases`: what an event does.
`Hub.exists_run_endRound`: a caller that waits gets to the end of its round.
`Hub.exists_run_loadAll`: loading grammars is a run.
-/

namespace LineScopes

/-- What a caller does when it is its turn. -/
inductive Turn where
  /-- A round begins: the loads of what is not stored are begun. -/
  | lookUp
  /-- A load that the caller waits for goes on. What the loader says is only told now. -/
  | goOn (place : Nat) (loader : Loader)
  /-- A round ends: all its loads are done. -/
  | endRound
  /-- Nothing more is needed. -/
  | answer

/-- What a turn of a caller leaves, unless it is the time for another one. -/
def Caller.turn
    (c : Caller)
    (r : Registry) : Turn → Option (Registry × Caller)
  | .lookUp =>
    match c.phase with
    | .between =>
      if c.requests.queue.isEmpty then none
      else
        let scopes := r.neededLoads c.requests
        some ((Registry.beginLoads scopes r).1,
          { c with phase := .awaiting (scopes.map (·, false)) })
    | _ => none
  | .goOn place loader =>
    match c.phase with
    | .awaiting scopes =>
      match scopes[place]? with
      | some (scope, false) =>
        ((Registry.advanceLoad loader scope).result r).map fun (r, isLoaded) =>
          (r, { c with phase := .awaiting (scopes.set place (scope, isLoaded)) })
      | _ => none
    | _ => none
  | .endRound =>
    match c.phase with
    | .awaiting scopes =>
      if scopes.all Prod.snd then
        match Registry.firstFailure r (scopes.map Prod.fst) with
        | .error e => some (r, { c with phase := .finished (.error e) })
        | .ok () => (Registry.endRound c).result r
      else none
    | _ => none
  | .answer =>
    match c.phase with
    | .between => if c.requests.queue.isEmpty then (Registry.finishCaller c).result r else none
    | _ => none

namespace Caller

open Registry (Quiet)

variable {c c' : Caller} {r r' : Registry}

theorem turn_lookUp
    (hphase : c.phase = .between)
    (hqueue : ¬ c.requests.queue.isEmpty = true) :
    c.turn r .lookUp = some ((Registry.beginLoads (r.neededLoads c.requests) r).1,
      { c with phase := .awaiting ((r.neededLoads c.requests).map (·, false)) }) := by
  simp only [turn, hphase, hqueue, Bool.false_eq_true, if_false]

theorem turn_answer
    (hphase : c.phase = .between)
    (hqueue : c.requests.queue.isEmpty = true) :
    c.turn r .answer = (Registry.finishCaller c).result r := by
  simp only [turn, hphase, hqueue, if_true]

theorem lookUp_cases
    (h : c.turn r .lookUp = some (r', c')) :
    c.phase = .between ∧ r' = (Registry.beginLoads (r.neededLoads c.requests) r).1 ∧
      c' = { c with phase := .awaiting ((r.neededLoads c.requests).map (·, false)) } := by
  cases hphase : c.phase with
  | between =>
      simp only [turn, hphase] at h
      split at h <;> cases h
      exact ⟨rfl, rfl, rfl⟩
  | awaiting scopes =>
      simp [turn, hphase] at h
  | finished outcome =>
      simp [turn, hphase] at h

theorem goOn_cases
    {place : Nat}
    {l : Loader}
    (h : c.turn r (.goOn place l) = some (r', c')) :
    ∃ scopes scope isLoaded, c.phase = .awaiting scopes ∧ scopes[place]? = some (scope, false) ∧
      (Registry.advanceLoad l scope).result r = some (r', isLoaded) ∧
      c' = { c with phase := .awaiting (scopes.set place (scope, isLoaded)) } := by
  cases hphase : c.phase with
  | between =>
      simp [turn, hphase] at h
  | awaiting scopes =>
      simp only [turn, hphase] at h
      split at h
      · rename_i scope hplace
        obtain ⟨⟨r₁, isLoaded⟩, hresult, heq⟩ := Option.map_eq_some_iff.mp h
        cases heq
        exact ⟨scopes, scope, isLoaded, rfl, hplace, hresult, rfl⟩
      · cases h
  | finished outcome =>
      simp [turn, hphase] at h

theorem turn_endRound
    {scopes : List (String × Bool)}
    (hphase : c.phase = .awaiting scopes)
    (hall : ∀ p ∈ scopes, p.2 = true) :
    c.turn r .endRound = some (r, r.concluded c ((scopes.map Prod.fst).forM r.outcomeOf)) := by
  have hdone : scopes.all Prod.snd = true := List.all_eq_true.mpr hall
  simp only [turn, hphase, hdone, if_true, Registry.firstFailure_eq, Registry.result_endRound]
  split <;> rename_i hfirst <;> rw [hfirst] <;> rfl

theorem endRound_cases
    (h : c.turn r .endRound = some (r', c')) :
    ∃ scopes, c.phase = .awaiting scopes ∧ (∀ p ∈ scopes, p.2 = true) ∧ r' = r ∧
      c' = r.concluded c ((scopes.map Prod.fst).forM r.outcomeOf) := by
  cases hphase : c.phase with
  | between =>
      simp [turn, hphase] at h
  | awaiting scopes =>
      by_cases hdone : scopes.all Prod.snd = true
      · rw [turn_endRound hphase (List.all_eq_true.mp hdone)] at h
        cases h
        exact ⟨scopes, rfl, List.all_eq_true.mp hdone, rfl, rfl⟩
      · simp [turn, hphase, hdone] at h
  | finished outcome =>
      simp [turn, hphase] at h

theorem answer_cases
    (h : c.turn r .answer = some (r', c')) :
    Quiet r r' ∧ ∃ outcome, c' = { c with phase := .finished outcome } := by
  cases hphase : c.phase with
  | between =>
      simp only [turn, hphase, Registry.result_finishCaller] at h
      split at h <;> cases h
      exact ⟨Registry.quiet_compileScope _ _ _ _, _, rfl⟩
  | awaiting scopes =>
      simp [turn, hphase] at h
  | finished outcome =>
      simp [turn, hphase] at h

/-- A caller at the end of a round does not wait any more. -/
theorem concluded_not_awaiting
    (r : Registry)
    (c : Caller)
    (x : Except Error Unit)
    (scopes : List (String × Bool)) :
    (r.concluded c x).phase ≠ .awaiting scopes := by
  unfold Registry.concluded Registry.walked
  split
  · simp
  · split <;> simp

end Caller

/-- A registry and everyone who loads from it. A caller may stay behind for ever. -/
structure Hub where
  registry : Registry
  callers : List Caller

namespace Hub

/-- What can happen next. -/
inductive Event where
  /-- Someone wants a grammar. -/
  | call (request : GrammarRequest)
  /-- An operation that loads nothing. -/
  | operate (o : Operation)
  /-- It is the turn of a caller. -/
  | turn (caller : Nat) (t : Turn)

/-- What an event leaves, unless it cannot happen. -/
def step (h : Hub) : Event → Option Hub
  | .call request => some { h with callers := h.callers ++ [.start request] }
  | .operate o => some { h with registry := (o.run h.registry).1 }
  | .turn i t => do
    let c ← h.callers[i]?
    let (r, c) ← c.turn h.registry t
    return ⟨r, h.callers.set i c⟩

/-- What events leave, one after the other. -/
def run (h : Hub) : List Event → Option Hub
  | [] => some h
  | e :: rest => do (← h.step e).run rest

variable {start h h' : Hub} {e : Event} {events : List Event} {i : Nat}

theorem run_cons
    (h : Hub)
    (e : Event)
    (rest : List Event) :
    h.run (e :: rest) = (h.step e).bind (·.run rest) := by
  rfl

theorem run_append
    (h : Hub)
    (first rest : List Event) :
    h.run (first ++ rest) = (h.run first).bind (·.run rest) := by
  induction first generalizing h with
  | nil =>
      rfl
  | cons e first ih =>
      rw [List.cons_append, run_cons, run_cons]
      cases h.step e with
      | none =>
          rfl
      | some h' =>
          exact ih h'

theorem exists_of_run_append
    {first rest : List Event}
    (hrun : start.run (first ++ rest) = some h) :
    ∃ h₁, start.run first = some h₁ ∧ h₁.run rest = some h := by
  rw [run_append] at hrun
  exact Option.bind_eq_some_iff.mp hrun

theorem exists_of_run_append_singleton
    (hrun : start.run (events ++ [e]) = some h) :
    ∃ h₁, start.run events = some h₁ ∧ h₁.step e = some h := by
  obtain ⟨h₁, hfirst, hlast⟩ := exists_of_run_append hrun
  obtain ⟨h₂, hstep, hend⟩ := Option.bind_eq_some_iff.mp hlast
  cases hend
  exact ⟨h₁, hfirst, hstep⟩

theorem step_turn
    {t : Turn}
    {c c' : Caller}
    {r : Registry}
    (hc : h.callers[i]? = some c)
    (hturn : c.turn h.registry t = some (r, c')) :
    h.step (.turn i t) = some ⟨r, h.callers.set i c'⟩ := by
  simp [step, hc, hturn]

/-- A turn of a caller changes the registry and this caller. -/
theorem step_turn_cases
    {t : Turn}
    (hstep : h.step (.turn i t) = some h') :
    ∃ c c', h.callers[i]? = some c ∧ c.turn h.registry t = some (h'.registry, c') ∧
      h'.callers = h.callers.set i c' := by
  obtain ⟨c, hc, hrest⟩ := Option.bind_eq_some_iff.mp hstep
  obtain ⟨⟨r, c'⟩, hturn, hend⟩ := Option.bind_eq_some_iff.mp hrest
  cases hend
  exact ⟨c, c', hc, hturn, rfl⟩

/-- Where a caller comes from: it was there, or it has just come, or it was its turn. -/
theorem caller_cases
    {c' : Caller}
    (hstep : h.step e = some h')
    (hc' : h'.callers[i]? = some c') :
    (h.callers[i]? = some c' ∧ ∀ t, e ≠ .turn i t) ∨
      (∃ request, e = .call request ∧ c' = .start request ∧ h.callers[i]? = none) ∨
      ∃ t c, e = .turn i t ∧ h.callers[i]? = some c ∧
        c.turn h.registry t = some (h'.registry, c') := by
  cases e with
  | call request =>
      cases hstep
      rw [List.getElem?_append] at hc'
      split at hc'
      · exact .inl ⟨hc', by simp⟩
      · rename_i hlt
        exact .inr (.inl ⟨request, rfl, by simpa using List.mem_of_getElem? hc',
          List.getElem?_eq_none (Nat.le_of_not_lt hlt)⟩)
  | operate o =>
      cases hstep
      exact .inl ⟨hc', by simp⟩
  | turn j t =>
      obtain ⟨c, c₁, hc, hturn, hcallers⟩ := step_turn_cases hstep
      rw [hcallers] at hc'
      by_cases hij : j = i
      · subst hij
        have hlt : j < h.callers.length := (List.getElem?_eq_some_iff.mp hc).1
        rw [List.getElem?_set_self hlt] at hc'
        cases hc'
        exact .inr (.inr ⟨t, c, rfl, hc, hturn⟩)
      · rw [List.getElem?_set_ne hij] at hc'
        exact .inl ⟨hc', fun t heq => hij (Event.turn.inj heq).1⟩

/-- What an event does to the loads: nothing, or one of them goes on. -/
theorem registry_cases
    (hstep : h.step e = some h') :
    h.registry.Quiet h'.registry ∨
      ∃ i place l c scopes scope isLoaded, e = .turn i (.goOn place l) ∧
        h.callers[i]? = some c ∧ c.phase = .awaiting scopes ∧
        scopes[place]? = some (scope, false) ∧
        (Registry.advanceLoad l scope).result h.registry = some (h'.registry, isLoaded) := by
  cases e with
  | call request =>
      cases hstep
      exact .inl (.refl _)
  | operate o =>
      cases hstep
      exact .inl (Registry.quiet_run o h.registry)
  | turn i t =>
      obtain ⟨c, c', hc, hturn, -⟩ := step_turn_cases hstep
      cases t with
      | lookUp =>
          rw [(Caller.lookUp_cases hturn).2.1]
          exact .inl (Registry.quiet_beginLoads _ _)
      | goOn place l =>
          obtain ⟨scopes, scope, isLoaded, hphase, hplace, hresult, -⟩ := Caller.goOn_cases hturn
          exact .inr ⟨i, place, l, c, scopes, scope, isLoaded, rfl, hc, hphase, hplace, hresult⟩
      | endRound =>
          obtain ⟨scopes, -, -, hr, -⟩ := Caller.endRound_cases hturn
          rw [hr]
          exact .inl (.refl _)
      | answer =>
          exact .inl (Caller.answer_cases hturn).1

theorem step_onward
    (hstep : h.step e = some h') :
    h.registry.Onward h'.registry := by
  rcases registry_cases hstep with hquiet | ⟨i, place, l, c, scopes, scope, b, -, -, -, -, hresult⟩
  · exact hquiet.onward
  · exact Registry.onward_advanceLoad hresult

theorem run_onward
    (hrun : h.run events = some h') :
    h.registry.Onward h'.registry := by
  induction events generalizing h with
  | nil =>
      cases hrun
      exact .refl _
  | cons e rest ih =>
      obtain ⟨h₁, hstep, hrest⟩ := Option.bind_eq_some_iff.mp hrun
      exact (step_onward hstep).trans (ih hrest)

theorem set_of_getElem?
    {α : Type}
    {xs : List α}
    {k : Nat}
    {a : α}
    (h : xs[k]? = some a) :
    xs.set k a = xs := by
  obtain ⟨hlt, rfl⟩ := List.getElem?_eq_some_iff.mp h
  exact List.set_getElem_self hlt

section Progress

variable {c : Caller} {scopes : List (String × Bool)} {scope : String} {place : Nat}

/-- The turn in which a load goes on. -/
theorem step_goOn
    {l : Loader}
    {r : Registry}
    {isLoaded : Bool}
    (hc : h.callers[i]? = some c)
    (hphase : c.phase = .awaiting scopes)
    (hplace : scopes[place]? = some (scope, false))
    (hresult : (Registry.advanceLoad l scope).result h.registry = some (r, isLoaded)) :
    h.step (.turn i (.goOn place l)) = some ⟨r, h.callers.set i
      { c with phase := .awaiting (scopes.set place (scope, isLoaded)) }⟩ := by
  refine step_turn hc ?_
  simp only [Caller.turn, hphase, hplace, hresult, Option.map]

/-- A load that the loader puts off is done after some turns, by induction on how often. -/
theorem exists_run_goOn
    (l : Loader)
    (hc : h.callers[i]? = some c)
    (hphase : c.phase = .awaiting scopes)
    (hplace : scopes[place]? = some (scope, false)) :
    ∃ times h', h.run (List.replicate times (.turn i (.goOn place l))) = some h' ∧
      h'.callers = h.callers.set i
        { c with phase := .awaiting (scopes.set place (scope, true)) } := by
  induction hleft : h.registry.turnsLeft l scope generalizing h with
  | zero =>
      have hresult : ∃ r, (Registry.advanceLoad l scope).result h.registry = some (r, true) := by
        by_cases hdone : h.registry.HasLoaded scope
        · exact ⟨_, Registry.result_advanceLoad_of_done hdone⟩
        · exact ⟨_, by rw [Registry.result_advanceLoad hdone, hleft]⟩
      obtain ⟨r, hresult⟩ := hresult
      refine ⟨1, ⟨r, _⟩, ?_, rfl⟩
      rw [List.replicate_one, run_cons, step_goOn hc hphase hplace hresult]
      rfl
  | succ n ih =>
      have hdone : ¬ h.registry.HasLoaded scope := by
        rintro ⟨outcome, hdone⟩
        simp [Registry.turnsLeft, hdone] at hleft
      have hresult : (Registry.advanceLoad l scope).result h.registry =
          some ((h.registry.askedFor scope).delayed scope n, false) := by
        rw [Registry.result_advanceLoad hdone, hleft]
      -- the caller is put off, so nothing has changed for it
      have hsame : h.callers.set i
          { c with phase := .awaiting (scopes.set place (scope, false)) } = h.callers := by
        rw [set_of_getElem? hplace, ← hphase]
        exact set_of_getElem? hc
      have hstep := step_goOn hc hphase hplace hresult
      rw [hsame] at hstep
      have hless : ((h.registry.askedFor scope).delayed scope n).turnsLeft l scope = n := by
        simp [Registry.turnsLeft, Registry.delayed]
      obtain ⟨times, h', hrun, hcallers⟩ :=
        ih (h := ⟨(h.registry.askedFor scope).delayed scope n, h.callers⟩) hc hless
      refine ⟨times + 1, h', ?_, hcallers⟩
      rw [List.replicate_succ, run_cons, hstep]
      exact hrun

/-- All loads that a caller waits for are done after some turns, by induction on how many are left.
-/
theorem exists_run_allLoaded
    (l : Loader)
    (hc : h.callers[i]? = some c)
    (hphase : c.phase = .awaiting scopes) :
    ∃ (places : List Nat) (h' : Hub) (scopes' : List (String × Bool)),
      h.run (places.map fun place => .turn i (.goOn place l)) = some h' ∧
      h'.callers[i]? = some { c with phase := .awaiting scopes' } ∧
      ∀ p ∈ scopes', p.2 = true := by
  induction hleft : scopes.countP (fun p => !p.2) generalizing h c scopes with
  | zero =>
      rw [List.countP_eq_zero] at hleft
      exact ⟨[], h, scopes, rfl, by rw [hc, ← hphase], by simpa using hleft⟩
  | succ n ih =>
      have hpos : 0 < scopes.countP (fun p => !p.2) := by omega
      obtain ⟨⟨scope, isLoaded⟩, hmem, hfalse⟩ := List.countP_pos_iff.mp hpos
      simp only [Bool.not_eq_true'] at hfalse
      subst hfalse
      obtain ⟨place, hplace⟩ := List.mem_iff_getElem?.mp hmem
      obtain ⟨times, h₁, hrun₁, hcallers⟩ := exists_run_goOn l hc hphase hplace
      obtain ⟨hlt, hget⟩ := List.getElem?_eq_some_iff.mp hplace
      have hc₁ : h₁.callers[i]? =
          some { c with phase := .awaiting (scopes.set place (scope, true)) } := by
        rw [hcallers, List.getElem?_set_self (List.getElem?_eq_some_iff.mp hc).1]
      have hless : (scopes.set place (scope, true)).countP (fun p => !p.2) = n := by
        rw [List.countP_set hlt, hget, hleft]
        simp
      obtain ⟨places, h', scopes', hrun, hc', hall⟩ := ih hc₁ rfl hless
      refine ⟨List.replicate times place ++ places, h', scopes', ?_, hc', hall⟩
      rw [List.map_append, List.map_replicate, run_append, hrun₁]
      exact hrun

/-- A caller that waits gets to the end of its round, whatever the loader says from now on. -/
theorem exists_run_endRound
    (l : Loader)
    (hc : h.callers[i]? = some c)
    (hphase : c.phase = .awaiting scopes) :
    ∃ (places : List Nat) (h' : Hub),
      h.run (places.map (fun place => .turn i (.goOn place l)) ++ [.turn i .endRound]) =
        some h' := by
  obtain ⟨places, h₁, scopes', hrun, hc₁, hall⟩ := exists_run_allLoaded l hc hphase
  have hstep := step_turn hc₁ (Caller.turn_endRound rfl hall)
  exact ⟨places, _, by rw [run_append, hrun, Option.bind_some, run_cons, hstep]; rfl⟩

end Progress

section Turns

open Registry (Action)

variable {c : Caller} (l : Loader)

/-- What an operation makes of a caller is what a run of its turns makes of it. -/
def Follows
    (h : Hub)
    (i : Nat)
    (x : Action Caller) : Prop :=
  ∃ events r c, x.result h.registry = some (r, c) ∧
    h.run events = some ⟨r, h.callers.set i c⟩

/-- Loads go on one after the other, by induction on the scopes that follow those seen. -/
theorem follows_advanceLoads
    (seen scopes : List (String × Bool))
    (hc : h.callers[i]? = some c)
    (hphase : c.phase = .awaiting (seen ++ scopes)) :
    ∃ events r scopes', (Registry.advanceLoads l scopes).result h.registry = some (r, scopes') ∧
      h.run events =
        some ⟨r, h.callers.set i { c with phase := .awaiting (seen ++ scopes') }⟩ := by
  induction scopes generalizing h c seen with
  | nil =>
      refine ⟨[], h.registry, [], rfl, ?_⟩
      rw [← hphase, set_of_getElem? hc]
      rfl
  | cons p rest ih =>
      obtain ⟨scope, isLoaded⟩ := p
      cases isLoaded with
      | true =>
          obtain ⟨events, r, scopes', hresult, hrun⟩ :=
            ih (seen ++ [(scope, true)]) hc (by simpa using hphase)
          refine ⟨events, r, (scope, true) :: scopes', ?_, by simpa using hrun⟩
          simp [Registry.advanceLoads, hresult]
      | false =>
          obtain ⟨r₁, isLoaded, hgoOn⟩ := Registry.exists_result_advanceLoad h.registry l scope
          have hplace : (seen ++ (scope, false) :: rest)[seen.length]? = some (scope, false) := by
            simp
          have hstep := step_goOn hc hphase hplace hgoOn
          rw [List.set_append_right _ _ le_rfl, Nat.sub_self, List.set_cons_zero] at hstep
          obtain ⟨events, r, scopes', hresult, hrun⟩ :=
            ih (h := ⟨r₁, h.callers.set i
                { c with phase := .awaiting (seen ++ (scope, isLoaded) :: rest) }⟩)
              (seen ++ [(scope, isLoaded)])
              (List.getElem?_set_self (List.getElem?_eq_some_iff.mp hc).1) (by simp)
          refine ⟨.turn i (.goOn seen.length l) :: events, r, (scope, isLoaded) :: scopes', ?_, ?_⟩
          · simp [Registry.advanceLoads, hgoOn, hresult]
          · rw [run_cons, hstep, Option.bind_some, hrun]
            simp

/-- A caller that waits lets its loads go on and ends its round if they are done. -/
theorem follows_awaitLoads
    {scopes : List (String × Bool)}
    (hc : h.callers[i]? = some { c with phase := .awaiting scopes }) :
    h.Follows i (Registry.awaitLoads l c scopes) := by
  obtain ⟨events, r, scopes', hresult, hrun⟩ := follows_advanceLoads l [] scopes hc rfl
  refine ⟨events ++ if scopes'.all Prod.snd then [.turn i .endRound] else [], r, _,
    Registry.result_awaitLoads hresult, ?_⟩
  rw [run_append, hrun, Option.bind_some]
  split
  · rename_i hall
    have hend := Caller.turn_endRound (c := { c with phase := .awaiting scopes' }) (r := r) rfl
      (List.all_eq_true.mp hall)
    have hstep := step_turn (h := ⟨r, h.callers.set i { c with phase := .awaiting scopes' }⟩)
      (List.getElem?_set_self (List.getElem?_eq_some_iff.mp hc).1) hend
    rw [Registry.concluded_phase, List.set_set] at hstep
    exact (run_cons _ _ _).trans (by rw [List.nil_append, hstep]; rfl)
  · rfl

/-- Nothing happens to a caller that has its answer. -/
theorem follows_pure
    (hc : h.callers[i]? = some c) :
    h.Follows i (pure c) :=
  ⟨[], h.registry, c, rfl, by rw [set_of_getElem? hc]; rfl⟩

theorem follows_advanceCaller
    {l : Loader}
    (hloader : h.registry.loader = some l)
    (hc : h.callers[i]? = some c) :
    h.Follows i (Registry.advanceCaller c) := by
  have hlt := (List.getElem?_eq_some_iff.mp hc).1
  unfold Follows Registry.advanceCaller
  simp only [Action.result_bind, Action.result_current, Option.bind_some]
  cases hphase : c.phase with
  | finished outcome =>
      exact follows_pure hc
  | awaiting scopes =>
      simp only [hloader]
      refine follows_awaitLoads l ?_
      rw [hc, ← hphase]
  | between =>
      by_cases hempty : c.requests.queue.isEmpty = true
      · simp only [hempty, if_true]
        have hturn := Caller.turn_answer (r := h.registry) hphase hempty
        rw [Registry.result_finishCaller] at hturn
        refine ⟨[.turn i .answer], _, _, Registry.result_finishCaller c h.registry, ?_⟩
        rw [run_cons, step_turn hc hturn]
        rfl
      · have hturn := Caller.turn_lookUp (r := h.registry) hphase hempty
        obtain ⟨events, r, c', hresult, hrun⟩ := follows_awaitLoads
          (h := ⟨(Registry.beginLoads (h.registry.neededLoads c.requests) h.registry).1,
            h.callers.set i _⟩) l (List.getElem?_set_self hlt)
        refine ⟨.turn i .lookUp :: events, r, c', ?_, ?_⟩
        · simp only [hempty, hloader]
          exact hresult
        · rw [run_cons, step_turn hc hturn, Option.bind_some, hrun, List.set_set]

theorem follows_poll
    {l : Loader}
    (bound : Nat)
    (hloader : h.registry.loader = some l)
    (hc : h.callers[i]? = some c) :
    h.Follows i (Registry.poll bound c) := by
  induction bound generalizing h c with
  | zero =>
      exact follows_pure hc
  | succ bound ih =>
      obtain ⟨events, r, c', hresult, hrun⟩ := follows_advanceCaller hloader hc
      have hc' := List.getElem?_set_self (a := c') (List.getElem?_eq_some_iff.mp hc).1
      unfold Follows Registry.poll
      simp only [Action.result_bind, hresult, Option.bind_some]
      split
      · exact ⟨events, r, c', rfl, hrun⟩
      · have hloader' := ((run_onward hrun).loader).trans hloader
        obtain ⟨more, r'', c'', hresult', hrun'⟩ := ih hloader' hc'
        refine ⟨events ++ more, r'', c'', hresult', ?_⟩
        rw [run_append, hrun, Option.bind_some, hrun', List.set_set]

theorem exists_run_pollAll
    {l : Loader}
    (bound : Nat)
    (others callers : List Caller)
    (hloader : h.registry.loader = some l)
    (hcallers : h.callers = others ++ callers) :
    ∃ events r callers', (Registry.pollAll bound callers).result h.registry = some (r, callers') ∧
      h.run events = some ⟨r, others ++ callers'⟩ := by
  induction callers generalizing h others with
  | nil =>
      exact ⟨[], h.registry, [], rfl, by rw [← hcallers]; rfl⟩
  | cons c rest ih =>
      have hc : h.callers[others.length]? = some c := by simp [hcallers]
      have hfollows : h.Follows others.length
          (if c.isFinished then pure c else Registry.poll bound c) := by
        split
        · exact follows_pure hc
        · exact follows_poll bound hloader hc
      obtain ⟨events, r, c', hresult, hrun⟩ := hfollows
      rw [hcallers, List.set_append_right _ _ le_rfl, Nat.sub_self, List.set_cons_zero] at hrun
      obtain ⟨more, r', callers', hresult', hrun'⟩ :=
        ih (h := ⟨r, others ++ c' :: rest⟩) (others ++ [c'])
          (((run_onward hrun).loader).trans hloader) (by simp)
      refine ⟨events ++ more, r', c' :: callers', ?_, ?_⟩
      · unfold Registry.pollAll
        split at hresult <;> simp_all
      · rw [run_append, hrun, Option.bind_some, hrun']
        simp

theorem exists_run_pollUntilFinished
    {l : Loader}
    (bound turns : Nat)
    (others callers : List Caller)
    (hloader : h.registry.loader = some l)
    (hcallers : h.callers = others ++ callers) :
    ∃ events r callers',
      (Registry.pollUntilFinished bound turns callers).result h.registry = some (r, callers') ∧
      h.run events = some ⟨r, others ++ callers'⟩ := by
  induction turns generalizing h callers with
  | zero =>
      exact ⟨[], h.registry, callers, rfl, by rw [← hcallers]; rfl⟩
  | succ turns ih =>
      obtain ⟨events, r, callers', hresult, hrun⟩ :=
        exists_run_pollAll bound others callers hloader hcallers
      unfold Registry.pollUntilFinished
      simp only [Action.result_bind, hresult, Option.bind_some]
      split
      · exact ⟨events, r, callers', rfl, hrun⟩
      · obtain ⟨more, r', callers'', hresult', hrun'⟩ :=
          ih (h := ⟨r, others ++ callers'⟩) callers' (((run_onward hrun).loader).trans hloader) rfl
        exact ⟨events ++ more, r', callers'', hresult', by
          rw [run_append, hrun, Option.bind_some, hrun']⟩

theorem run_calls
    (h : Hub)
    (requests : List GrammarRequest) :
    h.run (requests.map .call) =
      some ⟨h.registry, h.callers ++ requests.map Caller.start⟩ := by
  induction requests generalizing h with
  | nil =>
      simp [run]
  | cons request rest ih =>
      rw [List.map_cons, run_cons]
      simp [step, ih]

/-- Loading grammars is a run in which the callers come and take turns, one after the other. Their
answers are those it gives. -/
theorem exists_run_loadAll
    {l : Loader}
    (hloader : h.registry.loader = some l)
    (requests : List GrammarRequest) :
    ∃ events r callers,
      (Registry.loadAll requests).result h.registry = some (r, callers.map Caller.outcome) ∧
      h.run events = some ⟨r, h.callers ++ callers⟩ := by
  have hcalls := run_calls h requests
  unfold Registry.loadAll
  simp only [Action.result_bind, Action.result_current, Option.bind_some]
  obtain ⟨events, r, callers, hresult, hrun⟩ := exists_run_pollUntilFinished
    (h := ⟨h.registry, h.callers ++ requests.map Caller.start⟩)
    (h.registry.requestBound + 3)
    (((h.registry.requestBound + 3) * requests.length + 1) * (h.registry.longestDelay + 2))
    h.callers (requests.map Caller.start) hloader rfl
  refine ⟨requests.map .call ++ events, r, callers, ?_, ?_⟩
  · rw [hresult]
    rfl
  · rw [run_append, hcalls, Option.bind_some, hrun]

end Turns

end Hub

end LineScopes
