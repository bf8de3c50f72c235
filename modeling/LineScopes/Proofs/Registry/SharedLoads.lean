import LineScopes.Proofs.Registry.Failure
import LineScopes.Proofs.Registry.Turns
import Mathlib.Data.List.Induction

/-!
# Loads that callers share

In every run the loader is asked at most once for a scope. A round waits for the loads of all that
it has not found stored, also those that another caller has begun, and each of these loads has one
outcome, whoever waits for it.

**Main definitions.** `Hub.Happens`, `Hub.InRound`, `Hub.Waits`, `Hub.Shares`.

**Main statements.** `Hub.step_awaiting`, `Hub.run_awaiting`: what is known of a caller that waits,
by induction over the events. `Hub.shares_outcomeOf`: everyone gets the outcomes of the loads.
`Hub.loads_shared`: the loader is asked once, and everyone gets what it says.
-/

namespace LineScopes

namespace Hub

/-- An event of a run, with all that went before it. -/
structure Happens
    (start : Hub)
    (events before : List Event)
    (e : Event)
    (h h' : Hub) : Prop where
  place : before ++ [e] <+: events
  reached : start.run before = some h
  step : h.step e = some h'

/-- The round that a caller is in after some events has begun at a hub, with the caller as it was
then. -/
def InRound
    (start : Hub)
    (events : List Event)
    (i : Nat)
    (h : Hub)
    (c : Caller) : Prop :=
  ∃ before after, events = before ++ .turn i .lookUp :: after ∧ start.run before = some h ∧
    h.callers[i]? = some c ∧ .turn i .endRound ∉ after

/-- Each load of a run has one outcome, and each round gets the outcomes of the loads it needs. -/
structure Shares
    (start : Hub)
    (events : List Event)
    (outcome : String → Except Error Unit) : Prop where
  /-- The outcome is what the loader, once it was asked, answered when the load became done; a
  document was stored then. -/
  answers : ∀ {before e h h' scope}, Happens start events before e h h' →
    ¬ h.registry.HasLoaded scope → h'.registry.HasLoaded scope →
    ∃ i place l, e = .turn i (.goOn place l) ∧ scope ∈ h'.registry.asked ∧
      outcome scope = (l.answer scope).map (fun _ => ()) ∧
      ∀ g, l.answer scope = .ok (some g) → h'.registry.library = h.registry.library.insert g
  /-- Whatever was missing when the round was begun is done when it ends. The first failure is the
  answer of the caller; if there is none, the documents are walked. -/
  ends : ∀ {before i h h'}, Happens start events before (.turn i .endRound) h h' →
    ∃ h₀ c, InRound start before i h₀ c ∧
      (∀ scope ∈ h₀.registry.neededLoads c.requests,
        h.registry.loads.lookup scope = some (.done (outcome scope))) ∧
      h'.registry = h.registry ∧
      h'.callers[i]? =
        some (h.registry.concluded c ((h₀.registry.neededLoads c.requests).forM outcome))

variable {start h h' : Hub} {e : Event} {events : List Event} {i : Nat}

theorem step_askedOnce
    (hr : h.registry.AskedOnce)
    (hstep : h.step e = some h') :
    h'.registry.AskedOnce := by
  rcases registry_cases hstep with hquiet | ⟨i, place, l, c, scopes, scope, b, -, -, -, -, hresult⟩
  · exact hquiet.askedOnce hr
  · exact hr.advanceLoad hresult

theorem run_askedOnce
    (hr : h.registry.AskedOnce)
    (hrun : h.run events = some h') :
    h'.registry.AskedOnce := by
  induction events generalizing h with
  | nil =>
      cases hrun
      exact hr
  | cons e rest ih =>
      obtain ⟨h₁, hstep, hrest⟩ := Option.bind_eq_some_iff.mp hrun
      exact ih (step_askedOnce hr hstep) hrest

/-- A round lasts until it is ended. -/
theorem InRound.append
    {h₀ : Hub}
    {c : Caller}
    (hround : InRound start events i h₀ c)
    (he : e ≠ .turn i .endRound) :
    InRound start (events ++ [e]) i h₀ c := by
  obtain ⟨before, after, rfl, hrun, hc, hlasts⟩ := hround
  refine ⟨before, after ++ [e], by simp, hrun, hc, ?_⟩
  simp [hlasts, he.symm]

/-- What is known of a caller that waits: its round was begun with just the scopes that were missing
then, and those it has seen to be done are done. -/
def Waits
    (start : Hub)
    (events : List Event)
    (h : Hub)
    (i : Nat)
    (c : Caller)
    (scopes : List (String × Bool)) : Prop :=
  ∃ h₀ c₀, InRound start events i h₀ c₀ ∧ c = { c₀ with phase := .awaiting scopes } ∧
    scopes.map Prod.fst = h₀.registry.neededLoads c₀.requests ∧
    ∀ scope, (scope, true) ∈ scopes → h.registry.HasLoaded scope

theorem Waits.append
    {c : Caller}
    {scopes : List (String × Bool)}
    (hwaits : Waits start events h i c scopes)
    (honward : h.registry.Onward h'.registry)
    (he : e ≠ .turn i .endRound) :
    Waits start (events ++ [e]) h' i c scopes := by
  obtain ⟨h₀, c₀, hround, hc, hscopes, hdone⟩ := hwaits
  exact ⟨h₀, c₀, hround.append he, hc, hscopes, fun scope hscope =>
    honward.hasLoaded (hdone scope hscope)⟩

/-- One event preserves what is known of the callers that wait. -/
theorem step_awaiting
    (hwaits : ∀ i c scopes, h.callers[i]? = some c → c.phase = .awaiting scopes →
      Waits start events h i c scopes)
    (hrun : start.run events = some h)
    (hstep : h.step e = some h')
    {c' : Caller}
    {scopes' : List (String × Bool)}
    (hc' : h'.callers[i]? = some c')
    (hphase' : c'.phase = .awaiting scopes') :
    Waits start (events ++ [e]) h' i c' scopes' := by
  have honward := step_onward hstep
  rcases caller_cases hstep hc' with ⟨hc, he⟩ | ⟨request, rfl, rfl, -⟩ | ⟨t, c, rfl, hc, hturn⟩
  · exact (hwaits i c' scopes' hc hphase').append honward (he .endRound)
  · cases hphase'
  · cases t with
    | lookUp =>
        obtain ⟨-, -, rfl⟩ := Caller.lookUp_cases hturn
        cases hphase'
        refine ⟨h, c, ⟨events, [], rfl, hrun, hc, by simp⟩, rfl, ?_, fun scope hscope => ?_⟩
        · rw [List.map_map]
          exact List.map_id _
        · simp at hscope
    | goOn place l =>
        obtain ⟨scopes, scope, isLoaded, hphase, hplace, hresult, rfl⟩ := Caller.goOn_cases hturn
        cases hphase'
        obtain ⟨h₀, c₀, hround, rfl, hscopes, hdone⟩ :=
          (hwaits i c scopes hc hphase).append (e := .turn i (.goOn place l)) honward (by simp)
        refine ⟨h₀, c₀, hround, rfl, ?_, fun other hother => ?_⟩
        · rw [← hscopes, List.map_set]
          exact set_of_getElem? (by simp [hplace])
        · rcases List.mem_or_eq_of_mem_set hother with hold | hnew
          · exact hdone other hold
          · cases hnew
            exact Registry.hasLoaded_advanceLoad hresult
    | endRound =>
        obtain ⟨scopes, -, -, -, rfl⟩ := Caller.endRound_cases hturn
        exact absurd hphase' (Caller.concluded_not_awaiting _ _ _ _)
    | answer =>
        obtain ⟨-, outcome, rfl⟩ := Caller.answer_cases hturn
        cases hphase'

/-- A caller that waits waits for what was missing when its round was begun. -/
theorem run_awaiting
    (hcallers : start.callers = [])
    (hrun : start.run events = some h) :
    ∀ i c scopes, h.callers[i]? = some c → c.phase = .awaiting scopes →
      Waits start events h i c scopes := by
  induction events using List.reverseRecOn generalizing h with
  | nil =>
      cases hrun
      intro i c scopes hc
      simp [hcallers] at hc
  | append_singleton events e ih =>
      obtain ⟨h₁, hfirst, hstep⟩ := exists_of_run_append_singleton hrun
      intro i c scopes hc hphase
      exact step_awaiting (ih hfirst) hfirst hstep hc hphase

section Runs

variable {before : List Event} {h₁ h₂ : Hub}

/-- What happens after an event of a run forgets nothing. -/
theorem Happens.onward
    (hhappens : Happens start events before e h₁ h₂)
    (hrun : start.run events = some h) :
    h₂.registry.Onward h.registry := by
  obtain ⟨rest, rfl⟩ := hhappens.place
  rw [List.append_assoc, run_append, hhappens.reached, Option.bind_some, List.singleton_append,
    run_cons, hhappens.step] at hrun
  exact run_onward hrun

/-- The loader is asked only for what a caller waits for, which was missing when its round was
begun. -/
theorem Happens.asked_cases
    (hhappens : Happens start events before e h₁ h₂)
    (hcallers : start.callers = []) :
    h₂.registry.asked = h₁.registry.asked ∨
      ∃ i place l scope h₀ c, e = .turn i (.goOn place l) ∧
        h₂.registry.asked = h₁.registry.asked ++ [scope] ∧ InRound start before i h₀ c ∧
        (∃ x ∈ c.requests.queue, x.scope = scope) ∧
        h₀.registry.library.contains scope = false := by
  rcases registry_cases hhappens.step with
    hquiet | ⟨i, place, l, c, scopes, scope, isLoaded, rfl, hc, hphase, hplace, hresult⟩
  · exact .inl hquiet.asked
  · rw [Registry.asked_advanceLoad hresult]
    split
    · exact .inl rfl
    · obtain ⟨h₀, c₀, hround, rfl, hscopes, -⟩ :=
        run_awaiting hcallers hhappens.reached i c scopes hc hphase
      have hneeded : scope ∈ h₀.registry.neededLoads c₀.requests := by
        rw [← hscopes]
        exact List.mem_map_of_mem (List.mem_of_getElem? hplace)
      obtain ⟨hqueue, hmissing⟩ := Registry.mem_neededLoads.mp hneeded
      exact .inr ⟨i, place, l, scope, h₀, c₀, rfl, rfl, hround, hqueue, hmissing⟩

/-- The documents are walked only when a round ends. -/
theorem eq_endRound_of_ne
    {c₁ c₂ : Caller}
    (hstep : h₁.step e = some h₂)
    (hc₁ : h₁.callers[i]? = some c₁)
    (hc₂ : h₂.callers[i]? = some c₂)
    (hne : c₂.requests ≠ c₁.requests) :
    e = .turn i .endRound := by
  rcases caller_cases hstep hc₂ with
    ⟨hsame, -⟩ | ⟨request, -, -, hnone⟩ | ⟨t, c, rfl, hc, hturn⟩
  · rw [hc₁] at hsame
    cases hsame
    exact absurd rfl hne
  · rw [hc₁] at hnone
    cases hnone
  · rw [hc₁] at hc
    cases hc
    cases t with
    | lookUp =>
        obtain ⟨-, -, rfl⟩ := Caller.lookUp_cases hturn
        exact absurd rfl hne
    | goOn place l =>
        obtain ⟨scopes, scope, isLoaded, -, -, -, rfl⟩ := Caller.goOn_cases hturn
        exact absurd rfl hne
    | endRound =>
        rfl
    | answer =>
        obtain ⟨-, outcome, rfl⟩ := Caller.answer_cases hturn
        exact absurd rfl hne

theorem forM_congr
    {α : Type}
    {f g : α → Except Error Unit}
    {xs : List α}
    (h : ∀ x ∈ xs, f x = g x) :
    xs.forM f = xs.forM g := by
  induction xs with
  | nil =>
      rfl
  | cons x rest ih =>
      change (f x >>= fun _ => rest.forM f) = (g x >>= fun _ => rest.forM g)
      rw [h x List.mem_cons_self, ih fun y hy => h y (List.mem_cons_of_mem x hy)]

/-- The outcomes that the loads have in the end are those that everyone gets. -/
theorem shares_outcomeOf
    (hasked : start.registry.AskedOnce)
    (hcallers : start.callers = [])
    (hrun : start.run events = some h) :
    Shares start events h.registry.outcomeOf := by
  refine ⟨fun {before e h₁ h₂ scope} hhappens hbefore hafter => ?_,
    fun {before i h₁ h₂} hhappens => ?_⟩
  · have honward := hhappens.onward hrun
    rcases registry_cases hhappens.step with
      hquiet | ⟨i, place, l, c, scopes, scope', isLoaded, rfl, -, -, -, hresult⟩
    · exact absurd ((hquiet.hasLoaded_iff scope).mp hafter) hbefore
    · obtain ⟨rfl, hlookup, hlibrary⟩ := Registry.answer_of_hasLoaded hresult hbefore hafter
      have hasked' := step_askedOnce (run_askedOnce hasked hhappens.reached) hhappens.step
      refine ⟨i, place, l, rfl, (hasked'.mem_iff _).mpr hafter.hasAsked, ?_, hlibrary⟩
      simp only [Registry.outcomeOf, honward.done _ _ hlookup]
  · have honward := (step_onward hhappens.step).trans (hhappens.onward hrun)
    obtain ⟨c, c', hc, hturn, hset⟩ := step_turn_cases hhappens.step
    obtain ⟨scopes, hphase, hall, hregistry, rfl⟩ := Caller.endRound_cases hturn
    obtain ⟨h₀, c₀, hround, rfl, hscopes, hdone⟩ :=
      run_awaiting hcallers hhappens.reached i c scopes hc hphase
    have hneeded : ∀ scope ∈ h₀.registry.neededLoads c₀.requests,
        h₁.registry.HasLoaded scope := by
      intro scope hscope
      rw [← hscopes] at hscope
      obtain ⟨⟨s, isLoaded⟩, hmem, rfl⟩ := List.mem_map.mp hscope
      have hloaded : isLoaded = true := hall _ hmem
      exact hdone s (hloaded ▸ hmem)
    refine ⟨h₀, c₀, hround, fun scope hscope => ?_, hregistry, ?_⟩
    · rw [honward.outcomeOf (hneeded scope hscope)]
      exact (hneeded scope hscope).lookup
    · rw [hset, List.getElem?_set_self (List.getElem?_eq_some_iff.mp hc).1,
        Registry.concluded_phase, hscopes]
      rw [forM_congr fun scope hscope => honward.outcomeOf (hneeded scope hscope)]

/-- In every run of a registry with a loader, the loader is asked at most once for a scope, and only
in a round that did not find it stored. A round ends, and the documents are walked, only when the
loads of all that it did not find stored are done; each of these loads has one outcome, that of its
answer, which everyone gets. A caller that waits can get to the end of its round, whatever the
loader says. Loading grammars is a run.

What a round finds stored it does without, even if a load of it is in flight. -/
theorem loads_shared
    {o : RegistryOptions}
    {r : Registry}
    {l : Loader}
    {events : List Event}
    {h : Hub}
    (hr : Registry.ofOptions o = .ok r)
    (hloader : o.loader = some l)
    (hrun : run ⟨r, []⟩ events = some h) :
    h.registry.asked.Nodup ∧
    (∀ before e h₁ h₂, Happens ⟨r, []⟩ events before e h₁ h₂ →
      h₂.registry.asked = h₁.registry.asked ∨
      ∃ i place l scope h₀ c, e = .turn i (.goOn place l) ∧
        h₂.registry.asked = h₁.registry.asked ++ [scope] ∧ InRound ⟨r, []⟩ before i h₀ c ∧
        (∃ x ∈ c.requests.queue, x.scope = scope) ∧
        h₀.registry.library.contains scope = false) ∧
    (∃ outcome, Shares ⟨r, []⟩ events outcome) ∧
    (∀ before e h₁ h₂, Happens ⟨r, []⟩ events before e h₁ h₂ →
      ∀ i c₁ c₂, h₁.callers[i]? = some c₁ → h₂.callers[i]? = some c₂ →
        c₂.requests ≠ c₁.requests → e = .turn i .endRound) ∧
    (∀ i c scopes, h.callers[i]? = some c → c.phase = .awaiting scopes → ∀ l : Loader,
      ∃ (places : List Nat) (h' : Hub),
        h.run (places.map (fun place => .turn i (.goOn place l)) ++ [.turn i .endRound]) =
          some h') ∧
    ∀ requests, ∃ more r' callers,
      (Registry.loadAll requests).result h.registry = some (r', callers.map Caller.outcome) ∧
      h.run more = some ⟨r', h.callers ++ callers⟩ := by
  obtain ⟨hkept, hasked⟩ := Registry.ofOptions_loads hr
  have hkept' := ((run_onward hrun).loader.trans hkept).trans hloader
  exact ⟨(run_askedOnce hasked hrun).nodup,
    fun _ _ _ _ hhappens => hhappens.asked_cases rfl,
    ⟨h.registry.outcomeOf, shares_outcomeOf hasked rfl hrun⟩,
    fun _ _ _ _ hhappens _ _ _ hc₁ hc₂ hne => eq_endRound_of_ne hhappens.step hc₁ hc₂ hne,
    fun _ _ _ hc hphase l => exists_run_endRound l hc hphase,
    exists_run_loadAll hkept'⟩

end Runs

section Page

/-- A loader that takes its time for the grammar of code, and fails for words. -/
def shelf : Loader where
  answers := [("text.page", .ok pageGrammar), ("source.code", .ok codeGrammar),
    ("source.word", .error (.loader "lost"))]
  delays := [("source.code", 1)]

/-- A new registry with this loader. -/
def stocked : Registry :=
  { Registry.blank with loader := some shelf }

theorem ofOptions_stocked :
    Registry.ofOptions { loader := some shelf } = .ok stocked := by
  simp only [Registry.ofOptions, Theme.ofDocument_none]
  rfl

/-- One caller wants pages, the other one code. The grammar of code is in flight when the first
caller needs it, in part and as a whole. The grammar of words is added while the second caller waits
for it. -/
def pageRun : List Event :=
  [.call ⟨"text.page", 0, none⟩, .call ⟨"source.code", 0, none⟩,
    .turn 0 .lookUp, .turn 1 .lookUp,
    .turn 1 (.goOn 0 shelf), .turn 0 (.goOn 0 shelf), .turn 0 .endRound,
    .turn 0 .lookUp, .turn 0 (.goOn 0 shelf), .turn 0 (.goOn 1 shelf),
    .turn 1 (.goOn 0 shelf), .turn 1 .endRound,
    .turn 1 .lookUp, .operate (.add wordGrammar []),
    .turn 0 .endRound, .turn 0 .lookUp, .turn 0 .endRound,
    .turn 1 (.goOn 0 shelf), .turn 1 .endRound, .turn 0 .answer]

/-- Everything was asked for once. The first caller has its grammar, since words were stored when it
looked them up; the second one gets the failure it has waited for. -/
theorem loads_shared_page :
    Registry.ofOptions { loader := some shelf } = .ok stocked ∧
    ∃ h, run ⟨stocked, []⟩ pageRun = some h ∧
      h.registry.asked = ["source.code", "text.page", "source.word"] ∧ h.registry.asked.Nodup ∧
      (h.callers.map fun c => c.outcome.map fun g => g.scope) =
        [.ok "text.page", .error (.loader "lost")] ∧
      ∃ outcome, Shares ⟨stocked, []⟩ pageRun outcome := by
  have hends : (run ⟨stocked, []⟩ pageRun).map (fun h => (h.registry.asked,
      h.callers.map fun c => c.outcome.map fun g => g.scope)) =
      some (["source.code", "text.page", "source.word"],
        [.ok "text.page", .error (.loader "lost")]) := by
    decide +kernel
  obtain ⟨h, hrun, hend⟩ := Option.map_eq_some_iff.mp hends
  obtain ⟨hasked, hanswers⟩ := Prod.ext_iff.mp hend
  obtain ⟨hnodup, -, hshares, -⟩ := loads_shared ofOptions_stocked rfl hrun
  exact ⟨ofOptions_stocked, h, hrun, hasked, hnodup, hanswers, hshares⟩

end Page

end Hub

end LineScopes
