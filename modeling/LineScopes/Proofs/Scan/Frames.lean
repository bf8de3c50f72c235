import LineScopes.Proofs.Outcome
import LineScopes.Proofs.Scan.Step
import LineScopes.Scan.Line

/-!
# What lasts on the stack

A scan enters frames, changes the scopes and the end pattern of the frame on top, keeps patterns in
frames and leaves frames. A property of frames that all of this respects holds of every frame of
every state that a scan comes through.

**Main definitions.** `State.All`, `Handling.All`, `Frame.Lasting`.

**Main statements.** `step_all`, `run_all`, `scanLine_all`: a lasting property holds after a step,
a run and a line.
-/

namespace LineScopes

namespace State

/-- All frames of a state have a property. -/
def All
    (P : Frame → Prop)
    (s : State) : Prop :=
  ∀ f ∈ s.frames, P f

namespace All

variable {P : Frame → Prop} {s : State}

theorem top
    (hs : s.All P) :
    P s.top :=
  hs s.top List.mem_cons_self

theorem push
    (hs : s.All P)
    {f : Frame}
    (hf : P f) :
    (s.push f).All P := by
  intro g hg
  rcases List.mem_cons.mp hg with rfl | hg
  · exact hf
  · exact hs g hg

theorem mapTop
    (hs : s.All P)
    {change : Frame → Frame}
    (hchange : P s.top → P (change s.top)) :
    (s.mapTop change).All P := by
  intro f hf
  rcases List.mem_cons.mp hf with rfl | hf
  · exact hchange hs.top
  · exact hs f (List.mem_cons_of_mem _ hf)

theorem pop
    (hs : s.All P) :
    s.pop.All P := by
  obtain ⟨top, below⟩ := s
  cases below with
  | nil =>
      exact hs
  | cons f rest =>
      exact fun g hg => hs g (List.mem_cons_of_mem top hg)

end All

/-- The states below a state have some of its frames. -/
theorem frames_subset_of_mem_suffixes
    {s t : State}
    (h : t ∈ s.suffixes) :
    t.frames ⊆ s.frames := by
  have hgo : ∀ below f, t ∈ suffixes.go f below → t.frames ⊆ f :: below := by
    intro below
    induction below with
    | nil =>
        intro f ht
        obtain rfl : t = ⟨f, []⟩ := by simpa [suffixes.go] using ht
        exact List.Subset.refl _
    | cons g rest ih =>
        intro f ht
        rcases List.mem_cons.mp ht with rfl | ht
        · exact List.Subset.refl _
        · exact List.Subset.trans (ih g ht) (List.subset_cons_self f (g :: rest))
  exact hgo s.below s.top h

end State

/-- A property of frames that holds when a frame is entered and is not lost on the stack. -/
structure Frame.Lasting
    (g : Grammar)
    (P : Frame → Prop) : Prop where
  entered : ∀ rule enter anchor reachesEnd nameScopes contentScopes,
    P (.entered rule enter anchor reachesEnd nameScopes contentScopes)
  withContentScopes : ∀ f scopes, P f → P (f.withContentScopes scopes)
  withClosing : ∀ f text, P f → P (f.withClosing text)
  keepInside : ∀ f, P f → P (g.keepInside f)
  keepOnward : ∀ f, (g.linesRule? f.rule).isSome = true → P f → P (g.keepOnward f)
  reset : ∀ f, P f → P f.reset

/-- All frames of the states that a match leads to have a property. -/
structure Handling.All
    (P : Frame → Prop)
    (k : Handling) : Prop where
  state : k.state.All P
  next : k.next.All P
  recovery : ∀ r, k.recovery = some r → r.All P

theorem State.All.reset
    {g : Grammar}
    {P : Frame → Prop}
    {s : State}
    (hs : s.All P)
    (hP : Frame.Lasting g P) :
    s.reset.All P := by
  intro f hf
  obtain ⟨f, hmem, rfl⟩ : ∃ h ∈ s.frames, h.reset = f := by
    simpa [frames, State.reset, eq_comm] using hf
  exact hP.reset f (hs f hmem)

section Run

variable {s : LineScanner} {rescan : Rescan} {text : String}

/-- A run stops because time is over, or it takes a step and ends there or goes on. -/
theorem run_succ_eq_ok
    {bound : Nat}
    {limit : TimeLimit}
    {c : Cursor}
    {newest : List Entry}
    {e : ScanEnd}
    (h : (run s rescan text (bound + 1) limit c newest).outcome = .ok e) :
    (limit = some 0 ∧ e = ⟨c, true⟩) ∨
      ∃ p, (step s rescan text c).outcome = .ok p ∧
        (p = .finished e.cursor ∧ e.stopped = false ∨
          ∃ d, p = .onward d ∧
            (run s rescan text bound (limit.map Nat.pred) d []).outcome = .ok e) := by
  rw [outcome_run_succ] at h
  split at h
  · rename_i hlimit
    left
    exact ⟨hlimit, by simpa using h.symm⟩
  · right
    cases hstep : (step s rescan text c).outcome with
    | error error =>
        simp [hstep, Except.bind] at h
    | ok p =>
        refine ⟨p, rfl, ?_⟩
        simp only [hstep, Except.bind] at h
        cases p with
        | finished d =>
            left
            obtain rfl : ⟨d, false⟩ = e := by simpa [Progress.andThen] using h
            exact ⟨rfl, rfl⟩
        | onward d =>
            right
            exact ⟨d, rfl, h⟩

/-- The groups of a continuation are handled, and the scan goes on behind it. -/
theorem outcome_handleContinuation
    (c : Cursor)
    (r : WhileRule)
    (state : State)
    (m : PatternMatch) :
    (handleContinuation s rescan text c r state m).outcome =
      (handleCaptures s rescan (c.site text m state) r.continuingCaptures
        (c.coverage.extend state.top.contentScopes m.first)).outcome.map fun coverage =>
          Cursor.advance
            { c with
              coverage := coverage.extend state.top.contentScopes m.last, anchor := some m.last }
            m.last := by
  simp only [handleContinuation, Reported.outcome_reportIf_bind, LineScanner.outcome_produce_bind]
  refine Reported.outcome_bind_eq_map fun coverage => ?_
  simp only [LineScanner.outcome_produce_bind, Reported.outcome_pure]

/-- The text of a continuation is covered with the stack as it is. -/
theorem state_handleContinuation
    {c d : Cursor}
    {r : WhileRule}
    {t : State}
    {m : PatternMatch}
    (h : (handleContinuation s rescan text c r t m).outcome = .ok d) :
    d.state = c.state := by
  rw [outcome_handleContinuation] at h
  obtain ⟨coverage, -, rfl⟩ := exists_of_map_eq_ok h
  unfold Cursor.advance
  split <;> rfl

end Run

section Lasting

variable {s : LineScanner} {P : Frame → Prop} (hP : Frame.Lasting s.grammar P)
variable {rescan : Rescan} {text : String} {c : Cursor}
include hP

theorem Cursor.kept_all
    (hc : c.state.All P) :
    (c.kept s.grammar).state.All P :=
  hc.mapTop (hP.keepInside _)

theorem Cursor.handling_all
    (hc : c.state.All P)
    {m : PatternMatch}
    {k : Handling}
    (hk : c.handling s text m = some k) :
    k.All P := by
  have hrecovery : ∀ {b : Prop} [Decidable b] {t : State}, t.All P →
      ∀ r, (if b then some t else none) = some r → r.All P := by
    intro b _ t ht r hr
    split at hr
    · obtain rfl : t = r := Option.some.inj hr
      exact ht
    · cases hr
  rcases Cursor.handling_eq_some hk with ⟨-, rfl⟩ | ⟨id, rule, -, -, hrule⟩
  · have hclosed : c.state.delimited.All P := hc.mapTop (hP.withContentScopes _ _)
    exact ⟨hclosed, hclosed.pop, hrecovery hclosed⟩
  · have hentered : (c.entered s text m id rule).All P := hc.push (hP.entered _ _ _ _ _ _)
    rcases hrule with ⟨captures, closing, rfl⟩ | rfl
    · have hopened : (c.opened s text m id rule closing).All P := by
        unfold Cursor.opened resolveClosing
        dsimp only
        split
        · exact (hentered.mapTop (hP.withContentScopes _ _)).mapTop (hP.withClosing _ _)
        · exact hentered.mapTop (hP.withContentScopes _ _)
      exact ⟨hentered, hopened, hrecovery hopened.pop⟩
    · exact ⟨hentered, hc, hrecovery hc.pop⟩

theorem step_all
    (hc : c.state.All P)
    {p : Progress}
    (h : (step s rescan text c).outcome = .ok p) :
    p.state.All P := by
  have hkept := Cursor.kept_all hP hc
  rcases step_eq_ok h with rfl | ⟨m, k, coverage, -, hk, -, rfl⟩
  · exact hkept
  · obtain ⟨-, hnext, hrecovery⟩ := Cursor.handling_all hP hkept hk
    rcases Cursor.state_resume with hstate | hstate
    · rw [hstate]
      exact hnext
    · exact hrecovery _ hstate

theorem run_all
    {bound : Nat}
    {limit : TimeLimit}
    {newest : List Entry}
    {e : ScanEnd}
    (hc : c.state.All P)
    (h : (run s rescan text bound limit c newest).outcome = .ok e) :
    e.cursor.state.All P := by
  induction bound generalizing limit c newest with
  | zero =>
      simp [run] at h
  | succ bound ih =>
      rcases run_succ_eq_ok h with ⟨-, rfl⟩ | ⟨p, hstep, hp⟩
      · exact hc
      · have hstate := step_all hP hc hstep
        rcases hp with ⟨rfl, -⟩ | ⟨d, rfl, hrun⟩
        · exact hstate
        · exact ih hstate hrun

theorem keepContinuations_all
    {state : State}
    (hstate : state.All P) :
    (keepContinuations s.grammar state).All P := by
  have hkeep : ∀ f, P f →
      P (if (s.grammar.linesRule? f.rule).isSome then s.grammar.keepOnward f else f) := by
    intro f hf
    split
    · exact hP.keepOnward f ‹_› hf
    · exact hf
  intro f hf
  rcases List.mem_cons.mp hf with rfl | hf
  · exact hkeep _ hstate.top
  · obtain ⟨f, hbelow, rfl⟩ := List.mem_map.mp hf
    exact hkeep f (hstate f (List.mem_cons_of_mem _ hbelow))

omit hP in
theorem linesFrames_all
    {g : Grammar}
    {state : State}
    (hstate : state.All P)
    {r : WhileRule}
    {t : State}
    (h : (r, t) ∈ linesFrames g state) :
    t.All P := by
  simp only [linesFrames, List.mem_reverse, List.mem_filterMap, Option.map_eq_some_iff] at h
  obtain ⟨u, hu, rule, -, hpair⟩ := h
  obtain rfl : u = t := (Prod.mk.inj hpair).2
  exact fun f hf => hstate f (State.frames_subset_of_mem_suffixes hu hf)

omit hP in
theorem continueRules_all
    {rules : List (WhileRule × State)}
    (hrules : ∀ r t, (r, t) ∈ rules → t.All P)
    {c d : Cursor}
    (hc : c.state.All P)
    (h : (continueRules s rescan text rules c).outcome = .ok d) :
    d.state.All P := by
  induction rules generalizing c with
  | nil =>
      obtain rfl : c = d := by simpa [continueRules] using h
      exact hc
  | cons rule rest ih =>
      obtain ⟨r, t⟩ := rule
      have hleave : t.pop.All P := (hrules r t List.mem_cons_self).pop
      simp only [continueRules, Reported.outcome_bind_eq_ok, Reported.outcome_liftM] at h
      obtain ⟨found, -, h⟩ := h
      cases found with
      | none =>
          simp only [Reported.outcome_reportIf_bind, Reported.outcome_pure, Except.ok.injEq] at h
          subst h
          exact hleave
      | some m =>
          dsimp only at h
          split at h
          · simp only [Reported.outcome_bind_eq_ok] at h
            obtain ⟨next, hnext, h⟩ := h
            refine ih (fun r t hmem => hrules r t (List.mem_cons_of_mem _ hmem)) ?_ h
            rw [state_handleContinuation hnext]
            exact hc
          · simp only [Reported.outcome_reportIf_bind, Reported.outcome_pure,
              Except.ok.injEq] at h
            subst h
            exact hleave

theorem startLine_all
    {firstLine : Bool}
    {state : State}
    (hstate : state.All P)
    {coverage : Coverage}
    (h : (startLine s rescan text firstLine state coverage).outcome = .ok c) :
    c.state.All P := by
  have hkept := keepContinuations_all hP hstate
  exact continueRules_all (fun _ _ hmem => linesFrames_all hkept hmem) hkept h

/-- The frames of the line before are taken over, unless it is the first line. -/
theorem startState_all
    {previous : State}
    (hprevious : previous.isInitial = false → previous.All P) :
    (startState s previous).All P := by
  unfold startState
  split
  · intro f hf
    obtain rfl := List.mem_singleton.mp hf
    exact hP.entered _ _ _ _ _ _
  · rename_i hlater
    exact (hprevious (by simpa using hlater)).reset hP

/-- A lasting property holds of the state that a line leaves. -/
theorem scanLine_all
    {nesting : Nat}
    {line : String}
    {previous : State}
    (hprevious : previous.isInitial = false → previous.All P)
    {limit : TimeLimit}
    {l : ScannedLine}
    (h : (scanLine s nesting line previous limit).outcome = .ok l) :
    l.state.All P := by
  simp only [scanLine, scanText, Reported.outcome_bind_eq_ok] at h
  obtain ⟨e, ⟨c, hstart, hrun⟩, h⟩ := h
  simp only [Reported.outcome_pure, Except.ok.injEq] at h
  subst h
  exact run_all hP (startLine_all hP (startState_all hP hprevious) hstart) hrun

end Lasting

end LineScopes
