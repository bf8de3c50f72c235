import LineScopes.Proofs.Scan.Run
import LineScopes.Proofs.Scan.Shifts
import LineScopes.Proofs.Token.Partition

/-!
# The course of a scan

At the start of a line the rules that last line by line are asked whether they go on. Then the scan
steps from match to match. The matches of both parts are what can be said about the line when one
place of the scan is looked at.

**Main definitions.** `Incoming`, `Continues`, `StartsLine`, `ComesTo`.

**Main statements.** `continueRules_eq_ok_iff`: how rules are asked. `run_of_comesTo`,
`exists_comesTo_of_run`: the places that `ComesTo` speaks of are those of the run.
`Continues.continued`: where the scan of a line begins.
-/

namespace LineScopes

/-- The states a line can be scanned with: the initial one and those that lines leave, whatever
their grammars are, as long as the engines of these are lawful. -/
inductive Incoming : State → Prop
  | initial : Incoming .initial
  | line {s : LineScanner} (he : s.grammar.engine.Lawful) {previous : State}
    (hprevious : Incoming previous) {nesting : Nat} {line : String} {limit : TimeLimit}
    {l : ScannedLine} (h : (scanLine s nesting line previous limit).outcome = .ok l) :
    Incoming l.state

namespace Incoming

variable {previous : State}

theorem lawful
    (h : Incoming previous) :
    previous.Lawful := by
  induction h with
  | initial =>
      exact State.lawful_initial
  | line he hprevious h ih =>
      exact (scanLine_sound he ih h).state

theorem lasting_untouched
    (g : Grammar) :
    Frame.Lasting g fun f => f.untouched = false where
  entered _ _ _ _ _ _ := rfl
  withContentScopes f scopes hf := by
    simp [Frame.withContentScopes, hf]
  withClosing f text hf := by
    unfold Frame.withClosing
    split
    · exact hf
    · rfl
  keepInside f hf := by
    obtain ⟨patterns, heq⟩ := g.exists_keepInside_eq f
    rw [heq]
    exact hf
  keepOnward f _ hf := by
    obtain ⟨patterns, heq⟩ := g.exists_keepOnward_eq f
    rw [heq]
    exact hf
  reset _ hf := hf

/-- Whatever a line leaves is not the initial state. -/
theorem eq_initial_or_untouched
    (h : Incoming previous) :
    previous = .initial ∨ previous.All fun f => f.untouched = false := by
  induction h with
  | initial =>
      exact .inl rfl
  | line he hprevious h ih =>
      right
      refine scanLine_all (lasting_untouched _) (fun hlater => ?_) h
      rcases ih with rfl | hall
      · cases hlater
      · exact hall

/-- Only the initial state counts as initial. -/
theorem isInitial_iff
    (h : Incoming previous) :
    previous.isInitial = true ↔ previous = .initial := by
  constructor
  · intro hinitial
    rcases h.eq_initial_or_untouched with heq | hall
    · exact heq
    · simp [State.isInitial, hall.top] at hinitial
  · rintro rfl
    rfl

end Incoming

section Continuation

variable (s : LineScanner) (rescan : Rescan) (text : String)

/-- The rules that last line by line are asked, and those that go on have these matches. -/
inductive Continues : List (WhileRule × State) → Cursor → List PatternMatch → Cursor → Prop
  | done {c : Cursor} : Continues [] c [] c
  /-- A rule does not go on. -/
  | ends {r : WhileRule} {state : State} {rest : List (WhileRule × State)} {c : Cursor}
    {found : Option PatternMatch}
    (hfound : (s.grammar.setOnward state.top).findAt (c.point text) = .ok found)
    (hends : ∀ m, found = some m → m.label ≠ .continuing) :
    Continues ((r, state) :: rest) c [] { c with state := state.pop }
  | goesOn {r : WhileRule} {state : State} {rest : List (WhileRule × State)} {c next d : Cursor}
    {m : PatternMatch} {ms : List PatternMatch}
    (hfound : (s.grammar.setOnward state.top).findAt (c.point text) = .ok (some m))
    (hm : m.label = .continuing)
    (hnext : (handleContinuation s rescan text c r state m).outcome = .ok next)
    (hrest : Continues rest next ms d) :
    Continues ((r, state) :: rest) c (m :: ms) d

variable {s rescan text}

/-- Exactly so the rules are asked. -/
theorem continueRules_eq_ok_iff
    {rules : List (WhileRule × State)}
    {c d : Cursor} :
    (continueRules s rescan text rules c).outcome = .ok d ↔
      ∃ ms, Continues s rescan text rules c ms d := by
  constructor
  · intro h
    induction rules generalizing c with
    | nil =>
        obtain rfl : c = d := by simpa [continueRules] using h
        exact ⟨[], .done⟩
    | cons rule rest ih =>
        obtain ⟨r, state⟩ := rule
        simp only [continueRules, Reported.outcome_bind_eq_ok, Reported.outcome_liftM] at h
        obtain ⟨found, hfound, h⟩ := h
        cases found with
        | none =>
            simp only [Reported.outcome_reportIf_bind, Reported.outcome_pure, Except.ok.injEq] at h
            subst h
            exact ⟨[], .ends hfound fun m hm => by cases hm⟩
        | some m =>
            dsimp only at h
            split at h
            · simp only [Reported.outcome_bind_eq_ok] at h
              obtain ⟨next, hnext, h⟩ := h
              obtain ⟨ms, hms⟩ := ih h
              exact ⟨m :: ms, .goesOn hfound ‹_› hnext hms⟩
            · simp only [Reported.outcome_reportIf_bind, Reported.outcome_pure,
                Except.ok.injEq] at h
              subst h
              refine ⟨[], .ends hfound ?_⟩
              rintro m' ⟨⟩
              assumption
  · rintro ⟨ms, h⟩
    induction h with
    | done =>
        simp [continueRules]
    | @ends r state rest c found hfound hends =>
        simp only [continueRules, Reported.outcome_bind_eq_ok, Reported.outcome_liftM]
        refine ⟨found, hfound, ?_⟩
        cases found with
        | none =>
            simp only [Reported.outcome_reportIf_bind, Reported.outcome_pure]
        | some m =>
            simp only [if_neg (hends m rfl), Reported.outcome_reportIf_bind,
              Reported.outcome_pure]
    | @goesOn r state rest c next d m ms hfound hm hnext hrest ih =>
        simp only [continueRules, Reported.outcome_bind_eq_ok, Reported.outcome_liftM]
        refine ⟨some m, hfound, ?_⟩
        simp only [if_pos hm, Reported.outcome_bind_eq_ok]
        exact ⟨next, hnext, ih⟩

end Continuation

/-- Where a line is before the rules that last line by line are asked. -/
def Cursor.atStart
    (g : Grammar)
    (firstLine : Bool)
    (state : State)
    (coverage : Coverage) : Cursor :=
  let state := keepContinuations g state
  let anchor := if state.top.reachesEnd then some 0 else none
  { firstLine, pos := 0, anchor, state, coverage }

/-- The scan of a line begins at `start`, behind the matches with which rules go on. -/
def StartsLine
    (s : LineScanner)
    (rescan : Rescan)
    (line : String)
    (previous : State)
    (ms : List PatternMatch)
    (start : Cursor) : Prop :=
  Continues s rescan (line ++ "\n")
    (linesFrames s.grammar (keepContinuations s.grammar (startState s previous)))
    (.atStart s.grammar previous.isInitial (startState s previous) .empty) ms start

theorem exists_startsLine_iff
    {s : LineScanner}
    {rescan : Rescan}
    {line : String}
    {previous : State}
    {start : Cursor} :
    (startLine s rescan (line ++ "\n") previous.isInitial (startState s previous)
      .empty).outcome = .ok start ↔ ∃ ms, StartsLine s rescan line previous ms start :=
  continueRules_eq_ok_iff

/-- A match and the place of the scan that found it. -/
structure Finding where
  cursor : Cursor
  found : PatternMatch

section Scan

variable (s : LineScanner) (rescan : Rescan) (text : String) (start : Cursor)

/-- The scan that begins at `start` comes to a place, with the findings up to there, the newest
first. -/
inductive ComesTo : List Finding → Cursor → Prop
  | start : ComesTo [] start
  | onward {findings : List Finding} {c d : Cursor} (hc : ComesTo findings c) {m : PatternMatch}
    (hnext : (nextMatch s.grammar ((c.kept s.grammar).point text)
      (c.kept s.grammar).state.top).outcome = .ok (some m))
    (h : (step s rescan text c).outcome = .ok (.onward d)) :
    ComesTo (⟨c, m⟩ :: findings) d

variable {s rescan text start}

/-- From each of these places the run goes on as it does from the start. -/
theorem run_of_comesTo
    {findings : List Finding}
    {c : Cursor}
    (hc : ComesTo s rescan text start findings c)
    (bound : Nat)
    (limit : TimeLimit) :
    (run s rescan text (bound + findings.length) (limit.map (· + findings.length)) start
      []).outcome = (run s rescan text bound limit c []).outcome := by
  induction hc generalizing bound limit with
  | start =>
      simp
  | @onward findings c d hc m hnext h ih =>
      have hmore := ih (bound + 1) (limit.map (· + 1))
      have hlimit : limit.map (· + 1) ≠ some 0 := by
        cases limit <;> simp
      have hpred : (limit.map (· + 1)).map Nat.pred = limit := by
        cases limit <;> simp
      have hadd : (limit.map (· + 1)).map (· + findings.length) =
          limit.map (· + (findings.length + 1)) := by
        cases limit with
        | none => rfl
        | some n => simp [Nat.add_comm, Nat.add_left_comm]
      rw [outcome_run_succ, if_neg hlimit, h, hpred, hadd] at hmore
      rw [List.length_cons, ← Nat.add_assoc, Nat.add_right_comm, hmore]
      rfl

/-- A run ends at a place it has come to, because time is over, or in the step from there. -/
theorem exists_comesTo_of_run
    {bound : Nat}
    {limit : TimeLimit}
    {findings : List Finding}
    {c : Cursor}
    (hc : ComesTo s rescan text start findings c)
    {e : ScanEnd}
    (h : (run s rescan text bound limit c []).outcome = .ok e) :
    ∃ findings d, ComesTo s rescan text start findings d ∧
      (e = ⟨d, true⟩ ∨
        (step s rescan text d).outcome = .ok (.finished e.cursor) ∧ e.stopped = false) := by
  induction bound generalizing limit findings c with
  | zero =>
      simp [run] at h
  | succ bound ih =>
      rcases run_succ_eq_ok h with ⟨-, rfl⟩ | ⟨p, hstep, hp⟩
      · exact ⟨findings, c, hc, .inl rfl⟩
      · rcases hp with ⟨rfl, hstopped⟩ | ⟨d, rfl, hrun⟩
        · exact ⟨findings, c, hc, .inr ⟨hstep, hstopped⟩⟩
        · rcases step_eq_ok hstep with hfinished | ⟨m, -, -, hnext, -⟩
          · cases hfinished
          · exact ih (.onward hc hnext hstep) hrun

/-- A scan stays at boundaries of the text. -/
theorem ComesTo.sound
    (he : s.grammar.engine.Lawful)
    (hstart : start.Sound text)
    {findings : List Finding}
    {c : Cursor}
    (hc : ComesTo s rescan text start findings c) :
    c.Sound text := by
  induction hc with
  | start =>
      exact hstart
  | onward hc hnext h ih =>
      exact (step_sound he ih h).1

end Scan

/-- A place that only moves on has not moved if it did not do so in both parts of its way. -/
theorem beq_and_beq
    {a b c : Nat}
    (hab : a ≤ b)
    (hbc : b ≤ c) :
    ((b == a) && (c == b)) = (c == a) := by
  rw [Bool.eq_iff_iff]
  simp only [Bool.and_eq_true, beq_iff_eq]
  omega

section Start

variable {s : LineScanner} {rescan : Rescan} {text : String}

/-- The scan goes on behind a continuation, and `\G` matches there. -/
theorem handleContinuation_place
    {c d : Cursor}
    {r : WhileRule}
    {state : State}
    {m : PatternMatch}
    (hm : c.pos ≤ m.last)
    (h : (handleContinuation s rescan text c r state m).outcome = .ok d) :
    d.pos = m.last ∧ d.anchor = some m.last ∧ d.firstLine = (c.firstLine && d.pos == c.pos) := by
  rw [outcome_handleContinuation] at h
  obtain ⟨coverage, -, rfl⟩ := exists_of_map_eq_ok h
  obtain ⟨hpos, hanchor, hfirst⟩ := Cursor.advance_shifts
    { c with
      coverage := coverage.extend state.top.contentScopes m.last, anchor := some m.last } m.last
  exact ⟨hpos.trans (Nat.max_eq_right hm), hanchor, hfirst⟩

/-- Where a line begins behind the matches with which rules go on. -/
structure Continued
    (text : String)
    (c : Cursor)
    (ms : List PatternMatch)
    (d : Cursor) : Prop where
  pos_le : c.pos ≤ d.pos
  boundary : Text.IsBoundary text d.pos
  firstLine : d.firstLine = (c.firstLine && d.pos == c.pos)
  /-- The last of these matches ended there, and `\G` matches there. -/
  last : ∀ w, ms.getLast? = some w → d.pos = w.last ∧ d.anchor = some w.last
  none : ms = [] → d.pos = c.pos ∧ d.anchor = c.anchor

theorem Continues.continued
    (he : s.grammar.engine.Lawful)
    {rules : List (WhileRule × State)}
    (hrules : ∀ r t, (r, t) ∈ rules → t.Lawful)
    {c d : Cursor}
    (hc : Text.IsBoundary text c.pos)
    {ms : List PatternMatch}
    (h : Continues s rescan text rules c ms d) :
    Continued text c ms d := by
  induction h with
  | done =>
      exact ⟨Nat.le_refl _, hc, by simp, nofun, fun _ => ⟨rfl, rfl⟩⟩
  | ends hfound hends =>
      exact ⟨Nat.le_refl _, hc, by simp, nofun, fun _ => ⟨rfl, rfl⟩⟩
  | @goesOn r state rest c next d m ms hfound hm hnext hrest ih =>
      have hset := Grammar.lawful_setOnward he (hrules r state List.mem_cons_self).top
      have hwithin : m.Within text c.pos := hset.find_within hc hfound
      have hle := Nat.le_trans hwithin.pos_le_first hwithin.first_le_last
      obtain ⟨hpos, hanchor, hfirst⟩ := handleContinuation_place hle hnext
      have hcontinued := ih (fun r t hmem => hrules r t (List.mem_cons_of_mem _ hmem))
        (hpos ▸ hwithin.boundary_last)
      refine ⟨?_, hcontinued.boundary, ?_, ?_, nofun⟩
      · exact Nat.le_trans (hpos ▸ hle) hcontinued.pos_le
      · rw [hcontinued.firstLine, hfirst, Bool.and_assoc,
          beq_and_beq (hpos ▸ hle) hcontinued.pos_le]
      · intro w hw
        cases ms with
        | nil =>
            obtain rfl : m = w := by simpa using hw
            obtain ⟨hsame, hkept⟩ := hcontinued.none rfl
            exact ⟨hsame.trans hpos, hkept.trans hanchor⟩
        | cons m' ms =>
            exact hcontinued.last w (by rwa [List.getLast?_cons_cons] at hw)

end Start

end LineScopes
