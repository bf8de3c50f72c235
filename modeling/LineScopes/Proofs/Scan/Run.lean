import LineScopes.Proofs.Scan.Sound

/-!
# What a scan of a line leaves

What a step keeps holds after any number of steps, in nested scans, and for the rules that last
line by line. So a scanned line is tiled by its segments, whatever its rules are.

**Main definitions.** `ScanEnd.Sound`, `ScannedLine.Sound`.

**Main statements.** `run_sound`: from a step to a run. `rescanText_sound`: nested scans, by
induction on how deep they are nested. `scanLine_sound`: the segments of a scanned line tile it.
-/

namespace LineScopes

/-- What a scan leads to: the whole text is covered, unless time was over. -/
structure ScanEnd.Sound
    (text : String)
    (c : Cursor)
    (e : ScanEnd) : Prop where
  state : e.cursor.state.Lawful
  complete : e.stopped = false → text.utf8ByteSize ≤ e.cursor.coverage.reached
  grows : c.coverage.Grows text e.cursor.coverage

section Run

variable {s : LineScanner} {rescan : Rescan} {text : String}

theorem run_sound
    (he : s.grammar.engine.Lawful)
    (hrescan : rescan.Sound)
    {bound : Nat}
    {limit : TimeLimit}
    {c : Cursor}
    {newest : List Entry}
    {e : ScanEnd}
    (hc : c.Sound text)
    (h : (run s rescan text bound limit c newest).outcome = .ok e) :
    e.Sound text c := by
  induction bound generalizing limit c newest with
  | zero =>
      simp [run] at h
  | succ bound ih =>
      rcases run_succ_eq_ok h with ⟨-, rfl⟩ | ⟨p, hstep, hp⟩
      · exact ⟨hc.state, by simp, .refl⟩
      · have hsound := step_sound he hc hstep
        have hgrows := step_grows he hrescan hc hstep
        rcases hp with ⟨rfl, hstopped⟩ | ⟨d, rfl, hrun⟩
        · obtain ⟨hstate, hreached⟩ := hsound
          exact ⟨hstate, fun _ => hreached, hgrows⟩
        · obtain ⟨hd, -⟩ := hsound
          have hend := ih hd hrun
          exact ⟨hend.state, hend.complete, hgrows.trans hend.grows⟩

theorem rescanText_sound
    (he : s.grammar.engine.Lawful)
    (nesting : Nat) :
    (rescanText s nesting).Sound := by
  induction nesting with
  | zero =>
      intro text firstLine pos state c d _ _ h
      simp [rescanText] at h
  | succ nesting ih =>
      intro text firstLine pos state c d hpos hstate h
      simp only [rescanText, Reported.outcome_bind_eq_ok] at h
      obtain ⟨e, hrun, h⟩ := h
      obtain rfl : e.cursor.coverage = d := by simpa using h
      exact (run_sound he ih ⟨hpos, hstate⟩ hrun).grows

end Run

section Continuation

variable {s : LineScanner} {rescan : Rescan} {text : String}

/-- The match of a continuation is covered like any other one. -/
theorem handleContinuation_sound
    (hrescan : rescan.Sound)
    {c d : Cursor}
    (hc : c.Sound text)
    {r : WhileRule}
    {t : State}
    (ht : t.Lawful)
    {m : PatternMatch}
    (hm : m.Within text c.pos)
    (h : (handleContinuation s rescan text c r t m).outcome = .ok d) :
    d.Sound text ∧ c.coverage.Grows text d.coverage := by
  rw [outcome_handleContinuation] at h
  obtain ⟨coverage, hcaptures, rfl⟩ := exists_of_map_eq_ok h
  have hsite : (c.site text m t).Sound := ⟨ht, hm.groups⟩
  have hgrows := ((Coverage.grows_extend c.coverage t.top.contentScopes hm.boundary_first).trans
    (handleCaptures_grows hrescan hsite hcaptures)).trans
      (Coverage.grows_extend coverage t.top.contentScopes hm.boundary_last)
  unfold Cursor.advance
  split
  · exact ⟨⟨hm.boundary_last, hc.state⟩, hgrows⟩
  · exact ⟨⟨hc.pos, hc.state⟩, hgrows⟩

theorem continueRules_sound
    (he : s.grammar.engine.Lawful)
    (hrescan : rescan.Sound)
    {rules : List (WhileRule × State)}
    (hrules : ∀ r t, (r, t) ∈ rules → t.Lawful)
    {c d : Cursor}
    (hc : c.Sound text)
    (h : (continueRules s rescan text rules c).outcome = .ok d) :
    d.Sound text ∧ c.coverage.Grows text d.coverage := by
  induction rules generalizing c with
  | nil =>
      obtain rfl : c = d := by simpa [continueRules] using h
      exact ⟨hc, .refl⟩
  | cons rule rest ih =>
      obtain ⟨r, t⟩ := rule
      have ht := hrules r t List.mem_cons_self
      have hleave : { c with state := t.pop }.Sound text ∧ c.coverage.Grows text c.coverage :=
        ⟨⟨hc.pos, ht.pop⟩, .refl⟩
      simp only [continueRules, Reported.outcome_bind_eq_ok, Reported.outcome_liftM] at h
      obtain ⟨found, hfound, h⟩ := h
      cases found with
      | none =>
          simp only [Reported.outcome_reportIf_bind, Reported.outcome_pure, Except.ok.injEq] at h
          subst h
          exact hleave
      | some m =>
          dsimp only at h
          split at h
          · simp only [Reported.outcome_bind_eq_ok] at h
            obtain ⟨next, hnext, h⟩ := h
            have hset := Grammar.lawful_setOnward he ht.top
            have hm : m.Within text c.pos := hset.find_within hc.pos hfound
            obtain ⟨hsound, hgrows⟩ := handleContinuation_sound hrescan hc ht hm hnext
            obtain ⟨hd, hrest⟩ :=
              ih (fun r t hmem => hrules r t (List.mem_cons_of_mem _ hmem)) hsound h
            exact ⟨hd, hgrows.trans hrest⟩
          · simp only [Reported.outcome_reportIf_bind, Reported.outcome_pure,
              Except.ok.injEq] at h
            subst h
            exact hleave

theorem startLine_sound
    (he : s.grammar.engine.Lawful)
    (hrescan : rescan.Sound)
    {firstLine : Bool}
    {state : State}
    (hstate : state.Lawful)
    {coverage : Coverage}
    {c : Cursor}
    (h : (startLine s rescan text firstLine state coverage).outcome = .ok c) :
    c.Sound text ∧ coverage.Grows text c.coverage := by
  have hkept : (keepContinuations s.grammar state).Lawful :=
    keepContinuations_all (lasting_lawful he) hstate
  exact continueRules_sound he hrescan (fun _ _ hmem => linesFrames_all hkept hmem)
    ⟨Text.isBoundary_zero text, hkept⟩ h

end Continuation

section Line

variable {s : LineScanner}

/-- What is known about a scanned line. -/
structure ScannedLine.Sound
    (line : String)
    (l : ScannedLine) : Prop where
  size : l.size = line.utf8ByteSize + 1
  tiles : l.coverage.Tiles (line ++ "\n")
  complete : l.stopped = false → l.coverage.reached = l.size
  state : l.state.Lawful

theorem ScannedLine.Sound.reached_le
    {line : String}
    {l : ScannedLine}
    (h : l.Sound line) :
    l.coverage.reached ≤ l.size := by
  have hle := h.tiles.boundary.le_utf8ByteSize
  rw [String.utf8ByteSize_append] at hle
  rw [h.size]
  exact hle

/-- With a lawful engine the segments of a scanned line tile it, and all of it unless time was
over. -/
theorem scanLine_sound
    (he : s.grammar.engine.Lawful)
    {nesting : Nat}
    {line : String}
    {previous : State}
    (hprevious : previous.Lawful)
    {limit : TimeLimit}
    {l : ScannedLine}
    (h : (scanLine s nesting line previous limit).outcome = .ok l) :
    l.Sound line := by
  simp only [scanLine, scanText, Reported.outcome_bind_eq_ok] at h
  obtain ⟨e, ⟨c, hstart, hrun⟩, h⟩ := h
  have hrescan := rescanText_sound he nesting
  have hfirst := startState_all (lasting_lawful he) fun _ => hprevious
  obtain ⟨hc, hgrows⟩ := startLine_sound he hrescan hfirst hstart
  have hend := run_sound he hrescan hc hrun
  have htiles : e.cursor.coverage.Tiles (line ++ "\n") :=
    Coverage.Grows.tiles (hgrows.trans hend.grows) (Coverage.tiles_empty _)
  simp only [Reported.outcome_pure, Except.ok.injEq] at h
  subst h
  refine ⟨String.utf8ByteSize_append, htiles, ?_, hend.state⟩
  intro hstopped
  exact Nat.le_antisymm htiles.boundary.le_utf8ByteSize (hend.complete hstopped)

end Line

end LineScopes
