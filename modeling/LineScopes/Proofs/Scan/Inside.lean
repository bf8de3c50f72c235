import LineScopes.Proofs.Scan.Growth
import LineScopes.Proofs.Scan.Nesting

/-!
# Every segment stands inside the scopes of the root frame

Segments get the scopes of frames or of groups. Both are made by pushing names, so they all extend
the scopes of the root frame. This holds in nested scans as well, whose frames stand on those of the
line.

**Main definitions.** `Coverage.Inside`, `Rescan.Inside`.

**Main statements.** `handleCaptures_inside`: the groups of a match. `scanLine_inside`: a line, with
the stack that it leaves.
-/

namespace LineScopes

/-- The scopes of all segments extend some scopes. -/
def Coverage.Inside
    (root : ScopeList)
    (c : Coverage) : Prop :=
  ∀ s ∈ c.newest, s.scopes.Extends root

namespace Coverage.Inside

variable {root : ScopeList} {c : Coverage}

theorem empty
    (root : ScopeList) :
    Coverage.empty.Inside root :=
  fun _ hs => by cases hs

theorem extend
    (hc : c.Inside root)
    {scopes : ScopeList}
    (hscopes : scopes.Extends root)
    (last : Nat) :
    (c.extend scopes last).Inside root := by
  unfold Coverage.extend
  split
  · intro s hs
    rcases List.mem_cons.mp hs with rfl | hs
    · exact hscopes
    · exact hc s hs
  · exact hc

theorem finished
    (hc : c.Inside root)
    {scopes : ScopeList}
    (hscopes : scopes.Extends root)
    (size : Nat) :
    ∀ s ∈ c.finished scopes size, s.scopes.Extends root := by
  have hdrop : ∀ s ∈ dropNewline size c.newest, s ∈ c.newest := by
    intro s hs
    unfold dropNewline at hs
    split at hs
    · cases hs
    · rename_i newest rest heq
      rw [heq]
      split at hs
      · exact List.mem_cons_of_mem _ hs
      · exact hs
  unfold Coverage.finished
  split
  · exact (empty root).extend hscopes size
  · exact fun s hs => hc s (hdrop s hs)

end Coverage.Inside

/-- Nested scans stay inside the scopes of the root frame. -/
def Rescan.Inside
    (g : Grammar)
    (rescan : Rescan) : Prop :=
  ∀ root text firstLine pos state c d,
    state.Stacked g false root →
    c.Inside root →
    (rescan text firstLine pos state c).outcome = .ok d →
      d.Inside root

section Groups

variable {s : LineScanner} {rescan : Rescan} {root : ScopeList} {site : GroupSite}

theorem closeUntil_inside
    {first : Nat}
    {groups left : List OpenGroup}
    {c d : Coverage}
    (hgroups : ∀ o ∈ groups, o.scopes.Extends root)
    (hc : c.Inside root)
    (h : (closeUntil s first groups c).outcome = .ok (left, d)) :
    d.Inside root ∧ ∀ o ∈ left, o.scopes.Extends root := by
  induction groups generalizing c with
  | nil =>
      obtain ⟨rfl, rfl⟩ : [] = left ∧ c = d := by simpa [closeUntil] using h
      exact ⟨hc, hgroups⟩
  | cons o rest ih =>
      unfold closeUntil at h
      split at h
      · rw [LineScanner.outcome_produce_bind] at h
        exact ih (fun p hp => hgroups p (List.mem_cons_of_mem o hp))
          (hc.extend (hgroups o List.mem_cons_self) o.last) h
      · obtain ⟨rfl, rfl⟩ : o :: rest = left ∧ c = d := by simpa using h
        exact ⟨hc, hgroups⟩

theorem closeAll_inside
    {groups : List OpenGroup}
    {c d : Coverage}
    (hgroups : ∀ o ∈ groups, o.scopes.Extends root)
    (hc : c.Inside root)
    (h : (closeAll s groups c).outcome = .ok d) :
    d.Inside root := by
  induction groups generalizing c with
  | nil =>
      obtain rfl : c = d := by simpa [closeAll] using h
      exact hc
  | cons o rest ih =>
      rw [closeAll, LineScanner.outcome_produce_bind] at h
      exact ih (fun p hp => hgroups p (List.mem_cons_of_mem o hp))
        (hc.extend (hgroups o List.mem_cons_self) o.last) h

/-- The innermost open group stands inside the scopes of the root frame, and so does the frame on
top. -/
theorem currentScopes_extends
    (hsite : site.state.Stacked s.grammar false root)
    {groups : List OpenGroup}
    (hgroups : ∀ o ∈ groups, o.scopes.Extends root) :
    (currentScopes site groups).Extends root := by
  cases groups with
  | nil =>
      exact hsite.extends_root.2
  | cons o rest =>
      exact hgroups o List.mem_cons_self

/-- A group is scanned again with its frame on top of the stack. -/
theorem rescanGroup_inside
    (hrescan : rescan.Inside s.grammar)
    (hsite : site.state.Stacked s.grammar false root)
    {r : CaptureRule}
    {rule : RuleId}
    {span : Span}
    {c d : Coverage}
    (hc : c.Inside root)
    (h : (rescanGroup s rescan site r rule span c).outcome = .ok d) :
    d.Inside root := by
  simp only [rescanGroup, Reported.outcome_reportIf_bind] at h
  refine hrescan root _ _ _ _ _ _ (hsite.push ⟨?_, ?_⟩ (by simp)) hc h
  · exact ScopeList.extends_pushTemplate _ _ _ _ _
  · exact ScopeList.extends_pushTemplate _ _ _ _ _

theorem scanGroups_inside
    (hrescan : rescan.Inside s.grammar)
    (hsite : site.state.Stacked s.grammar false root)
    {slots : List (Option RuleId × Option Span)}
    {groups : List OpenGroup}
    (hgroups : ∀ o ∈ groups, o.scopes.Extends root)
    {c d : Coverage}
    (hc : c.Inside root)
    (h : (scanGroups s rescan site slots groups c).outcome = .ok d) :
    d.Inside root := by
  induction slots generalizing groups c with
  | nil =>
      exact closeAll_inside hgroups hc h
  | cons slot rest ih =>
      unfold scanGroups at h
      split at h
      · exact ih hgroups hc h
      · rename_i r span hcapture
        split at h
        · exact closeAll_inside hgroups hc h
        · simp only [Reported.outcome_bind_eq_ok, LineScanner.outcome_produce_bind] at h
          obtain ⟨⟨left, e⟩, hclose, h⟩ := h
          obtain ⟨he, hleft⟩ := closeUntil_inside hgroups hc hclose
          have hcurrent := currentScopes_extends hsite hleft
          have hfront := he.extend hcurrent span.first
          split at h
          · simp only [Reported.outcome_bind_eq_ok] at h
            obtain ⟨e', hagain, h⟩ := h
            exact ih hleft (rescanGroup_inside hrescan hsite hfront hagain) h
          · split at h
            · refine ih ?_ hfront h
              intro o ho
              rcases List.mem_cons.mp ho with rfl | ho
              · exact (ScopeList.extends_pushTemplate _ _ _ _ _).trans hcurrent
              · exact hleft o ho
            · exact ih hleft hfront h

theorem handleCaptures_inside
    (hrescan : rescan.Inside s.grammar)
    (hsite : site.state.Stacked s.grammar false root)
    {captures : List (Option RuleId)}
    {c d : Coverage}
    (hc : c.Inside root)
    (h : (handleCaptures s rescan site captures c).outcome = .ok d) :
    d.Inside root := by
  unfold handleCaptures at h
  split at h
  · obtain rfl : c = d := by simpa using h
    exact hc
  · exact scanGroups_inside hrescan hsite (by simp) hc h

end Groups

section Scan

variable {s : LineScanner} {rescan : Rescan} {text : String} {c : Cursor}
variable {whole : Bool} {root : ScopeList}

theorem Cursor.resume_inside
    {m : PatternMatch}
    {k : Handling}
    (hk : k.Stacked s.grammar whole root)
    {coverage : Coverage}
    (hcoverage : coverage.Inside root) :
    (c.resume text m k coverage).coverage.Inside root := by
  have hmatched : (matched m k coverage).Inside root :=
    hcoverage.extend hk.state.extends_root.2 m.last
  unfold resume
  cases hr : k.recovery with
  | none =>
      dsimp only [advance]
      split <;> exact hmatched
  | some r =>
      have hskipped := hmatched.extend (hk.recovery r hr).extends_root.2
        (min (Text.nextOffset text c.pos) text.utf8ByteSize)
      dsimp only
      split <;> exact hskipped

theorem step_inside
    (hrescan : rescan.Inside s.grammar)
    (hc : c.state.Stacked s.grammar whole root)
    (hcoverage : c.coverage.Inside root)
    {p : Progress}
    (h : (step s rescan text c).outcome = .ok p) :
    p.coverage.Inside root := by
  have hkept := Cursor.kept_stacked hc
  rcases step_eq_ok h with rfl | ⟨m, k, coverage, -, hk, hgroups, rfl⟩
  · exact hcoverage.extend hkept.extends_root.2 _
  · have hhandling := Cursor.handling_stacked hkept hk
    have hfront := hcoverage.extend hkept.extends_root.2 m.first
    exact Cursor.resume_inside hhandling
      (handleCaptures_inside hrescan hhandling.state hfront hgroups)

theorem run_inside
    (hrescan : rescan.Inside s.grammar)
    {bound : Nat}
    {limit : TimeLimit}
    {newest : List Entry}
    {e : ScanEnd}
    (hc : c.state.Stacked s.grammar whole root)
    (hcoverage : c.coverage.Inside root)
    (h : (run s rescan text bound limit c newest).outcome = .ok e) :
    e.cursor.coverage.Inside root := by
  induction bound generalizing limit c newest with
  | zero =>
      simp [run] at h
  | succ bound ih =>
      rcases run_succ_eq_ok h with ⟨-, rfl⟩ | ⟨p, hstep, hp⟩
      · exact hcoverage
      · have hnext := step_inside hrescan hc hcoverage hstep
        rcases hp with ⟨rfl, -⟩ | ⟨d, rfl, hrun⟩
        · exact hnext
        · exact ih (step_stacked hc hstep) hnext hrun

/-- Nested scans stay inside, however deep they are nested. -/
theorem rescanText_inside
    (s : LineScanner)
    (nesting : Nat) :
    (rescanText s nesting).Inside s.grammar := by
  induction nesting with
  | zero =>
      intro root text firstLine pos state c d _ _ h
      simp [rescanText] at h
  | succ nesting ih =>
      intro root text firstLine pos state c d hstate hc h
      simp only [rescanText, Reported.outcome_bind_eq_ok] at h
      obtain ⟨e, hrun, h⟩ := h
      obtain rfl : e.cursor.coverage = d := by simpa using h
      exact run_inside ih hstate hc hrun

theorem handleContinuation_inside
    (hrescan : rescan.Inside s.grammar)
    {d : Cursor}
    {r : WhileRule}
    {t : State}
    (ht : t.Stacked s.grammar whole root)
    {m : PatternMatch}
    (hcoverage : c.coverage.Inside root)
    (h : (handleContinuation s rescan text c r t m).outcome = .ok d) :
    d.coverage.Inside root := by
  rw [outcome_handleContinuation] at h
  obtain ⟨coverage, hcaptures, rfl⟩ := exists_of_map_eq_ok h
  have hfront := hcoverage.extend ht.extends_root.2 m.first
  have hgroups := handleCaptures_inside hrescan ht.weaken hfront hcaptures
  have hmatched := hgroups.extend ht.extends_root.2 m.last
  unfold Cursor.advance
  split <;> exact hmatched

theorem continueRules_inside
    (hrescan : rescan.Inside s.grammar)
    {rules : List (WhileRule × State)}
    (hrules : ∀ r t, (r, t) ∈ rules → t.Stacked s.grammar whole root)
    {d : Cursor}
    (hcoverage : c.coverage.Inside root)
    (h : (continueRules s rescan text rules c).outcome = .ok d) :
    d.coverage.Inside root := by
  induction rules generalizing c with
  | nil =>
      obtain rfl : c = d := by simpa [continueRules] using h
      exact hcoverage
  | cons rule rest ih =>
      obtain ⟨r, t⟩ := rule
      simp only [continueRules, Reported.outcome_bind_eq_ok, Reported.outcome_liftM] at h
      obtain ⟨found, -, h⟩ := h
      cases found with
      | none =>
          simp only [Reported.outcome_reportIf_bind, Reported.outcome_pure, Except.ok.injEq] at h
          subst h
          exact hcoverage
      | some m =>
          dsimp only at h
          split at h
          · simp only [Reported.outcome_bind_eq_ok] at h
            obtain ⟨next, hnext, h⟩ := h
            have ht := hrules r t List.mem_cons_self
            exact ih (fun r t hmem => hrules r t (List.mem_cons_of_mem _ hmem))
              (handleContinuation_inside hrescan ht hcoverage hnext) h
          · simp only [Reported.outcome_reportIf_bind, Reported.outcome_pure,
              Except.ok.injEq] at h
            subst h
            exact hcoverage

/-- A scanned line: its stack stands on a root frame, and its segments stand inside the scopes of
that frame. -/
structure ScannedLine.Inside
    (g : Grammar)
    (root : ScopeList)
    (l : ScannedLine) : Prop where
  state : l.state.Stacked g true root
  coverage : l.coverage.Inside root

theorem ScannedLine.Inside.segments
    {g : Grammar}
    {l : ScannedLine}
    (h : l.Inside g root) :
    ∀ s ∈ l.segments, s.scopes.Extends root :=
  h.coverage.finished h.state.extends_root.2 l.size

/-- The first line starts with a root frame, any other one with the stack of the line before. -/
theorem startState_stacked
    {previous : State}
    (hprevious : previous.isInitial = false → ∃ root, previous.Stacked s.grammar true root) :
    ∃ root, (startState s previous).Stacked s.grammar true root := by
  unfold startState
  split
  · exact ⟨_, State.stacked_root _ _⟩
  · rename_i hlater
    obtain ⟨root, hroot⟩ := hprevious (by simpa using hlater)
    exact ⟨root, hroot.reset⟩

theorem scanLine_inside
    {nesting : Nat}
    {line : String}
    {previous : State}
    (hprevious : previous.isInitial = false → ∃ root, previous.Stacked s.grammar true root)
    {limit : TimeLimit}
    {l : ScannedLine}
    (h : (scanLine s nesting line previous limit).outcome = .ok l) :
    ∃ root, l.Inside s.grammar root := by
  obtain ⟨root, hroot⟩ := startState_stacked hprevious
  simp only [scanLine, scanText, Reported.outcome_bind_eq_ok] at h
  obtain ⟨e, ⟨c, hstart, hrun⟩, h⟩ := h
  simp only [Reported.outcome_pure, Except.ok.injEq] at h
  subst h
  have hrescan := rescanText_inside s nesting
  have hc := startLine_stacked hroot hstart
  have hlines : ∀ r t, (r, t) ∈ linesFrames s.grammar (keepContinuations s.grammar
      (startState s previous)) → t.Stacked s.grammar true root := fun r t hmem =>
    hroot.keepContinuations.of_mem_suffixes (mem_suffixes_of_linesFrames hmem)
  have hcoverage : c.coverage.Inside root :=
    continueRules_inside hrescan hlines (Coverage.Inside.empty root) hstart
  exact ⟨root, run_stacked hc hrun, run_inside hrescan hc hcoverage hrun⟩

end Scan

end LineScopes
