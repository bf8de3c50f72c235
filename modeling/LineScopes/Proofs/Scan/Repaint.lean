import LineScopes.Proofs.Scan.Paint

/-!
# Scans under another theme

No part of a scan looks at metadata. So a scan under one theme becomes the same scan under another
theme, if all scopes are painted anew: those of the frames it begins with, and those it leads to.

**Main definitions.** `Rescan.Paints`.

**Main statements.** `Cursor.handling_painted`: what a match does with the stack commutes with
painting. `step_painted`, `run_painted`: so does a step and a run. `rescanText_paints`: nested
scans, by induction on how deep they are nested. `scanLine_painted`: a line.
-/

namespace LineScopes

/-- A second way of scanning groups does the same with painted scopes. -/
def Rescan.Paints
    (b : Attribution)
    (rescan rescan' : Rescan) : Prop :=
  ∀ text firstLine pos state coverage,
    SameOutcome (fun c d => d = c.painted b)
      (rescan text firstLine pos state coverage).outcome
      (rescan' text firstLine pos (state.painted b) (coverage.painted b)).outcome

section Groups

variable {s : LineScanner} {rescan rescan' : Rescan} {b : Attribution}

/-- An open group with painted scopes. -/
def OpenGroup.painted
    (b : Attribution)
    (g : OpenGroup) : OpenGroup :=
  ⟨g.scopes.painted b, g.last⟩

/-- A match whose groups are handled, with a painted state. -/
def GroupSite.painted
    (b : Attribution)
    (site : GroupSite) : GroupSite :=
  { site with state := site.state.painted b }

theorem closeUntil_painted
    (first : Nat)
    (groups : List OpenGroup)
    (c : Coverage) :
    SameOutcome (fun p q => q = (p.1.map (OpenGroup.painted b), p.2.painted b))
      (closeUntil s first groups c).outcome
      (closeUntil (s.repaint b) first (groups.map (OpenGroup.painted b))
        (c.painted b)).outcome := by
  induction groups generalizing c with
  | nil =>
      exact .ok rfl
  | cons g rest ih =>
      have hlast : (g.painted b).last = g.last := rfl
      simp only [closeUntil, List.map_cons, hlast]
      split
      · rw [LineScanner.outcome_produce_bind, LineScanner.outcome_produce_bind]
        have hextend := c.painted_extend b g.scopes g.last
        exact hextend ▸ ih (c.extend g.scopes g.last)
      · exact .ok rfl

theorem closeAll_painted
    (groups : List OpenGroup)
    (c : Coverage) :
    SameOutcome (fun p q => q = p.painted b)
      (closeAll s groups c).outcome
      (closeAll (s.repaint b) (groups.map (OpenGroup.painted b)) (c.painted b)).outcome := by
  induction groups generalizing c with
  | nil =>
      exact .ok rfl
  | cons g rest ih =>
      simp only [closeAll, List.map_cons]
      rw [LineScanner.outcome_produce_bind, LineScanner.outcome_produce_bind]
      have hextend := c.painted_extend b g.scopes g.last
      exact hextend ▸ ih (c.extend g.scopes g.last)

theorem currentScopes_painted
    (site : GroupSite)
    (groups : List OpenGroup) :
    currentScopes (site.painted b) (groups.map (OpenGroup.painted b)) =
      (currentScopes site groups).painted b := by
  cases groups <;> rfl

theorem rescanGroup_painted
    (h : rescan.Paints b rescan')
    (site : GroupSite)
    (r : CaptureRule)
    (rule : RuleId)
    (span : Span)
    (c : Coverage) :
    SameOutcome (fun p q => q = p.painted b)
      (rescanGroup s rescan site r rule span c).outcome
      (rescanGroup (s.repaint b) rescan' (site.painted b) r rule span (c.painted b)).outcome := by
  have hframe : ∀ nameScopes contentScopes : ScopeList,
      (Frame.entered rule (some span.first) none false nameScopes contentScopes).painted b =
        .entered rule (some span.first) none false (nameScopes.painted b)
          (contentScopes.painted b) :=
    fun _ _ => rfl
  have hagain := h (Text.slice site.text 0 span.last) (site.firstLine && span.first == 0)
    span.first (site.state.push (.entered rule (some span.first) none false
      (s.pushTemplate site.state.top.contentScopes r.name site.text site.groups)
      (s.pushTemplate (s.pushTemplate site.state.top.contentScopes r.name site.text site.groups)
        r.contentName site.text site.groups))) c
  simp only [State.painted_push, hframe, LineScanner.painted_pushTemplate] at hagain
  simp only [rescanGroup, Reported.outcome_reportIf_bind]
  exact hagain

theorem scanGroups_painted
    (h : rescan.Paints b rescan')
    (site : GroupSite)
    (slots : List (Option RuleId × Option Span))
    (groups : List OpenGroup)
    (c : Coverage) :
    SameOutcome (fun p q => q = p.painted b)
      (scanGroups s rescan site slots groups c).outcome
      (scanGroups (s.repaint b) rescan' (site.painted b) slots
        (groups.map (OpenGroup.painted b)) (c.painted b)).outcome := by
  have hlast : (site.painted b).last = site.last := rfl
  have hgrammar : (s.repaint b).grammar = s.grammar := rfl
  induction slots generalizing groups c with
  | nil =>
      exact closeAll_painted groups c
  | cons slot rest ih =>
      obtain ⟨slot, found⟩ := slot
      simp only [scanGroups, hgrammar, hlast]
      cases captureOf? s.grammar slot found with
      | none =>
          exact ih groups c
      | some p =>
          obtain ⟨r, span⟩ := p
          dsimp only
          split
          · exact closeAll_painted groups c
          · rw [Reported.outcome_bind, Reported.outcome_bind]
            refine (closeUntil_painted span.first groups c).bind ?_
            rintro ⟨left, c⟩ _ - - rfl
            dsimp only
            rw [LineScanner.outcome_produce_bind, LineScanner.outcome_produce_bind,
              currentScopes_painted, ← Coverage.painted_extend]
            cases r.retokenize with
            | some rule =>
                dsimp only
                rw [Reported.outcome_bind, Reported.outcome_bind]
                refine (rescanGroup_painted h site r rule span _).bind ?_
                rintro c _ - - rfl
                exact ih left c
            | none =>
                dsimp only
                split
                · have hopen : (OpenGroup.mk ((s.repaint b).pushTemplate
                      ((currentScopes site left).painted b) r.name site.text site.groups)
                      span.last) = OpenGroup.painted b
                        ⟨s.pushTemplate (currentScopes site left) r.name site.text site.groups,
                          span.last⟩ := by
                    rw [OpenGroup.painted, LineScanner.painted_pushTemplate]
                  exact hopen ▸ ih (_ :: left) _
                · exact ih left _

theorem handleCaptures_painted
    (h : rescan.Paints b rescan')
    (site : GroupSite)
    (captures : List (Option RuleId))
    (c : Coverage) :
    SameOutcome (fun p q => q = p.painted b)
      (handleCaptures s rescan site captures c).outcome
      (handleCaptures (s.repaint b) rescan' (site.painted b) captures (c.painted b)).outcome := by
  rw [outcome_handleCaptures_eq, outcome_handleCaptures_eq]
  exact scanGroups_painted h site _ [] c

end Groups

section Step

variable {s : LineScanner} {rescan rescan' : Rescan} {text : String} {b : Attribution}

theorem resolveClosing_painted
    (closing : PatternSource)
    (groups : Groups)
    (state : State) :
    (resolveClosing closing text groups state).painted b =
      resolveClosing closing text groups (state.painted b) := by
  unfold resolveClosing
  split
  · exact State.painted_mapTop b (Frame.painted_withClosing b _ _)
  · rfl

namespace Cursor

variable (c : Cursor) (m : PatternMatch)

theorem painted_kept :
    (c.kept s.grammar).painted b = (c.painted b).kept s.grammar := by
  simp only [kept, painted, State.painted_mapTop b (Frame.painted_keepInside b s.grammar _)]

theorem painted_covered :
    (c.covered text).painted b = (c.painted b).covered text := by
  simp only [covered, painted, Coverage.painted_extend]
  rfl

theorem painted_closing :
    (c.closing s.grammar m).painted b = (c.painted b).closing s.grammar m := by
  have htop : (c.painted b).state.top.enter = c.state.top.enter := rfl
  have hpos : (c.painted b).pos = c.pos := rfl
  have hstate : (c.painted b).state = c.state.painted b := rfl
  unfold closing Handling.painted
  rw [htop, hpos, hstate, State.painted_pop, State.painted_delimited]
  split
  · rw [Option.map_some, State.painted_delimited]
    rfl
  · rfl

theorem painted_entered
    (id : RuleId)
    (rule : Rule) :
    (c.entered s text m id rule).painted b =
      (c.painted b).entered (s.repaint b) text m id rule := by
  have hframe : ∀ scopes : ScopeList,
      (Frame.entered id (some c.pos) c.anchor (m.last == text.utf8ByteSize) scopes scopes).painted
        b = .entered id (some c.pos) c.anchor (m.last == text.utf8ByteSize) (scopes.painted b)
          (scopes.painted b) :=
    fun _ => rfl
  unfold entered
  rw [State.painted_push, hframe, LineScanner.painted_pushTemplate]
  rfl

theorem painted_opened
    (id : RuleId)
    (rule : Rule)
    (closing : PatternSource) :
    (c.opened s text m id rule closing).painted b =
      (c.painted b).opened (s.repaint b) text m id rule closing := by
  unfold opened
  dsimp only
  rw [resolveClosing_painted, ← painted_entered]
  refine congrArg _ (State.painted_mapTop b ?_)
  rw [Frame.painted_withContentScopes, LineScanner.painted_pushTemplate]
  rfl

theorem painted_opening
    (id : RuleId)
    (rule : Rule)
    (captures : List (Option RuleId))
    (closing : PatternSource) :
    (c.opening s text m id rule captures closing).painted b =
      (c.painted b).opening (s.repaint b) text m id rule captures closing := by
  have hpos : (c.painted b).pos = c.pos := rfl
  have hstate : (c.painted b).state = c.state.painted b := rfl
  unfold opening Handling.painted
  rw [hpos, hstate, ← painted_opened, ← painted_entered, State.hasSameRuleAs_painted]
  split
  · rw [Option.map_some, State.painted_pop]
  · rfl

theorem painted_passing
    (id : RuleId)
    (rule : Rule) :
    (c.passing s text m id rule).painted b =
      (c.painted b).passing (s.repaint b) text m id rule := by
  have hpos : (c.painted b).pos = c.pos := rfl
  have hstate : (c.painted b).state = c.state.painted b := rfl
  unfold passing Handling.painted
  rw [hpos, hstate, ← painted_entered]
  split
  · rw [Option.map_some, State.painted_pop]
    rfl
  · rfl

/-- What a match does with the stack does not depend on metadata. -/
theorem handling_painted :
    (c.painted b).handling (s.repaint b) text m =
      (c.handling s text m).map (Handling.painted b) := by
  have hgrammar : (s.repaint b).grammar = s.grammar := rfl
  unfold handling
  rw [hgrammar]
  cases m.label with
  | closing =>
      exact congrArg some (c.painted_closing m).symm
  | continuing =>
      rfl
  | rule id =>
      dsimp only
      cases s.grammar.rule? id with
      | none =>
          rfl
      | some rule =>
          dsimp only
          cases openingOf? rule with
          | none =>
              exact congrArg some (c.painted_passing m id rule).symm
          | some opening =>
              exact congrArg some (c.painted_opening m id rule opening.1 opening.2).symm

theorem groups_painted
    (h : rescan.Paints b rescan')
    (k : Handling) :
    SameOutcome (fun p q => q = p.painted b)
      (c.groups s rescan text m k)
      ((c.painted b).groups (s.repaint b) rescan' text m (k.painted b)) := by
  have hgroups := handleCaptures_painted (s := s) h (c.site text m k.state) k.captures
    (c.coverage.extend c.state.top.contentScopes m.first)
  rw [Coverage.painted_extend] at hgroups
  exact hgroups

theorem painted_advance
    (last : Nat) :
    (c.advance last).painted b = (c.painted b).advance last := by
  have hpos : (c.painted b).pos = c.pos := rfl
  unfold advance
  rw [hpos]
  split <;> rfl

theorem painted_resume
    (k : Handling)
    (coverage : Coverage) :
    (c.resume text m k coverage).painted b =
      (c.painted b).resume text m (k.painted b) (coverage.painted b) := by
  have hpos : (c.painted b).pos = c.pos := rfl
  have hmatched : matched m (k.painted b) (coverage.painted b) =
      (matched m k coverage).painted b :=
    (Coverage.painted_extend b coverage _ _).symm
  unfold resume
  rw [hmatched, hpos]
  cases hk : k.recovery with
  | none =>
      simp only [Handling.painted, hk, Option.map_none, Progress.painted]
      rw [painted_advance]
      rfl
  | some r =>
      simp only [Handling.painted, hk, Option.map_some]
      split
      · simp only [Progress.painted, painted, Coverage.painted_extend]
        rfl
      · simp only [Progress.painted, painted, Coverage.painted_extend]
        rfl

theorem followed_painted
    (h : rescan.Paints b rescan')
    (found : Option PatternMatch) :
    SameOutcome (fun p q => q = p.painted b)
      (c.followed s rescan text found)
      ((c.painted b).followed (s.repaint b) rescan' text found) := by
  cases found with
  | none =>
      exact .ok (congrArg Progress.finished (c.painted_covered).symm)
  | some m =>
      unfold followed handled
      dsimp only
      rw [handling_painted]
      cases c.handling s text m with
      | none =>
          exact .ok (congrArg Progress.finished (c.painted_covered).symm)
      | some k =>
          dsimp only [Option.map_some]
          refine (c.groups_painted m h k).map ?_
          rintro coverage _ - - rfl
          exact (c.painted_resume m k coverage).symm

end Cursor

/-- A step commutes with painting. -/
theorem step_painted
    (h : rescan.Paints b rescan')
    (c : Cursor) :
    SameOutcome (fun p q => q = p.painted b)
      (step s rescan text c).outcome
      (step (s.repaint b) rescan' text (c.painted b)).outcome := by
  have hgrammar : (s.repaint b).grammar = s.grammar := rfl
  rw [outcome_step, outcome_step, hgrammar, ← Cursor.painted_kept]
  have hnext := nextMatch_painted b s.grammar ((c.kept s.grammar).point text)
    (c.kept s.grammar).state.top
  have hsame : (nextMatch s.grammar (((c.kept s.grammar).painted b).point text)
      ((c.kept s.grammar).painted b).state.top) =
      nextMatch s.grammar ((c.kept s.grammar).point text) (c.kept s.grammar).state.top :=
    hnext
  rw [hsame]
  refine (SameOutcome.refl (fun _ => rfl) _).bind ?_
  rintro found _ - - rfl
  exact (c.kept s.grammar).followed_painted h found

/-- A run commutes with painting. -/
theorem run_painted
    (h : rescan.Paints b rescan')
    (bound : Nat)
    (limit : TimeLimit)
    (c : Cursor)
    (newest newest' : List Entry) :
    SameOutcome (fun e e' => e' = e.painted b)
      (run s rescan text bound limit c newest).outcome
      (run (s.repaint b) rescan' text bound limit (c.painted b) newest').outcome := by
  induction bound generalizing limit c newest newest' with
  | zero =>
      exact .error _
  | succ bound ih =>
      rw [outcome_run_succ, outcome_run_succ]
      split
      · exact .ok rfl
      · refine (step_painted h c).bind ?_
        rintro p _ - - rfl
        cases p with
        | onward d =>
            exact ih _ _ _ _
        | finished d =>
            exact .ok rfl

end Step

theorem stepBound_painted
    (b : Attribution)
    (g : Grammar)
    (text : String)
    (state : State) :
    stepBound g text (state.painted b) = stepBound g text state := by
  unfold stepBound
  rw [State.depth_painted]

/-- Nested scans commute with painting, however deep they are nested. -/
theorem rescanText_paints
    (s : LineScanner)
    (b : Attribution)
    (nesting : Nat) :
    (rescanText s nesting).Paints b (rescanText (s.repaint b) nesting) := by
  induction nesting with
  | zero =>
      intro text firstLine pos state coverage
      exact .error _
  | succ nesting ih =>
      intro text firstLine pos state coverage
      have hgrammar : (s.repaint b).grammar = s.grammar := rfl
      simp only [rescanText, Reported.outcome_bind, hgrammar, stepBound_painted]
      refine (run_painted ih _ none ⟨firstLine, pos, none, state, coverage⟩ [] []).bind ?_
      rintro e _ - - rfl
      exact .ok rfl

section Continuation

variable {s : LineScanner} {rescan rescan' : Rescan} {text : String} {b : Attribution}

theorem suffixes_painted
    (b : Attribution)
    (state : State) :
    (state.painted b).suffixes = state.suffixes.map (State.painted b) := by
  obtain ⟨top, below⟩ := state
  induction below generalizing top with
  | nil =>
      rfl
  | cons f rest ih =>
      exact congrArg (_ :: ·) (ih f)

theorem linesFrames_painted
    (b : Attribution)
    (g : Grammar)
    (state : State) :
    linesFrames g (state.painted b) = (linesFrames g state).map fun p => (p.1, p.2.painted b) := by
  unfold linesFrames
  rw [suffixes_painted, List.filterMap_map, List.map_reverse, List.map_filterMap]
  refine congrArg (fun f => (state.suffixes.filterMap f).reverse) (funext fun t => ?_)
  change (g.linesRule? t.top.rule).map _ = _
  cases g.linesRule? t.top.rule <;> rfl

theorem handleContinuation_painted
    (h : rescan.Paints b rescan')
    (c : Cursor)
    (r : WhileRule)
    (state : State)
    (m : PatternMatch) :
    SameOutcome (fun d e => e = d.painted b)
      (handleContinuation s rescan text c r state m).outcome
      (handleContinuation (s.repaint b) rescan' text (c.painted b) r (state.painted b)
        m).outcome := by
  have hgroups := handleCaptures_painted (s := s) h (c.site text m state) r.continuingCaptures
    (c.coverage.extend state.top.contentScopes m.first)
  rw [Coverage.painted_extend] at hgroups
  rw [outcome_handleContinuation, outcome_handleContinuation]
  refine hgroups.map ?_
  rintro coverage _ - - rfl
  rw [Cursor.painted_advance]
  simp only [Cursor.painted, Coverage.painted_extend]
  rfl

theorem continueRules_painted
    (h : rescan.Paints b rescan')
    (rules : List (WhileRule × State))
    (c : Cursor) :
    SameOutcome (fun d e => e = d.painted b)
      (continueRules s rescan text rules c).outcome
      (continueRules (s.repaint b) rescan' text (rules.map fun p => (p.1, p.2.painted b))
        (c.painted b)).outcome := by
  induction rules generalizing c with
  | nil =>
      exact .ok rfl
  | cons rule rest ih =>
      obtain ⟨r, state⟩ := rule
      have hleave : Cursor.painted b { c with state := state.pop } =
          { c.painted b with state := (state.painted b).pop } := by
        simp only [Cursor.painted, State.painted_pop]
      have hfind : ((s.repaint b).grammar.setOnward (state.painted b).top).findAt
          ((c.painted b).point text) = (s.grammar.setOnward state.top).findAt (c.point text) :=
        rfl
      simp only [continueRules, List.map_cons, Reported.outcome_bind, Reported.outcome_liftM,
        hfind]
      refine (SameOutcome.refl (fun _ => rfl) _).bind ?_
      rintro found _ - - rfl
      cases found with
      | none =>
          simp only [Reported.outcome_reportIf_bind, Reported.outcome_pure]
          exact .ok hleave.symm
      | some m =>
          dsimp only
          split
          · rw [Reported.outcome_bind, Reported.outcome_bind]
            refine (handleContinuation_painted h c r state m).bind ?_
            rintro d _ - - rfl
            exact ih d
          · simp only [Reported.outcome_reportIf_bind, Reported.outcome_pure]
            exact .ok hleave.symm

theorem startLine_painted
    (h : rescan.Paints b rescan')
    (firstLine : Bool)
    (state : State)
    (coverage : Coverage) :
    SameOutcome (fun c d => d = c.painted b)
      (startLine s rescan text firstLine state coverage).outcome
      (startLine (s.repaint b) rescan' text firstLine (state.painted b)
        (coverage.painted b)).outcome := by
  have hgrammar : (s.repaint b).grammar = s.grammar := rfl
  unfold startLine
  dsimp only
  rw [hgrammar, ← State.painted_keepContinuations, linesFrames_painted]
  exact continueRules_painted h _ ⟨firstLine, 0, _, keepContinuations s.grammar state, coverage⟩

end Continuation

section Line

variable (s : LineScanner) (b : Attribution)

theorem scanText_painted
    (nesting : Nat)
    (text : String)
    (firstLine : Bool)
    (state : State)
    (limit : TimeLimit) :
    SameOutcome (fun e e' => e' = e.painted b)
      (scanText s nesting text firstLine state limit).outcome
      (scanText (s.repaint b) nesting text firstLine (state.painted b) limit).outcome := by
  have hrescan := rescanText_paints s b nesting
  unfold scanText
  dsimp only
  rw [Reported.outcome_bind, Reported.outcome_bind]
  refine (startLine_painted hrescan firstLine state .empty).bind ?_
  rintro c _ - - rfl
  have hbound := stepBound_painted b s.grammar text c.state
  exact hbound ▸ run_painted hrescan _ limit c [] []

/-- The state a line starts with commutes with painting; the scope of the grammar is pushed with the
attribution of the scanner. -/
theorem startState_painted
    (previous : State) :
    startState (s.repaint b) (previous.painted b) = (startState s previous).painted b := by
  unfold startState
  rw [State.isInitial_painted]
  split
  · have hroot : ∀ scopes : ScopeList, (State.root scopes).painted b = .root (scopes.painted b) :=
      fun _ => rfl
    rw [hroot]
    change State.root (if s.grammar.scope = "" then _ else _) = _
    split
    · rfl
    · rw [ScopeList.painted_push]
      rfl
  · rw [State.painted_reset]

/-- A line commutes with painting: under another theme it is the same line with all scopes painted
anew. -/
theorem scanLine_painted
    (nesting : Nat)
    (line : String)
    (previous : State)
    (limit : TimeLimit) :
    SameOutcome (fun l l' => l' = l.painted b)
      (scanLine s nesting line previous limit).outcome
      (scanLine (s.repaint b) nesting line (previous.painted b) limit).outcome := by
  simp only [scanLine, Reported.outcome_bind, startState_painted, State.isInitial_painted]
  refine (scanText_painted s b nesting (line ++ "\n") previous.isInitial (startState s previous)
    limit).bind ?_
  rintro e _ - - rfl
  exact .ok rfl

end Line

end LineScopes
