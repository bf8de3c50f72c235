import LineScopes.Proofs.Scan.Erasure
import Mathlib.Data.List.Forall2

/-!
# Scans in lockstep

Two scans that differ in what is erased alone find the same matches, cover the same text with the
same scopes and go on to states that differ in what is erased alone.

**Main definitions.** `State.Alike`, `Cursor.Alike`, `Rescan.Blind`.

**Main statements.** `step_alike`: a step of both. `run_alike`: a run of both. `rescanText_blind`:
nested scans, by induction on how deep they are nested. `scanLine_alike`: a line.
-/

namespace LineScopes

/-- Two states of lines that are the same when bare. -/
structure State.Alike
    (g : Grammar)
    (keep : Bool)
    (s t : State) : Prop where
  left : s.All (Frame.Tidy g)
  right : t.All (Frame.Tidy g)
  bare : s.bare keep = t.bare keep

namespace State.Alike

variable {g : Grammar} {keep : Bool} {s t : State}

theorem contentScopes
    (h : s.Alike g keep t) :
    s.top.contentScopes = t.top.contentScopes := by
  have htop := congrArg (fun u : State => u.top.contentScopes) h.bare
  exact htop

theorem depth
    (h : s.Alike g keep t) :
    s.depth = t.depth := by
  rw [← depth_bare keep s, h.bare, depth_bare]

theorem push
    (h : s.Alike g keep t)
    {f : Frame}
    (hf : f.Tidy g) :
    (s.push f).Alike g keep (t.push f) :=
  ⟨h.left.push hf, h.right.push hf, by rw [bare_push, bare_push, h.bare]⟩

theorem pop
    (h : s.Alike g keep t) :
    s.pop.Alike g keep t.pop :=
  ⟨h.left.pop, h.right.pop, by rw [bare_pop, bare_pop, h.bare]⟩

theorem weaken
    (h : s.Alike g keep t) :
    s.Alike g false t :=
  ⟨h.left, h.right, bare_false_of_bare h.bare⟩

end State.Alike

/-- Two cursors whose states are alike. -/
inductive Cursor.Alike
    (g : Grammar)
    (keep : Bool) : Cursor → Cursor → Prop
  | mk (c : Cursor) {t : State} (h : c.state.Alike g keep t) : Alike g keep c { c with state := t }

/-- Two steps that end both or go on both, with cursors that are alike. -/
inductive Progress.Alike
    (g : Grammar)
    (keep : Bool) : Progress → Progress → Prop
  | onward {c d : Cursor} (h : c.Alike g keep d) : Alike g keep (.onward c) (.onward d)
  | finished {c d : Cursor} (h : c.Alike g keep d) : Alike g keep (.finished c) (.finished d)

/-- Two scans that end in the same way, with cursors that are alike. -/
structure ScanEnd.Alike
    (g : Grammar)
    (keep : Bool)
    (e e' : ScanEnd) : Prop where
  cursor : e.cursor.Alike g keep e'.cursor
  stopped : e.stopped = e'.stopped

/-- What two matches do, with states that are alike. -/
structure Handling.Alike
    (g : Grammar)
    (keep : Bool)
    (k l : Handling) : Prop where
  state : k.state.Alike g keep l.state
  captures : k.captures = l.captures
  anchor : k.anchor = l.anchor
  next : k.next.Alike g keep l.next
  recovery : Option.Rel (State.Alike g keep) k.recovery l.recovery

theorem Handling.Alike.of_bare
    {g : Grammar}
    {keep : Bool}
    {k l : Handling}
    (hk : k.All (Frame.Tidy g))
    (hl : l.All (Frame.Tidy g))
    (h : k.bare keep = l.bare keep) :
    k.Alike g keep l := by
  have hcaptures : (k.bare keep).captures = (l.bare keep).captures := by rw [h]
  have hanchor : (k.bare keep).anchor = (l.bare keep).anchor := by rw [h]
  refine ⟨⟨hk.state, hl.state, congrArg Handling.state h⟩, hcaptures, hanchor,
    ⟨hk.next, hl.next, congrArg Handling.next h⟩, ?_⟩
  have hrecovery : k.recovery.map (State.bare keep) = l.recovery.map (State.bare keep) :=
    congrArg Handling.recovery h
  cases hr : k.recovery with
  | none =>
      rw [hr] at hrecovery
      rw [Option.map_eq_none_iff.mp hrecovery.symm]
      exact .none
  | some r =>
      rw [hr] at hrecovery
      obtain ⟨r', hr', hbare⟩ := Option.map_eq_some_iff.mp hrecovery.symm
      rw [hr']
      exact .some ⟨hk.recovery r hr, hl.recovery r' hr', hbare.symm⟩

/-- A nested scan covers the same text with the same scopes, whatever is erased. -/
def Rescan.Blind
    (g : Grammar)
    (rescan : Rescan) : Prop :=
  ∀ text firstLine pos s t c,
    s.Alike g false t →
      (rescan text firstLine pos s c).outcome = (rescan text firstLine pos t c).outcome

section Groups

variable {s : LineScanner} {rescan : Rescan} {site : GroupSite} {t : State}

theorem currentScopes_alike
    (h : site.state.Alike s.grammar false t)
    (groups : List OpenGroup) :
    currentScopes { site with state := t } groups = currentScopes site groups := by
  cases groups with
  | nil =>
      exact h.contentScopes.symm
  | cons o rest =>
      rfl

theorem rescanGroup_alike
    (hrescan : rescan.Blind s.grammar)
    (h : site.state.Alike s.grammar false t)
    (r : CaptureRule)
    (rule : RuleId)
    (span : Span)
    (c : Coverage) :
    (rescanGroup s rescan { site with state := t } r rule span c).outcome =
      (rescanGroup s rescan site r rule span c).outcome := by
  simp only [rescanGroup, Reported.outcome_reportIf_bind, h.contentScopes]
  refine (hrescan _ _ _ _ _ _ (h.push ?_)).symm
  exact (lasting_tidy s.grammar).entered _ _ _ _ _ _

theorem scanGroups_alike
    (hrescan : rescan.Blind s.grammar)
    (h : site.state.Alike s.grammar false t)
    (slots : List (Option RuleId × Option Span))
    (groups : List OpenGroup)
    (c : Coverage) :
    (scanGroups s rescan { site with state := t } slots groups c).outcome =
      (scanGroups s rescan site slots groups c).outcome := by
  induction slots generalizing groups c with
  | nil =>
      rfl
  | cons slot rest ih =>
      obtain ⟨slot, span⟩ := slot
      unfold scanGroups
      cases captureOf? s.grammar slot span with
      | none =>
          exact ih groups c
      | some found =>
          obtain ⟨r, span⟩ := found
          dsimp only
          split
          · rfl
          · simp only [Reported.outcome_bind (closeUntil _ _ _ _)]
            refine bind_congr fun closed => ?_
            obtain ⟨groups, c⟩ := closed
            simp only [LineScanner.outcome_produce_bind, currentScopes_alike h]
            cases r.retokenize with
            | some rule =>
                simp only [Reported.outcome_bind, rescanGroup_alike hrescan h]
                exact bind_congr fun c => ih groups c
            | none =>
                dsimp only
                split
                · exact ih _ _
                · exact ih _ _

variable (site) in
theorem handleCaptures_alike
    (hrescan : rescan.Blind s.grammar)
    (h : site.state.Alike s.grammar false t)
    (captures : List (Option RuleId))
    (c : Coverage) :
    (handleCaptures s rescan { site with state := t } captures c).outcome =
      (handleCaptures s rescan site captures c).outcome := by
  unfold handleCaptures
  split
  · rfl
  · exact scanGroups_alike hrescan h _ _ _

end Groups

section Step

variable {s : LineScanner} {rescan : Rescan} {text : String} {keep : Bool}
variable {c d : Cursor} {m : PatternMatch}

namespace Cursor

theorem Alike.kept
    (h : c.Alike s.grammar keep d) :
    (c.kept s.grammar).Alike s.grammar keep (d.kept s.grammar) := by
  cases h with
  | mk h =>
      have hkeep := (lasting_tidy s.grammar).keepInside
      refine .mk (c.kept s.grammar) ⟨h.left.mapTop (hkeep _), h.right.mapTop (hkeep _), ?_⟩
      exact (State.bare_keepInside keep _ _).trans
        (h.bare.trans (State.bare_keepInside keep _ _).symm)

/-- The next match is the same. -/
theorem Alike.nextMatch_eq
    (h : c.Alike s.grammar keep d) :
    nextMatch s.grammar (d.point text) d.state.top =
      nextMatch s.grammar (c.point text) c.state.top := by
  cases h with
  | mk h =>
      have hbare := congrArg State.top h.bare
      rw [← nextMatch_bare h.left.top keep, ← nextMatch_bare h.right.top keep]
      exact congrArg (nextMatch s.grammar _) hbare.symm

/-- A match does the same to both stacks. -/
theorem Alike.handling
    (h : c.Alike s.grammar keep d)
    (text : String)
    (m : PatternMatch) :
    Option.Rel (Handling.Alike s.grammar keep) (c.handling s text m) (d.handling s text m) := by
  cases h with
  | @mk t h =>
      have hbare : c.bare keep = Cursor.bare keep { c with state := t } := by
        simp only [bare, h.bare]
      have hmap : (c.handling s text m).map (Handling.bare keep) =
          (Cursor.handling s text { c with state := t } m).map (Handling.bare keep) := by
        rw [← handling_bare, hbare, handling_bare]
      have hlasting := lasting_tidy s.grammar
      cases hk : c.handling s text m with
      | none =>
          rw [hk] at hmap
          rw [Option.map_eq_none_iff.mp hmap.symm]
          exact .none
      | some k =>
          rw [hk] at hmap
          obtain ⟨l, hl, hkl⟩ := Option.map_eq_some_iff.mp hmap.symm
          rw [hl]
          exact .some (.of_bare (handling_all hlasting h.left hk)
            (handling_all hlasting (c := { c with state := t }) h.right hl) hkl.symm)

theorem Alike.state
    (h : c.Alike s.grammar keep d) :
    c.state.Alike s.grammar keep d.state := by
  cases h with
  | mk h =>
      exact h

theorem Alike.coverage_eq
    (h : c.Alike s.grammar keep d) :
    c.coverage = d.coverage := by
  cases h
  rfl

theorem Alike.covered
    (h : c.Alike s.grammar keep d)
    (text : String) :
    (c.covered text).Alike s.grammar keep (d.covered text) := by
  cases h with
  | mk h =>
      unfold Cursor.covered
      rw [h.contentScopes]
      exact .mk _ h

theorem Alike.groups_eq
    (h : c.Alike s.grammar keep d)
    (hrescan : rescan.Blind s.grammar)
    {k l : Handling}
    (hkl : k.Alike s.grammar keep l) :
    d.groups s rescan text m l = c.groups s rescan text m k := by
  cases h with
  | mk h =>
      unfold groups
      rw [hkl.captures, h.contentScopes]
      exact handleCaptures_alike (c.site text m k.state) hrescan hkl.state.weaken _ _

theorem Alike.resume
    (h : c.Alike s.grammar keep d)
    {k l : Handling}
    (hkl : k.Alike s.grammar keep l)
    (coverage : Coverage) :
    (c.resume text m k coverage).Alike s.grammar keep (d.resume text m l coverage) := by
  cases h with
  | mk h =>
      have hmatched : matched m l coverage = matched m k coverage := by
        unfold matched
        rw [hkl.state.contentScopes]
      unfold resume
      rw [hmatched, hkl.anchor]
      have hrecovery := hkl.recovery
      generalize k.recovery = a at hrecovery ⊢
      generalize l.recovery = b at hrecovery ⊢
      cases hrecovery with
      | none =>
          dsimp only [advance]
          split
          · exact .onward (.mk _ hkl.next)
          · exact .onward (.mk _ hkl.next)
      | some hr =>
          dsimp only
          rw [hr.contentScopes]
          split
          · exact .finished (.mk _ hr)
          · exact .onward (.mk _ hr)

theorem Alike.followed
    (h : c.Alike s.grammar keep d)
    (hrescan : rescan.Blind s.grammar)
    (found : Option PatternMatch) :
    SameOutcome (Progress.Alike s.grammar keep)
      (c.followed s rescan text found) (d.followed s rescan text found) := by
  cases found with
  | none =>
      exact .ok (.finished (h.covered text))
  | some m =>
      have hhandling := h.handling text m
      unfold Cursor.followed handled
      dsimp only
      generalize c.handling s text m = a at hhandling ⊢
      generalize d.handling s text m = b at hhandling ⊢
      cases hhandling with
      | none =>
          exact .ok (.finished (h.covered text))
      | some hkl =>
          dsimp only
          rw [h.groups_eq hrescan hkl]
          refine (SameOutcome.refl (fun _ => rfl) _).map ?_
          rintro coverage _ - - rfl
          exact h.resume hkl coverage

end Cursor

/-- Two scans that are alike take the same step. -/
theorem step_alike
    (hrescan : rescan.Blind s.grammar)
    (h : c.Alike s.grammar keep d) :
    SameOutcome (Progress.Alike s.grammar keep)
      (step s rescan text c).outcome (step s rescan text d).outcome := by
  rw [outcome_step, outcome_step, h.kept.nextMatch_eq]
  refine (SameOutcome.refl (fun _ => rfl) _).bind ?_
  rintro found _ - - rfl
  exact h.kept.followed hrescan found

/-- Two scans that are alike take the same run. -/
theorem run_alike
    (hrescan : rescan.Blind s.grammar)
    (h : c.Alike s.grammar keep d)
    (bound : Nat)
    (limit : TimeLimit)
    (newest newest' : List Entry) :
    SameOutcome (ScanEnd.Alike s.grammar keep)
      (run s rescan text bound limit c newest).outcome
      (run s rescan text bound limit d newest').outcome := by
  induction bound generalizing limit c d newest newest' with
  | zero =>
      exact .error _
  | succ bound ih =>
      rw [outcome_run_succ, outcome_run_succ]
      split
      · exact .ok ⟨h, rfl⟩
      · refine (step_alike hrescan h).bind ?_
        rintro p q - - hpq
        cases hpq with
        | onward h =>
            exact ih h _ _ _
        | finished h =>
            exact .ok ⟨h, rfl⟩

end Step

section Nested

variable {s : LineScanner} {keep : Bool} {u t : State}

theorem stepBound_alike
    (h : u.Alike s.grammar keep t)
    (text : String) :
    stepBound s.grammar text t = stepBound s.grammar text u := by
  unfold stepBound
  rw [h.depth]

/-- Nested scans cover the same text with the same scopes, however deep they are nested. -/
theorem rescanText_blind
    (nesting : Nat) :
    (rescanText s nesting).Blind s.grammar := by
  induction nesting with
  | zero =>
      intro text firstLine pos u t c h
      rfl
  | succ nesting ih =>
      intro text firstLine pos u t c h
      simp only [rescanText, Reported.outcome_bind, stepBound_alike h]
      have hstart : Cursor.Alike s.grammar false ⟨firstLine, pos, none, u, c⟩
          ⟨firstLine, pos, none, t, c⟩ :=
        .mk ⟨firstLine, pos, none, u, c⟩ h
      refine SameOutcome.eq ((run_alike ih hstart _ none [] []).bind ?_)
      intro e e' _ _ he
      exact .ok he.cursor.coverage_eq

end Nested

section Continuation

variable {s : LineScanner} {rescan : Rescan} {text : String} {keep : Bool} {u t : State}

/-- The states below two states that are alike are alike one by one. -/
theorem suffixes_alike
    {g : Grammar}
    (h : u.Alike g keep t) :
    List.Forall₂ (State.Alike g keep) u.suffixes t.suffixes := by
  obtain ⟨top, below⟩ := u
  obtain ⟨top', below'⟩ := t
  induction below generalizing top top' below' with
  | nil =>
      cases below' with
      | nil =>
          exact .cons h .nil
      | cons f rest =>
          have hdepth := h.depth
          simp [State.depth] at hdepth
  | cons f rest ih =>
      cases below' with
      | nil =>
          have hdepth := h.depth
          simp [State.depth] at hdepth
      | cons f' rest' =>
          exact .cons h (ih f f' rest' h.pop)

/-- The same rule that lasts line by line, with states that are alike and have it on top. -/
structure LinesAlike
    (g : Grammar)
    (keep : Bool)
    (p q : WhileRule × State) : Prop where
  rule : p.1 = q.1
  state : p.2.Alike g keep q.2
  lines : (g.linesRule? p.2.top.rule).isSome = true

theorem linesFrames_alike
    {g : Grammar}
    (h : u.Alike g keep t) :
    List.Forall₂ (LinesAlike g keep) (linesFrames g u) (linesFrames g t) := by
  refine List.rel_reverse (List.rel_filterMap ?_ (suffixes_alike h))
  intro v w hvw
  have hrule : v.top.rule = w.top.rule := by
    have htop := congrArg (fun x : State => x.top.rule) hvw.bare
    exact htop
  dsimp only
  rw [← hrule]
  cases hlines : g.linesRule? v.top.rule with
  | none =>
      exact .none
  | some r =>
      exact .some ⟨rfl, hvw, by simp [hlines]⟩

/-- Whether a rule goes on is found in the same way. -/
theorem setOnward_alike
    {g : Grammar}
    {p q : WhileRule × State}
    (h : LinesAlike g keep p q) :
    g.setOnward q.2.top = g.setOnward p.2.top := by
  have hregion := Grammar.isRegion_of_linesRule? h.lines
  have hbare : p.2.top.bare keep = q.2.top.bare keep := congrArg State.top h.state.bare
  have hrule : p.2.top.rule = q.2.top.rule := by
    have htop := congrArg Frame.rule hbare
    exact htop
  rw [← h.state.left.top.setOnward_bare keep hregion, hbare]
  rw [hrule] at hregion
  exact (h.state.right.top.setOnward_bare keep hregion).symm

theorem handleContinuation_alike
    (hrescan : rescan.Blind s.grammar)
    {c d : Cursor}
    (h : c.Alike s.grammar keep d)
    (hut : u.Alike s.grammar keep t)
    (r : WhileRule)
    (m : PatternMatch) :
    SameOutcome (Cursor.Alike s.grammar keep)
      (handleContinuation s rescan text c r u m).outcome
      (handleContinuation s rescan text d r t m).outcome := by
  cases h with
  | mk h =>
      rw [outcome_handleContinuation, outcome_handleContinuation, hut.contentScopes]
      have hgroups := handleCaptures_alike (c.site text m u) hrescan hut.weaken
        r.continuingCaptures (c.coverage.extend t.top.contentScopes m.first)
      rw [← hgroups]
      refine (SameOutcome.refl (fun _ => rfl) _).map ?_
      rintro coverage _ - - rfl
      unfold Cursor.advance
      dsimp only
      split
      · exact .mk _ h
      · exact .mk _ h

theorem continueRules_alike
    (hrescan : rescan.Blind s.grammar)
    {rules rules' : List (WhileRule × State)}
    (hrules : List.Forall₂ (LinesAlike s.grammar keep) rules rules')
    {c d : Cursor}
    (h : c.Alike s.grammar keep d) :
    SameOutcome (Cursor.Alike s.grammar keep)
      (continueRules s rescan text rules c).outcome
      (continueRules s rescan text rules' d).outcome := by
  induction hrules generalizing c d with
  | nil =>
      exact .ok h
  | @cons p q rest rest' hpq _ ih =>
      have hset := setOnward_alike hpq
      obtain ⟨r, u⟩ := p
      obtain ⟨r', t⟩ := q
      obtain rfl : r = r' := hpq.rule
      have hleave :
          Cursor.Alike s.grammar keep { c with state := u.pop } { d with state := t.pop } := by
        cases h with
        | mk h =>
            exact .mk _ hpq.state.pop
      have hpoint : d.point text = c.point text := by
        cases h
        rfl
      simp only [continueRules, Reported.outcome_bind, Reported.outcome_liftM, hpoint]
      dsimp only at hset
      rw [hset]
      refine (SameOutcome.refl (fun _ => rfl) _).bind ?_
      rintro found _ - - rfl
      cases found with
      | none =>
          simp only [Reported.outcome_reportIf_bind, Reported.outcome_pure]
          exact .ok hleave
      | some m =>
          dsimp only
          split
          · rw [Reported.outcome_bind, Reported.outcome_bind]
            refine (handleContinuation_alike hrescan h hpq.state r m).bind ?_
            intro c d _ _ h
            exact ih h
          · simp only [Reported.outcome_reportIf_bind, Reported.outcome_pure]
            exact .ok hleave

theorem reachesEnd_keepContinuations
    (g : Grammar)
    (v : State) :
    (keepContinuations g v).top.reachesEnd = v.top.reachesEnd := by
  unfold keepContinuations Grammar.keepOnward
  dsimp only
  split
  · split <;> rfl
  · rfl

/-- The start of a line is the same if the matches that opened the rules on top agree about the end
of their lines. -/
theorem startLine_alike
    (hrescan : rescan.Blind s.grammar)
    (h : u.Alike s.grammar keep t)
    (hend : u.top.reachesEnd = t.top.reachesEnd)
    (firstLine : Bool)
    (coverage : Coverage) :
    SameOutcome (Cursor.Alike s.grammar keep)
      (startLine s rescan text firstLine u coverage).outcome
      (startLine s rescan text firstLine t coverage).outcome := by
  have hlasting := lasting_tidy s.grammar
  have hkept : (keepContinuations s.grammar u).Alike s.grammar keep
      (keepContinuations s.grammar t) := by
    refine ⟨keepContinuations_all hlasting h.left, keepContinuations_all hlasting h.right, ?_⟩
    rw [State.bare_keepContinuations, State.bare_keepContinuations, h.bare]
  unfold startLine
  dsimp only
  rw [reachesEnd_keepContinuations, reachesEnd_keepContinuations, hend]
  exact continueRules_alike hrescan (linesFrames_alike hkept)
    (.mk ⟨firstLine, 0, if t.top.reachesEnd then some 0 else none, _, coverage⟩ hkept)

theorem scanText_alike
    (h : u.Alike s.grammar keep t)
    (hend : u.top.reachesEnd = t.top.reachesEnd)
    (nesting : Nat)
    (firstLine : Bool)
    (limit : TimeLimit) :
    SameOutcome (ScanEnd.Alike s.grammar keep)
      (scanText s nesting text firstLine u limit).outcome
      (scanText s nesting text firstLine t limit).outcome := by
  have hrescan := rescanText_blind (s := s) nesting
  unfold scanText
  dsimp only
  rw [Reported.outcome_bind, Reported.outcome_bind]
  refine (startLine_alike hrescan h hend firstLine .empty).bind ?_
  intro c d _ _ hcd
  rw [stepBound_alike hcd.state]
  exact run_alike hrescan hcd _ _ _ _

end Continuation

/-- The same line, with states to go on with that are alike. -/
structure ScannedLine.Alike
    (g : Grammar)
    (keep : Bool)
    (l l' : ScannedLine) : Prop where
  size : l.size = l'.size
  coverage : l.coverage = l'.coverage
  state : l.state.Alike g keep l'.state
  stopped : l.stopped = l'.stopped

/-- Two states that are alike at the start of a line scan it in the same way. -/
theorem scanLine_alike
    {s : LineScanner}
    {keep : Bool}
    {u t : State}
    (h : u.reset.Alike s.grammar keep t.reset)
    (hend : u.top.reachesEnd = t.top.reachesEnd)
    (nesting : Nat)
    (line : String)
    (limit : TimeLimit) :
    SameOutcome (ScannedLine.Alike s.grammar keep)
      (scanLine s nesting line u limit).outcome (scanLine s nesting line t limit).outcome := by
  -- a frame of a line is not the one before any line
  have hlater : ∀ v : State, v.reset.top.untouched = false → v.isInitial = false := by
    intro v hv
    have htop : v.top.untouched = false := hv
    simp [State.isInitial, htop]
  have hu := hlater u h.left.top.touched
  have ht := hlater t h.right.top.touched
  unfold scanLine startState
  simp only [hu, ht, Bool.false_eq_true, if_false, Reported.outcome_bind]
  refine (scanText_alike h hend nesting false limit).bind ?_
  intro e e' _ _ he
  exact .ok ⟨rfl, he.cursor.coverage_eq, he.cursor.state, he.stopped⟩

end LineScopes
