import LineScopes.Proofs.Engine.Literal
import LineScopes.Proofs.Rule.Growth
import LineScopes.Proofs.Scan.Below
import LineScopes.Proofs.Scan.Course
import LineScopes.Proofs.Scan.Groups
import LineScopes.Proofs.Scan.Visits

/-!
# Which rules go on at the start of a line

The open rules that last line by line are asked in turn, the outermost one first, and each of them
looks at the line behind the match of the one before. What is said here about the place of the line,
the anchor and the text that is covered holds after each rule that goes on. The first rule without a
match ends this: what lies under its frame is left of the stack, and no rule above it is looked at.

**Main definitions.** `Frame.condition`, `Upkeep`, `Upkeeps`, `Upkeeps.Place`, `State.CutAt`,
`StartsAt`.

**Main statements.** `Upkeeps.place`: the place behind each rule that goes on.
`Upkeeps.exists_entries`: the rules behind it have not been looked at. `startLine_cuts`: what is
left of the stack and of the line.
-/

namespace LineScopes

section Returns

variable {s : LineScanner} {rescan : Rescan} {site : GroupSite}

/-- The scans of the groups of a match come to an end. -/
def Rescan.Returns
    (s : LineScanner)
    (site : GroupSite)
    (captures : List (Option RuleId))
    (rescan : Rescan) : Prop :=
  ∀ text d, site.Begins s captures text d →
    ∃ coverage, (rescan text d.firstLine d.pos d.state d.coverage).outcome = .ok coverage

theorem exists_handleGroups
    {captures : List (Option RuleId)}
    (h : Rescan.Returns s site captures rescan)
    {captured : List (CaptureRule × Span)}
    (hcaptured : captured ⊆ site.captured s.grammar captures)
    (groups : List OpenGroup)
    (c : Coverage) :
    ∃ d, handleGroups s rescan site captured groups c = .ok d := by
  induction captured generalizing groups c with
  | nil =>
      exact ⟨_, rfl⟩
  | cons group rest ih =>
      obtain ⟨r, span⟩ := group
      obtain ⟨hgroup, hrest⟩ := List.cons_subset.mp hcaptured
      rw [handleGroups]
      split
      · exact ⟨_, rfl⟩
      · cases hrule : r.retokenize with
        | none =>
            exact ih hrest _ _
        | some rule =>
            obtain ⟨⟨slot, found⟩, hslot, hcapture⟩ := List.mem_filterMap.mp hgroup
            obtain ⟨d, hagain⟩ := h _ _ (.group hslot hcapture hrule
              (c.upTo site groups span.first))
            rw [← outcome_rescanGroup] at hagain
            dsimp only
            rw [hagain]
            exact ih hrest _ d

/-- The groups of a match are handled if their scans come to an end. -/
theorem exists_handleCaptures
    {captures : List (Option RuleId)}
    (h : Rescan.Returns s site captures rescan)
    (c : Coverage) :
    ∃ d, (handleCaptures s rescan site captures c).outcome = .ok d := by
  rw [outcome_handleCaptures]
  exact exists_handleGroups h (List.Subset.refl _) [] c

end Returns

namespace Coverage

/-- Where the last of some segments ends. -/
def furthest (segments : List Segment) : Nat :=
  (segments.map Segment.last).foldr max 0

@[simp] theorem furthest_append
    (segments segments' : List Segment) :
    furthest (segments ++ segments') = max (furthest segments) (furthest segments') := by
  induction segments with
  | nil =>
      simp [furthest]
  | cons s rest ih =>
      simp only [furthest, List.cons_append, List.map_cons, List.foldr_cons] at ih ⊢
      rw [ih, Nat.max_assoc]

/-- A coverage grows by segments, which end where it ends. -/
theorem Grows.exists_added
    {text : String}
    {c d : Coverage}
    (h : c.Grows text d) :
    ∃ added, d.newest = added ++ c.newest ∧ d.reached = max c.reached (furthest added) := by
  induction h with
  | refl =>
      exact ⟨[], rfl, by simp [furthest]⟩
  | @tail e f _ hstep ih =>
      obtain ⟨added, hnewest, hreached⟩ := ih
      obtain ⟨scopes, last, -, rfl⟩ := hstep
      unfold extend
      split
      · rename_i hlt
        refine ⟨⟨e.reached, last, scopes⟩ :: added, by simp [hnewest], ?_⟩
        simp only [furthest, List.map_cons, List.foldr_cons] at hreached ⊢
        omega
      · exact ⟨added, hnewest, hreached⟩

end Coverage

/-- The pattern that says whether the rule of a frame goes on, with the captured texts inserted. -/
def Frame.condition
    (f : Frame)
    (r : WhileRule) : PatternSource :=
  (f.closing.map PatternSource.ofPattern).getD r.continuing

/-- The patterns kept in a frame are lawful if they are those of its rule. -/
theorem Frame.Tidy.lawful
    {g : Grammar}
    (he : g.engine.Lawful)
    {f : Frame}
    (hf : f.Tidy g) :
    f.Lawful := by
  intro set hset
  obtain ⟨text, -, rfl⟩ := hf.patterns set hset
  exact PatternSet.lawful_ofItems he _

namespace Grammar

variable {g : Grammar} {f : Frame} {r : WhileRule}

/-- The set in which a frame looks for a match holds its condition and nothing else. -/
theorem setOnward_eq_of_linesRule?
    (hf : f.Tidy g)
    (hrule : g.linesRule? f.rule = some r) :
    g.setOnward f = .ofItems g.engine [⟨.continuing, f.condition r⟩] := by
  have hitems : ∀ resolved, continuingItems g.rules f.rule resolved =
      [⟨.continuing, (resolved.map PatternSource.ofPattern).getD r.continuing⟩] := by
    intro resolved
    unfold linesRule? at hrule
    split at hrule
    · rename_i hfound
      obtain rfl := Option.some.inj hrule
      have hget : g.rules[f.rule]? = some (.lines _) := hfound
      simp only [continuingItems, hget]
    · cases hrule
  cases hclosing : f.closing with
  | none =>
      simp only [setOnward, hclosing, PatternSets.onward_eq, hitems, Frame.condition]
  | some text =>
      have hregion : g.isRegion f.rule = false := isRegion_of_linesRule? (by simp [hrule])
      rw [hf.setOnward_eq hclosing hregion]
      simp only [ownPatterns, hregion, Bool.false_eq_true, if_false, hitems, Frame.condition,
        hclosing]

/-- Whatever is found in this set lets the rule go on. -/
theorem label_of_findAt
    (hset : g.setOnward f = .ofItems g.engine [⟨.continuing, f.condition r⟩])
    {p : ScanPoint}
    {m : PatternMatch}
    (h : (g.setOnward f).findAt p = .ok (some m)) :
    m.label = .continuing := by
  obtain ⟨item, hitem, hlabel⟩ := PatternSet.exists_item_of_find h
  rw [hset] at hitem
  obtain rfl := List.mem_singleton.mp hitem
  exact hlabel.symm

end Grammar

/-- A rule that goes on, with its frame on top of `state`. -/
structure Upkeep where
  rule : WhileRule
  state : State
  found : PatternMatch
  /-- The segments of its groups, the newest first. -/
  segments : List Segment

namespace Upkeep

/-- The rule that was asked. -/
def asked (u : Upkeep) : WhileRule × State :=
  (u.rule, u.state)

/-- Where the match of the last rule ends. -/
def lastEnd (us : List Upkeep) : Nat :=
  (us.getLast?.map fun u => u.found.last).getD 0

/-- Where the last segment of the groups of some rules ends. -/
def groupsEnd (us : List Upkeep) : Nat :=
  Coverage.furthest (us.flatMap segments)

/-- The line is at `c` when a rule is asked, and at `d` once its match with its groups is covered. -/
structure Holds
    (s : LineScanner)
    (rescan : Rescan)
    (text : String)
    (c : Cursor)
    (u : Upkeep)
    (d : Cursor) : Prop where
  found : (s.grammar.setOnward u.state.top).findAt (c.point text) = .ok (some u.found)
  label : u.found.label = .continuing
  groups : ∃ after,
    (handleCaptures s rescan (c.site text u.found u.state) u.rule.continuingCaptures
      (c.coverage.extend u.state.top.contentScopes u.found.first)).outcome = .ok after ∧
    after.newest =
      u.segments ++ (c.coverage.extend u.state.top.contentScopes u.found.first).newest
  next : (handleContinuation s rescan text c u.rule u.state u.found).outcome = .ok d

@[simp] theorem lastEnd_append_singleton
    (us : List Upkeep)
    (u : Upkeep) :
    lastEnd (us ++ [u]) = u.found.last := by
  simp [lastEnd]

@[simp] theorem groupsEnd_append_singleton
    (us : List Upkeep)
    (u : Upkeep) :
    groupsEnd (us ++ [u]) = max (groupsEnd us) (Coverage.furthest u.segments) := by
  simp [groupsEnd]

end Upkeep

/-- The rules that are asked at the start of a line, the outermost first. -/
def Grammar.conditions
    (g : Grammar)
    (state : State) : List (WhileRule × State) :=
  linesFrames g (keepContinuations g state)

/-- Some of the rules have been asked and go on, the others are left to be asked, and the line is at
some place. -/
inductive Upkeeps (s : LineScanner) (rescan : Rescan) (text : String) (firstLine : Bool)
    (state : State) : List Upkeep → List (WhileRule × State) → Cursor → Prop
  | start :
    Upkeeps s rescan text firstLine state [] (s.grammar.conditions state)
      (.atStart s.grammar firstLine state .empty)
  | further {us : List Upkeep} {u : Upkeep} {rest : List (WhileRule × State)} {c d : Cursor}
    (h : Upkeeps s rescan text firstLine state us (u.asked :: rest) c)
    (hu : u.Holds s rescan text c d) :
    Upkeeps s rescan text firstLine state (us ++ [u]) rest d

section Place

variable {s : LineScanner} {rescan : Rescan} {text : String}

/-- The place of a line behind some rules that go on. -/
structure Upkeep.Place
    (text : String)
    (start : Cursor)
    (us : List Upkeep)
    (c : Cursor) : Prop where
  pos : c.pos = lastEnd us
  boundary : Text.IsBoundary text c.pos
  anchor : c.anchor = if us = [] then start.anchor else some (lastEnd us)
  firstLine : c.firstLine = (start.firstLine && c.pos == 0)
  tiles : c.coverage.Tiles text
  reached : c.coverage.reached = max (lastEnd us) (groupsEnd us)
  state : c.state = start.state

@[simp] theorem Cursor.coverage_advance
    (c : Cursor)
    (last : Nat) :
    (c.advance last).coverage = c.coverage := by
  unfold advance
  split <;> rfl

/-- The match of a rule that goes on lies behind the place of the line. -/
theorem Upkeep.Holds.within
    (he : s.grammar.engine.Lawful)
    {u : Upkeep}
    (hstate : u.state.Lawful)
    {c d : Cursor}
    (hpos : Text.IsBoundary text c.pos)
    (hu : u.Holds s rescan text c d) :
    u.found.Within text c.pos :=
  (Grammar.lawful_setOnward he hstate.top).find_within hpos hu.found

/-- How far the line is covered behind a rule that goes on. -/
theorem Upkeep.Holds.reached
    (hrescan : rescan.Sound)
    {u : Upkeep}
    (hstate : u.state.Lawful)
    {c d : Cursor}
    (hm : u.found.Within text c.pos)
    (hu : u.Holds s rescan text c d) :
    d.coverage.reached =
      max c.coverage.reached (max (Coverage.furthest u.segments) u.found.last) := by
  obtain ⟨after, hafter, hnewest⟩ := hu.groups
  have hsite : (c.site text u.found u.state).Sound := ⟨hstate, hm.groups⟩
  obtain ⟨added, hadded, hreached⟩ := (handleCaptures_grows hrescan hsite hafter).exists_added
  obtain rfl : u.segments = added := List.append_cancel_right (hnewest.symm.trans hadded)
  have hcovered : d.coverage = after.extend u.state.top.contentScopes u.found.last := by
    have hnext := hu.next
    rw [outcome_handleContinuation, hafter] at hnext
    obtain rfl := Except.ok.inj hnext
    exact Cursor.coverage_advance _ _
  have hle := hm.first_le_last
  rw [hcovered, Coverage.reached_extend, hreached, Coverage.reached_extend]
  omega

/-- The next rule goes on as well. -/
theorem Upkeep.Place.further
    (he : s.grammar.engine.Lawful)
    (hrescan : rescan.Sound)
    {start c d : Cursor}
    {us : List Upkeep}
    {u : Upkeep}
    (hstate : u.state.Lawful)
    (hstart : start.state.Lawful)
    (h : Upkeep.Place text start us c)
    (hu : u.Holds s rescan text c d) :
    Upkeep.Place text start (us ++ [u]) d := by
  have hm := hu.within he hstate h.boundary
  have hle := Nat.le_trans hm.pos_le_first hm.first_le_last
  have hsound : c.Sound text := ⟨h.boundary, h.state ▸ hstart⟩
  obtain ⟨hpos, hanchor, hfirst⟩ := handleContinuation_place hle hu.next
  obtain ⟨-, hgrows⟩ := handleContinuation_sound hrescan hsound hstate hm hu.next
  have hreached := hu.reached hrescan hstate hm
  refine ⟨?_, ?_, ?_, ?_, hgrows.tiles h.tiles, ?_, ?_⟩
  · rw [hpos, Upkeep.lastEnd_append_singleton]
  · rw [hpos]
    exact hm.boundary_last
  · rw [hanchor, Upkeep.lastEnd_append_singleton, if_neg (by simp)]
  · rw [hfirst, h.firstLine, Bool.and_assoc, beq_and_beq (Nat.zero_le _) (hpos ▸ hle)]
  · have hbefore := h.pos
    rw [hreached, h.reached, Upkeep.lastEnd_append_singleton, Upkeep.groupsEnd_append_singleton]
    omega
  · rw [state_handleContinuation hu.next, h.state]

variable {firstLine : Bool} {state : State} {us : List Upkeep}
variable {rest : List (WhileRule × State)} {c : Cursor}

namespace Upkeeps

/-- The rules that go on and those that are left are all that are asked. -/
theorem conditions_eq
    (h : Upkeeps s rescan text firstLine state us rest c) :
    s.grammar.conditions state = us.map Upkeep.asked ++ rest := by
  induction h with
  | start =>
      rfl
  | further h hu ih =>
      rw [ih]
      simp

theorem mem_conditions
    {w : WhileRule × State}
    (h : Upkeeps s rescan text firstLine state us (w :: rest) c) :
    w ∈ s.grammar.conditions state := by
  rw [h.conditions_eq]
  exact List.mem_append_right _ List.mem_cons_self

/-- Behind each rule that goes on the line is at the end of its match. -/
theorem place
    (he : s.grammar.engine.Lawful)
    (hrescan : rescan.Sound)
    (hstate : state.Lawful)
    (h : Upkeeps s rescan text firstLine state us rest c) :
    Upkeep.Place text (.atStart s.grammar firstLine state .empty) us c := by
  have hkept : (keepContinuations s.grammar state).Lawful :=
    keepContinuations_all (lasting_lawful he) hstate
  induction h with
  | start =>
      exact ⟨rfl, Text.isBoundary_zero text, rfl, by simp [Cursor.atStart],
        Coverage.tiles_empty text, rfl, rfl⟩
  | further h hu ih =>
      exact ih.further he hrescan (linesFrames_all hkept h.mem_conditions) hkept hu

/-- What is reported up to a rule, and what happens there, does not depend on those behind it. -/
theorem exists_entries
    (h : Upkeeps s rescan text firstLine state us rest c) :
    ∃ entries, ∀ others,
      continueRules s rescan text (us.map Upkeep.asked ++ others)
        (.atStart s.grammar firstLine state .empty) =
        ⟨entries ++ (continueRules s rescan text others c).entries,
          (continueRules s rescan text others c).outcome⟩ := by
  induction h with
  | start =>
      exact ⟨[], fun others => rfl⟩
  | @further us u rest c d h hu ih =>
      obtain ⟨entries, hentries⟩ := ih
      let r := handleContinuation s rescan text c u.rule u.state u.found
      refine ⟨entries ++ r.entries, fun others => ?_⟩
      have hnext : continueRules s rescan text (u.asked :: others) c =
          ⟨r.entries ++ (continueRules s rescan text others d).entries,
            (continueRules s rescan text others d).outcome⟩ := by
        rw [Upkeep.asked, continueRules, hu.found, Reported.liftM_ok_bind]
        dsimp only
        rw [if_pos hu.label]
        exact Reported.bind_eq_of_ok hu.next _
      rw [List.map_append, List.append_assoc, List.map_singleton, List.singleton_append, hentries,
        hnext, List.append_assoc]

end Upkeeps

end Place

/-- What is left of a stack where a rule does not go on, whose frame is on top of `t`: the longest
bottom part without that frame. The rules in it are those that were asked before. -/
structure State.CutAt
    (g : Grammar)
    (state t : State)
    (before : List (WhileRule × State))
    (after : State) : Prop where
  parent : t.pop? = some after
  part : after.frames <:+ (keepContinuations g state).frames
  without : ¬ t.frames <:+ after.frames
  longest : ∀ u : State, u.frames <:+ (keepContinuations g state).frames →
    ¬ t.frames <:+ u.frames → u.frames <:+ after.frames
  lines : linesFrames g after = before

/-- Where the scan of a line starts: all rules go on and the stack is the same as before, or it is
cut at the first rule without a match, and those above it are not looked at. -/
inductive StartsAt (s : LineScanner) (rescan : Rescan) (text : String) (firstLine : Bool)
    (state : State) (us : List Upkeep) (c : Cursor) : List (WhileRule × State) → Cursor → Prop
  | all
    (hsame : c.state.bare true = state.bare true) :
    StartsAt s rescan text firstLine state us c [] c
  | cut {r : WhileRule} {t after : State} {above : List (WhileRule × State)}
    (hnone : (s.grammar.setOnward t.top).findAt (c.point text) = .ok none)
    (hcut : State.CutAt s.grammar state t (us.map Upkeep.asked) after)
    (hunread : ∀ others,
      continueRules s rescan text (us.map Upkeep.asked ++ (r, t) :: others)
        (.atStart s.grammar firstLine state .empty) =
        startLine s rescan text firstLine state .empty) :
    StartsAt s rescan text firstLine state us c ((r, t) :: above) { c with state := after }

section Start

variable {s : LineScanner} {rescan : Rescan} {text : String} {firstLine : Bool} {state : State}

/-- The stack is cut where a rule does not go on. -/
theorem State.cutAt_pop
    {g : Grammar}
    (hbottom : g.linesRule? state.bottom.rule = none)
    {before above : List (WhileRule × State)}
    {r : WhileRule}
    {t : State}
    (h : g.conditions state = before ++ (r, t) :: above) :
    State.CutAt g state t before t.pop := by
  have hmem : (r, t) ∈ linesFrames g (keepContinuations g state) := by
    unfold Grammar.conditions at h
    simp [h]
  have hlowest : g.linesRule? (keepContinuations g state).bottom.rule = none := by
    rwa [rule_bottom_keepContinuations]
  have hbelow := below_ne_nil_of_mem_linesFrames hlowest hmem
  have hpart := State.suffix_of_mem_suffixes (mem_suffixes_of_linesFrames hmem)
  refine ⟨?_, ?_, State.not_suffix_pop hbelow, ?_, linesFrames_pop h hbelow⟩
  · obtain ⟨top, below⟩ := t
    cases below with
    | nil => exact absurd rfl hbelow
    | cons b rest => rfl
  · rw [State.frames_eq_cons_pop hbelow] at hpart
    exact (List.suffix_cons t.top t.pop.frames).trans hpart
  · intro u hu hnot
    exact State.suffix_pop hpart hbelow hu hnot

variable {us : List Upkeep} {rest : List (WhileRule × State)} {c : Cursor}

/-- All rules have gone on. -/
theorem Upkeeps.startsAt_all
    (he : s.grammar.engine.Lawful)
    (hrescan : rescan.Sound)
    (hstate : state.Lawful)
    (h : Upkeeps s rescan text firstLine state us [] c) :
    StartsAt s rescan text firstLine state us c [] c := by
  refine .all ?_
  rw [(h.place he hrescan hstate).state]
  exact State.bare_keepContinuations true s.grammar state

/-- A rule has no match. -/
theorem Upkeeps.startsAt_cut
    (hbottom : s.grammar.linesRule? state.bottom.rule = none)
    {r : WhileRule}
    {t : State}
    {above : List (WhileRule × State)}
    (h : Upkeeps s rescan text firstLine state us ((r, t) :: above) c)
    (hnone : (s.grammar.setOnward t.top).findAt (c.point text) = .ok none) :
    StartsAt s rescan text firstLine state us c ((r, t) :: above) { c with state := t.pop } := by
  refine .cut hnone (State.cutAt_pop hbottom h.conditions_eq) fun others => ?_
  obtain ⟨entries, hentries⟩ := h.exists_entries
  have hleft : ∀ others, continueRules s rescan text ((r, t) :: others) c =
      continueRules s rescan text ((r, t) :: above) c := by
    intro others
    simp only [continueRules, hnone, Reported.liftM_ok_bind]
  have hstart : startLine s rescan text firstLine state .empty =
      continueRules s rescan text (us.map Upkeep.asked ++ (r, t) :: above)
        (.atStart s.grammar firstLine state .empty) := by
    rw [← h.conditions_eq]
    rfl
  rw [hstart, hentries, hentries, hleft others]

/-- A rule with a match goes on. -/
theorem Upkeeps.exists_further
    (he : s.grammar.engine.Lawful)
    (hrescan : rescan.Sound)
    (hstate : state.Lawful)
    {r : WhileRule}
    {t : State}
    (h : Upkeeps s rescan text firstLine state us ((r, t) :: rest) c)
    {m : PatternMatch}
    (hfound : (s.grammar.setOnward t.top).findAt (c.point text) = .ok (some m))
    (hm : m.label = .continuing)
    {d : Cursor}
    (hnext : (handleContinuation s rescan text c r t m).outcome = .ok d) :
    ∃ u, Upkeeps s rescan text firstLine state (us ++ [u]) rest d := by
  have hkept : (keepContinuations s.grammar state).Lawful :=
    keepContinuations_all (lasting_lawful he) hstate
  have ht : t.Lawful := linesFrames_all hkept h.mem_conditions
  have hwithin : m.Within text c.pos :=
    (Grammar.lawful_setOnward he ht.top).find_within (h.place he hrescan hstate).boundary hfound
  have hgroups := hnext
  rw [outcome_handleContinuation] at hgroups
  obtain ⟨after, hafter, -⟩ := exists_of_map_eq_ok hgroups
  have hsite : (c.site text m t).Sound := ⟨ht, hwithin.groups⟩
  obtain ⟨added, hadded, -⟩ := (handleCaptures_grows hrescan hsite hafter).exists_added
  exact ⟨⟨r, t, m, added⟩, h.further ⟨hfound, hm, ⟨after, hafter, hadded⟩, hnext⟩⟩

/-- Each rule is asked with its condition. -/
theorem Grammar.setOnward_of_mem_conditions
    {g : Grammar}
    (hstate : state.All (Frame.Tidy g))
    {r : WhileRule}
    {t : State}
    (h : (r, t) ∈ g.conditions state) :
    g.setOnward t.top = .ofItems g.engine [⟨.continuing, t.top.condition r⟩] := by
  have hkept : (keepContinuations g state).All (Frame.Tidy g) :=
    keepContinuations_all (s := g.scanner .plain) (lasting_tidy g) hstate
  have ht : t.All (Frame.Tidy g) := linesFrames_all hkept h
  exact setOnward_eq_of_linesRule? ht.top (linesRule?_of_mem_linesFrames h)

/-- The rules are asked until one has no match, and the scan of the line starts there. -/
theorem Upkeeps.exists_startsAt
    (he : s.grammar.engine.Lawful)
    (hrescan : rescan.Sound)
    (hstate : state.All (Frame.Tidy s.grammar))
    (hbottom : s.grammar.linesRule? state.bottom.rule = none)
    (h : Upkeeps s rescan text firstLine state us rest c)
    {ms : List PatternMatch}
    {d : Cursor}
    (hd : Continues s rescan text rest c ms d) :
    ∃ us rest c, Upkeeps s rescan text firstLine state us rest c ∧
      StartsAt s rescan text firstLine state us c rest d := by
  have hlawful : state.Lawful := fun f hf => (hstate f hf).lawful he
  induction hd generalizing us with
  | @done c =>
      exact ⟨us, [], c, h, h.startsAt_all he hrescan hlawful⟩
  | @ends r t above c found hfound hends =>
      have hset := Grammar.setOnward_of_mem_conditions hstate h.mem_conditions
      cases found with
      | none =>
          exact ⟨us, (r, t) :: above, c, h, h.startsAt_cut hbottom hfound⟩
      | some m =>
          exact absurd (Grammar.label_of_findAt hset hfound) (hends m rfl)
  | goesOn hfound hm hnext hrest ih =>
      obtain ⟨u, hu⟩ := h.exists_further he hrescan hlawful hfound hm hnext
      exact ih hu

/-- The rules are asked, and nothing fails: each of them looks for its condition without an error,
and the scans of the groups of its match come to an end. -/
def Answering
    (s : LineScanner)
    (rescan : Rescan)
    (text : String)
    (firstLine : Bool)
    (state : State) : Prop :=
  ∀ us r t rest c, Upkeeps s rescan text firstLine state us ((r, t) :: rest) c →
    ∃ found, (s.grammar.setOnward t.top).findAt (c.point text) = .ok found ∧
      ∀ m, found = some m → Rescan.Returns s (c.site text m t) r.continuingCaptures rescan

theorem Upkeeps.exists_outcome
    (he : s.grammar.engine.Lawful)
    (hrescan : rescan.Sound)
    (hstate : state.Lawful)
    (hanswers : Answering s rescan text firstLine state)
    (h : Upkeeps s rescan text firstLine state us rest c) :
    ∃ d, (continueRules s rescan text rest c).outcome = .ok d := by
  induction rest generalizing us c with
  | nil =>
      exact ⟨c, rfl⟩
  | cons rule rest ih =>
      obtain ⟨r, t⟩ := rule
      obtain ⟨found, hfound, hreturns⟩ := hanswers us r t rest c h
      rw [continueRules, hfound, Reported.liftM_ok_bind]
      cases found with
      | none =>
          simp only [Reported.outcome_reportIf_bind]
          exact ⟨_, rfl⟩
      | some m =>
          dsimp only
          split
          · obtain ⟨after, hafter⟩ := exists_handleCaptures (hreturns m rfl)
              (c.coverage.extend t.top.contentScopes m.first)
            have hnext : (handleContinuation s rescan text c r t m).outcome = _ :=
              outcome_handleContinuation c r t m
            rw [hafter] at hnext
            obtain ⟨u, hu⟩ := h.exists_further he hrescan hstate hfound ‹_› hnext
            obtain ⟨d, hd⟩ := ih hu
            exact ⟨d, Reported.outcome_bind_eq_ok.mpr ⟨_, hnext, hd⟩⟩
          · simp only [Reported.outcome_reportIf_bind]
            exact ⟨_, rfl⟩

/-- At the start of a line the open rules that last line by line are asked, the outermost one first,
each at the end of the match of the one before, until one has no match. The stack is cut there. -/
theorem startLine_cuts
    (he : s.grammar.engine.Lawful)
    (hstate : state.All (Frame.Tidy s.grammar))
    (hbottom : s.grammar.linesRule? state.bottom.rule = none)
    (nesting : Nat) :
    (Answering s (rescanText s nesting) text firstLine state →
      ∃ d, (startLine s (rescanText s nesting) text firstLine state .empty).outcome = .ok d) ∧
    (∀ r t, (r, t) ∈ s.grammar.conditions state →
      s.grammar.setOnward t.top = .ofItems s.grammar.engine [⟨.continuing, t.top.condition r⟩]) ∧
    (∀ us rest c, Upkeeps s (rescanText s nesting) text firstLine state us rest c →
      s.grammar.conditions state = us.map Upkeep.asked ++ rest ∧
      Upkeep.Place text (.atStart s.grammar firstLine state .empty) us c) ∧
    ∀ d, (startLine s (rescanText s nesting) text firstLine state .empty).outcome = .ok d →
      ∃ us rest c, Upkeeps s (rescanText s nesting) text firstLine state us rest c ∧
        StartsAt s (rescanText s nesting) text firstLine state us c rest d := by
  have hrescan := rescanText_sound he nesting
  have hlawful : state.Lawful := fun f hf => (hstate f hf).lawful he
  refine ⟨fun hanswers => ?_, ?_, ?_, ?_⟩
  · exact Upkeeps.exists_outcome he hrescan hlawful hanswers .start
  · exact fun r t h => Grammar.setOnward_of_mem_conditions hstate h
  · exact fun us rest c h => ⟨h.conditions_eq, h.place he hrescan hlawful⟩
  · intro d hd
    obtain ⟨ms, hms⟩ := continueRules_eq_ok_iff.mp hd
    exact Upkeeps.exists_startsAt he hrescan hstate hbottom .start hms

end Start

/-- What a line starts with has only patterns of its own, and its lowest frame belongs to the root
patterns, which are a group. -/
theorem Between.tidy_startState
    {request : CompileRequest}
    {s : LineScanner}
    (hg : (Grammar.compile request).outcome = .ok s.grammar)
    {previous : State}
    (h : Between s.grammar previous) :
    (startState s previous).All (Frame.Tidy s.grammar) ∧
      s.grammar.linesRule? (startState s previous).bottom.rule = none := by
  refine ⟨startState_all (lasting_tidy s.grammar) h.tidy, ?_⟩
  obtain ⟨root, hroot⟩ := startState_stacked h.stacked
  obtain ⟨group, hgroup⟩ := Grammar.exists_group_of_compile hg
  rw [hroot.bottom.rule]
  simp [Grammar.linesRule?, hgroup]

/-- Nothing fails if the conditions are compiled and have no groups with rules. -/
theorem answering_of_compiles
    {s : LineScanner}
    {state : State}
    (h : ∀ r t, (r, t) ∈ s.grammar.conditions state →
      r.continuingCaptures = [] ∧ (s.grammar.setOnward t.top).compiles = true)
    (rescan : Rescan)
    (text : String)
    (firstLine : Bool) :
    Answering s rescan text firstLine state := by
  intro us r t rest c hasked
  obtain ⟨hcaptures, hcompiles⟩ := h r t hasked.mem_conditions
  obtain ⟨found, hfound⟩ := PatternSet.exists_find
    (PatternSet.exists_scanner hcompiles (c.point text).anchors) text (c.point text).pos
  refine ⟨found, hfound, fun m _ inner d hbegins => ?_⟩
  rw [hcaptures] at hbegins
  cases hbegins with
  | group hslot _ _ _ => simp [GroupSite.slots] at hslot

/-- A grammar for quotations with lists in them. -/
def quotation : CompileRequest where
  sources := {
    library := .empty
    base := {
      scopeName := "text"
      patterns := [
        { name := some "quote", beginPattern := some ">", whilePattern := some ">",
          patterns := some [
            { name := some "list", beginPattern := some "*", whilePattern := some "*" }] }] } }
  engine := literalEngine

/-- The quotation goes on, the list in it does not. -/
theorem startLine_cuts_quotation :
    ∃ (s : LineScanner) (previous : State) (d : Cursor),
      (Grammar.compile quotation).outcome = .ok s.grammar ∧
      Between s.grammar previous ∧
      Answering s (rescanText s 0) ">x\n" false (startState s previous) ∧
      (startLine s (rescanText s 0) ">x\n" false (startState s previous) .empty).outcome = .ok d ∧
      (s.grammar.conditions (startState s previous)).length = 2 ∧
      d.pos = 1 ∧ d.anchor = some 1 ∧ d.state.depth = 2 ∧ d.coverage.reached = 1 ∧
      ∃ us rest c, Upkeeps s (rescanText s 0) ">x\n" false (startState s previous) us rest c ∧
        StartsAt s (rescanText s 0) ">x\n" false (startState s previous) us c rest d := by
  have hscan : (Grammar.compile quotation).outcome.bind (fun g =>
      (g.tokenizeLine 0 .plain ">*" .initial none).outcome.bind fun l =>
        (startLine (g.scanner .plain) (rescanText (g.scanner .plain) 0) ">x\n" false
          (startState (g.scanner .plain) l.state) .empty).outcome.map fun d =>
            let rules := g.conditions (startState (g.scanner .plain) l.state)
            (rules.length, rules.all fun w =>
              w.1.continuingCaptures.isEmpty && (g.setOnward w.2.top).compiles,
              d.pos, d.anchor, d.state.depth, d.coverage.reached)) =
      .ok (2, true, 1, some 1, 2, 1) := by
    decide +kernel
  obtain ⟨g, hg, hscan⟩ := exists_of_bind_eq_ok hscan
  obtain ⟨l, hl, hscan⟩ := exists_of_bind_eq_ok hscan
  obtain ⟨d, hd, hplace⟩ := exists_of_map_eq_ok hscan
  simp only [Prod.mk.injEq] at hplace
  obtain ⟨hlength, hall, hpos, hanchor, hdepth, hreached⟩ := hplace
  have hbetween : Between g l.state := .line .initial hl
  obtain ⟨htidy, hbottom⟩ := Between.tidy_startState (s := g.scanner .plain) hg hbetween
  have he : (g.scanner .plain).grammar.engine.Lawful := by
    have hengine : g.engine = literalEngine := (Grammar.compile_eq_ok hg).1
    exact hengine ▸ literalEngine_lawful
  have hcompiles : ∀ r t, (r, t) ∈ g.conditions (startState (g.scanner .plain) l.state) →
      r.continuingCaptures = [] ∧ (g.setOnward t.top).compiles = true := by
    intro r t hmem
    simpa using List.all_eq_true.mp hall (r, t) hmem
  exact ⟨g.scanner .plain, l.state, d, hg, hbetween, answering_of_compiles hcompiles _ _ _, hd,
    hlength, hpos, hanchor, hdepth, hreached, (startLine_cuts he htidy hbottom 0).2.2.2 d hd⟩

end LineScopes
