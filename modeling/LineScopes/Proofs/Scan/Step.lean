import LineScopes.Scan.Step

/-!
# What a step does

A step covers the text up to its match, handles the groups of the match, covers the match and goes
on with another stack. Which stack that is depends on the cursor and the match alone, not on the
groups: `Cursor.handling` says it for every kind of match.

**Main definitions.** `Handling`, `Cursor.handling`, `Cursor.resume`.

**Main statements.** `outcome_step`: a step in terms of `handling` and `resume`. `step_eq_ok`: the
two ways in which a step ends well.
-/

namespace LineScopes

/-- The stack after a step. -/
def Progress.state : Progress → State
  | .onward c => c.state
  | .finished c => c.state

/-- How far the line is covered after a step. -/
def Progress.coverage : Progress → Coverage
  | .onward c => c.coverage
  | .finished c => c.coverage

/-- What a match does with the stack. -/
structure Handling where
  /-- The state in which the match is covered. -/
  state : State
  /-- The rules of the groups. -/
  captures : List (Option RuleId)
  /-- Where `\G` matches next. -/
  anchor : Option Nat
  /-- The state after the match. -/
  next : State
  /-- The state to go on with if the match must not be handled again. -/
  recovery : Option State

/-- The state in which the end of the region on top is covered. -/
def State.delimited (s : State) : State :=
  s.mapTop fun f => f.withContentScopes f.nameScopes

namespace Cursor

/-- The cursor with the rest of the text covered. -/
def covered
    (text : String)
    (c : Cursor) : Cursor :=
  { c with coverage := c.coverage.extend c.state.top.contentScopes text.utf8ByteSize }

/-- A region is closed; one that was opened at the same place is kept. -/
def closing
    (g : Grammar)
    (c : Cursor)
    (m : PatternMatch) : Handling where
  state := c.state.delimited
  captures := closingCaptures (g.rule? c.state.top.rule)
  anchor := c.state.top.anchor
  next := c.state.delimited.pop
  recovery :=
    if m.last ≤ c.pos ∧ c.state.top.enter = some c.pos then some c.state.delimited else none

/-- The stack with the rule of a match on top. -/
def entered
    (s : LineScanner)
    (text : String)
    (c : Cursor)
    (m : PatternMatch)
    (id : RuleId)
    (rule : Rule) : State :=
  let scopes := s.pushTemplate c.state.top.contentScopes rule.name text m.groups
  c.state.push (.entered id (some c.pos) c.anchor (m.last == text.utf8ByteSize) scopes scopes)

/-- The stack with a rule on top that stays open. -/
def opened
    (s : LineScanner)
    (text : String)
    (c : Cursor)
    (m : PatternMatch)
    (id : RuleId)
    (rule : Rule)
    (closing : PatternSource) : State :=
  let entered := c.entered s text m id rule
  resolveClosing closing text m.groups
    (entered.mapTop (·.withContentScopes
      (s.pushTemplate entered.top.nameScopes rule.contentName text m.groups)))

/-- A rule is opened; one that was opened at the same place already is left at once. -/
def opening
    (s : LineScanner)
    (text : String)
    (c : Cursor)
    (m : PatternMatch)
    (id : RuleId)
    (rule : Rule)
    (captures : List (Option RuleId))
    (closing : PatternSource) : Handling where
  state := c.entered s text m id rule
  captures := captures
  anchor := some m.last
  next := c.opened s text m id rule closing
  recovery :=
    if m.last ≤ c.pos ∧ c.state.hasSameRuleAs (c.opened s text m id rule closing) = true then
      some (c.opened s text m id rule closing).pop
    else none

/-- A rule is entered and left; if it did not advance, the frame below is left, too. -/
def passing
    (s : LineScanner)
    (text : String)
    (c : Cursor)
    (m : PatternMatch)
    (id : RuleId)
    (rule : Rule) : Handling where
  state := c.entered s text m id rule
  captures := simpleCaptures rule
  anchor := c.anchor
  next := c.state
  recovery := if m.last ≤ c.pos then some c.state.pop else none

/-- What a match does with the stack; nothing if it ends the scan. -/
def handling
    (s : LineScanner)
    (text : String)
    (c : Cursor)
    (m : PatternMatch) : Option Handling :=
  match m.label with
  | .closing => some (c.closing s.grammar m)
  | .continuing => none
  | .rule id =>
    match s.grammar.rule? id with
    | none => none
    | some rule =>
      match openingOf? rule with
      | some (captures, closing) => some (c.opening s text m id rule captures closing)
      | none => some (c.passing s text m id rule)

/-- The three ways in which a match is handled. -/
theorem handling_eq_some
    {s : LineScanner}
    {text : String}
    {c : Cursor}
    {m : PatternMatch}
    {k : Handling}
    (h : c.handling s text m = some k) :
    (m.label = .closing ∧ k = c.closing s.grammar m) ∨
      ∃ id rule, m.label = .rule id ∧ s.grammar.rule? id = some rule ∧
        ((∃ captures closing, k = c.opening s text m id rule captures closing) ∨
          k = c.passing s text m id rule) := by
  unfold handling at h
  split at h
  · rename_i hlabel
    left
    exact ⟨hlabel, (Option.some.inj h).symm⟩
  · cases h
  · rename_i id hlabel
    right
    split at h
    · cases h
    · rename_i rule hrule
      refine ⟨id, rule, hlabel, hrule, ?_⟩
      split at h
      · left
        exact ⟨_, _, (Option.some.inj h).symm⟩
      · right
        exact (Option.some.inj h).symm

/-- The coverage behind a match, given the one in front of it. -/
def matched
    (m : PatternMatch)
    (h : Handling)
    (coverage : Coverage) : Coverage :=
  coverage.extend h.state.top.contentScopes m.last

/-- What follows a match whose groups have been handled. -/
def resume
    (text : String)
    (c : Cursor)
    (m : PatternMatch)
    (h : Handling)
    (coverage : Coverage) : Progress :=
  let c := { c with anchor := h.anchor, state := h.next, coverage := matched m h coverage }
  match h.recovery with
  | none => .onward (c.advance m.last)
  | some state =>
    let next := Text.nextOffset text c.pos
    let c := { c with
      state
      coverage := c.coverage.extend state.top.contentScopes (min next text.utf8ByteSize) }
    if text.utf8ByteSize ≤ next then .finished c
    else .onward { c with pos := next, firstLine := false }

/-- After a recovery the scan goes on with the recovered stack. -/
theorem state_resume_eq
    {text : String}
    {c : Cursor}
    {m : PatternMatch}
    {k : Handling}
    {coverage : Coverage} :
    (c.resume text m k coverage).state = k.recovery.getD k.next := by
  unfold resume
  cases k.recovery with
  | none =>
      dsimp only [advance]
      split <;> rfl
  | some state =>
      dsimp only
      split <;> rfl

theorem state_resume
    {text : String}
    {c : Cursor}
    {m : PatternMatch}
    {k : Handling}
    {coverage : Coverage} :
    (c.resume text m k coverage).state = k.next ∨
      k.recovery = some (c.resume text m k coverage).state := by
  rw [state_resume_eq]
  cases k.recovery with
  | none => exact Or.inl rfl
  | some state => exact Or.inr rfl

/-- A scan goes on behind the match, or it stays, or it skips a character after a recovery. -/
theorem resume_eq_onward
    {text : String}
    {c d : Cursor}
    {m : PatternMatch}
    {k : Handling}
    {coverage : Coverage}
    (h : c.resume text m k coverage = .onward d) :
    (k.recovery = none ∧ d.state = k.next ∧
      (c.pos < d.pos ∨ m.last ≤ c.pos ∧ d.pos = c.pos)) ∨
      (k.recovery = some d.state ∧ c.pos < d.pos) := by
  unfold resume at h
  split at h
  · rename_i hnone
    obtain rfl := Progress.onward.inj h
    left
    refine ⟨hnone, ?_, ?_⟩
    · unfold advance
      split <;> rfl
    · unfold advance
      split
      · exact .inl ‹_›
      · right
        exact ⟨by dsimp only at *; omega, rfl⟩
  · rename_i state hsome
    dsimp only at h
    split at h
    · cases h
    · obtain rfl := Progress.onward.inj h
      right
      exact ⟨hsome, Text.lt_nextOffset text c.pos⟩

/-- The groups of the match of a step. -/
def groups
    (s : LineScanner)
    (rescan : Rescan)
    (text : String)
    (c : Cursor)
    (m : PatternMatch)
    (h : Handling) : Except Error Coverage :=
  (handleCaptures s rescan (c.site text m h.state) h.captures
    (c.coverage.extend c.state.top.contentScopes m.first)).outcome

end Cursor

/-- The outcome of a match whose groups have been handled. -/
def Handled.ofHandling
    (m : PatternMatch)
    (h : Handling)
    (coverage : Coverage) : Handled :=
  ⟨h.anchor, h.next, Cursor.matched m h coverage, h.recovery⟩

section Outcomes

variable (s : LineScanner) (rescan : Rescan) (text : String) (c : Cursor) (m : PatternMatch)

theorem outcome_proceed
    (h : Handling)
    (coverage : Coverage) :
    (proceed s text c m (.ofHandling m h coverage)).outcome =
      .ok (c.resume text m h coverage) := by
  unfold proceed Cursor.resume Handled.ofHandling
  cases h.recovery with
  | none =>
      rfl
  | some state =>
      simp only [LineScanner.outcome_produce_bind]
      split <;> rfl

theorem outcome_handleClosing :
    (handleClosing s rescan text c m).outcome =
      (c.groups s rescan text m (c.closing s.grammar m)).map
        (.ofHandling m (c.closing s.grammar m)) := by
  simp only [handleClosing, LineScanner.outcome_produce_bind]
  refine Reported.outcome_bind_eq_map fun coverage => ?_
  simp only [LineScanner.outcome_produce_bind, Reported.outcome_reportIf_bind]
  simp [Handled.ofHandling, Cursor.closing, Cursor.matched, State.delimited, State.mapTop,
    Frame.withContentScopes]

theorem outcome_handleOpening
    (id : RuleId)
    (rule : Rule)
    (captures : List (Option RuleId))
    (closing : PatternSource) :
    (handleOpening s rescan text c m rule (c.entered s text m id rule) captures closing
        (c.coverage.extend c.state.top.contentScopes m.first)).outcome =
      (c.groups s rescan text m (c.opening s text m id rule captures closing)).map
        (.ofHandling m (c.opening s text m id rule captures closing)) := by
  simp only [handleOpening, Reported.outcome_reportIf_bind]
  refine Reported.outcome_bind_eq_map fun coverage => ?_
  simp only [LineScanner.outcome_produce_bind, Reported.outcome_reportIf_bind]
  simp [Handled.ofHandling, Cursor.opening, Cursor.opened, Cursor.matched]
  congr

theorem outcome_handleSimple
    (id : RuleId)
    (rule : Rule) :
    (handleSimple s rescan text c m rule (c.entered s text m id rule)
        (c.coverage.extend c.state.top.contentScopes m.first)).outcome =
      (c.groups s rescan text m (c.passing s text m id rule)).map
        (.ofHandling m (c.passing s text m id rule)) := by
  simp only [handleSimple]
  refine Reported.outcome_bind_eq_map fun coverage => ?_
  simp only [LineScanner.outcome_produce_bind, Reported.outcome_reportIf_bind]
  simp [Handled.ofHandling, Cursor.passing, Cursor.matched, Cursor.entered]

/-- The outcome of the match of a step: its groups are handled, unless it ends the scan. -/
def Cursor.handled : Except Error Progress :=
  match c.handling s text m with
  | none => .ok (.finished (c.covered text))
  | some h => (c.groups s rescan text m h).map (c.resume text m h)

/-- The outcome of the next match of a step. -/
def Cursor.followed : Option PatternMatch → Except Error Progress
  | none => .ok (.finished (c.covered text))
  | some m => c.handled s rescan text m

theorem outcome_finishText :
    (finishText s text c).outcome = .ok (.finished (c.covered text)) := by
  simp only [finishText, LineScanner.outcome_produce_bind]
  rfl

theorem outcome_handle_bind
    {x : Reported Handled}
    {h : Handling}
    (hx : x.outcome = (c.groups s rescan text m h).map (.ofHandling m h)) :
    (x >>= proceed s text c m).outcome =
      (c.groups s rescan text m h).map (c.resume text m h) := by
  rw [Reported.outcome_bind, hx]
  cases c.groups s rescan text m h with
  | error e =>
      rfl
  | ok coverage =>
      exact outcome_proceed s text c m h coverage

theorem outcome_handleRule
    (id : RuleId)
    (rule : Rule) :
    (handleRule s rescan text c m id rule >>= proceed s text c m).outcome =
      match openingOf? rule with
      | some (captures, closing) =>
        (c.groups s rescan text m (c.opening s text m id rule captures closing)).map
          (c.resume text m (c.opening s text m id rule captures closing))
      | none =>
        (c.groups s rescan text m (c.passing s text m id rule)).map
          (c.resume text m (c.passing s text m id rule)) := by
  have hrule : (handleRule s rescan text c m id rule).outcome =
      match openingOf? rule with
      | some (captures, closing) =>
        (handleOpening s rescan text c m rule (c.entered s text m id rule) captures closing
          (c.coverage.extend c.state.top.contentScopes m.first)).outcome
      | none =>
        (handleSimple s rescan text c m rule (c.entered s text m id rule)
          (c.coverage.extend c.state.top.contentScopes m.first)).outcome := by
    simp only [handleRule, LineScanner.outcome_produce_bind]
    cases openingOf? rule <;> rfl
  cases hopening : openingOf? rule with
  | none =>
      rw [hopening] at hrule
      exact outcome_handle_bind s rescan text c m
        (hrule.trans (outcome_handleSimple s rescan text c m id rule))
  | some p =>
      rw [hopening] at hrule
      exact outcome_handle_bind s rescan text c m
        (hrule.trans (outcome_handleOpening s rescan text c m id rule p.1 p.2))

theorem outcome_handleMatch :
    (handleMatch s rescan text c m).outcome = c.handled s rescan text m := by
  unfold handleMatch Cursor.handled Cursor.handling
  cases m.label with
  | closing =>
      exact outcome_handle_bind s rescan text c m (outcome_handleClosing s rescan text c m)
  | continuing =>
      exact outcome_finishText s text c
  | rule id =>
      dsimp only
      cases s.grammar.rule? id with
      | none =>
          exact outcome_finishText s text c
      | some rule =>
          dsimp only
          rw [outcome_handleRule]
          cases openingOf? rule <;> rfl

/-- A step finds a match, handles its groups and goes on as the match says. -/
theorem outcome_step :
    (step s rescan text c).outcome =
      (nextMatch s.grammar ((c.kept s.grammar).point text)
        (c.kept s.grammar).state.top).outcome.bind
        ((c.kept s.grammar).followed s rescan text) := by
  simp only [step, Reported.outcome_reportIf_bind]
  rw [Reported.outcome_bind]
  refine congrArg (Except.bind _) (funext fun found => ?_)
  cases found with
  | none =>
      simp only [Reported.outcome_reportIf_bind]
      exact outcome_finishText s text (c.kept s.grammar)
  | some m =>
      simp only [Reported.outcome_reportIf_bind]
      exact outcome_handleMatch s rescan text (c.kept s.grammar) m

end Outcomes

/-- The two ways in which a step ends well: nothing is left to handle, or a match is handled. -/
theorem step_eq_ok
    {s : LineScanner}
    {rescan : Rescan}
    {text : String}
    {c : Cursor}
    {p : Progress}
    (h : (step s rescan text c).outcome = .ok p) :
    p = .finished ((c.kept s.grammar).covered text) ∨
      ∃ m k coverage,
        (nextMatch s.grammar ((c.kept s.grammar).point text) (c.kept s.grammar).state.top).outcome =
          .ok (some m) ∧
        (c.kept s.grammar).handling s text m = some k ∧
        (c.kept s.grammar).groups s rescan text m k = .ok coverage ∧
        p = (c.kept s.grammar).resume text m k coverage := by
  rw [outcome_step] at h
  cases hnext : (nextMatch s.grammar ((c.kept s.grammar).point text)
      (c.kept s.grammar).state.top).outcome with
  | error e =>
      simp [hnext, Except.bind] at h
  | ok found =>
      simp only [hnext, Except.bind] at h
      cases found with
      | none =>
          left
          simpa [Cursor.followed] using h.symm
      | some m =>
          simp only [Cursor.followed, Cursor.handled] at h
          cases hk : (c.kept s.grammar).handling s text m with
          | none =>
              left
              simpa [hk] using h.symm
          | some k =>
              right
              simp only [hk] at h
              cases hgroups : (c.kept s.grammar).groups s rescan text m k with
              | error e =>
                  simp [hgroups, Except.map] at h
              | ok coverage =>
                  simp only [hgroups, Except.map, Except.ok.injEq] at h
                  exact ⟨m, k, coverage, rfl, hk, hgroups, h.symm⟩

end LineScopes
