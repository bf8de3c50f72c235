import LineScopes.Proofs.Scan.Frames

/-!
# What a scan reads of a frame

The patterns kept in a frame are those that would be made for it again, so it makes no difference
whether they are kept. Whether the match that opened a rule included the end of its line is read at
the start of a line only. Both are erased here, the second one on demand, and what a match does
with the stack is the same for an erased stack.

**Main definitions.** `Frame.Tidy`, `Frame.bare`, `State.bare`, `Cursor.bare`.

**Main statements.** `lasting_tidy`: the patterns kept in frames are always those of their rules.
`nextMatch_bare`, `Cursor.handling_bare`: the next match, and what it does with the stack.
-/

namespace LineScopes

/-- The patterns that a frame keeps if its end pattern is resolved. -/
def Grammar.ownPatterns
    (g : Grammar)
    (id : RuleId)
    (text : String) : PatternSet :=
  .ofItems g.engine
    (if g.isRegion id then ruleItems g.rules id (some text)
      else continuingItems g.rules id (some text))

/-- A frame of a line, with no patterns but its own. -/
structure Frame.Tidy
    (g : Grammar)
    (f : Frame) : Prop where
  touched : f.untouched = false
  patterns : ∀ p, f.patterns = some p →
    ∃ text, f.closing = some text ∧ p = g.ownPatterns f.rule text

namespace Frame.Tidy

variable {g : Grammar} {f : Frame} {text : String}

theorem getD_patterns
    (hf : f.Tidy g)
    (hclosing : f.closing = some text) :
    f.patterns.getD (g.ownPatterns f.rule text) = g.ownPatterns f.rule text := by
  cases hp : f.patterns with
  | none =>
      rfl
  | some p =>
      obtain ⟨text', hclosing', rfl⟩ := hf.patterns p hp
      obtain rfl : text' = text := Option.some.inj (hclosing'.symm.trans hclosing)
      rfl

theorem setInside_eq
    (hf : f.Tidy g)
    (hclosing : f.closing = some text)
    (hregion : g.isRegion f.rule = true) :
    g.setInside f = g.ownPatterns f.rule text := by
  have hget := hf.getD_patterns hclosing
  unfold Grammar.setInside
  rw [hclosing]
  simpa [hregion, Grammar.ownPatterns] using hget

theorem setOnward_eq
    (hf : f.Tidy g)
    (hclosing : f.closing = some text)
    (hregion : g.isRegion f.rule = false) :
    g.setOnward f = g.ownPatterns f.rule text := by
  have hget := hf.getD_patterns hclosing
  unfold Grammar.setOnward
  rw [hclosing]
  simpa [hregion, Grammar.ownPatterns] using hget

end Frame.Tidy

theorem Grammar.isRegion_of_linesRule?
    {g : Grammar}
    {id : RuleId}
    (h : (g.linesRule? id).isSome = true) :
    g.isRegion id = false := by
  unfold linesRule? at h
  unfold isRegion
  split at h
  · rename_i hrule
    rw [hrule]
  · cases h

/-- The patterns kept in frames are always those of their rules. -/
theorem lasting_tidy
    (g : Grammar) :
    Frame.Lasting g (Frame.Tidy g) where
  entered _ _ _ _ _ _ := ⟨rfl, fun p hp => by cases hp⟩
  withContentScopes f scopes hf := ⟨by simp [Frame.withContentScopes, hf.touched], hf.patterns⟩
  withClosing f text hf := by
    unfold Frame.withClosing
    split
    · exact hf
    · exact ⟨rfl, fun p hp => by cases hp⟩
  keepInside f hf := by
    unfold Grammar.keepInside
    split
    · rename_i hown
      obtain ⟨hclosing, hregion⟩ : f.closing.isSome = true ∧ g.isRegion f.rule = true := by
        simpa using hown
      obtain ⟨text, hclosing⟩ := Option.isSome_iff_exists.mp hclosing
      refine ⟨hf.touched, fun p hp => ⟨text, hclosing, ?_⟩⟩
      obtain rfl : g.setInside f = p := Option.some.inj hp
      exact hf.setInside_eq hclosing hregion
    · exact hf
  keepOnward f hlines hf := by
    unfold Grammar.keepOnward
    split
    · rename_i hclosing
      obtain ⟨text, hclosing⟩ := Option.isSome_iff_exists.mp hclosing
      refine ⟨hf.touched, fun p hp => ⟨text, hclosing, ?_⟩⟩
      obtain rfl : g.setOnward f = p := Option.some.inj hp
      exact hf.setOnward_eq hclosing (Grammar.isRegion_of_linesRule? hlines)
    · exact hf
  reset _ hf := ⟨hf.touched, hf.patterns⟩

/-- A frame without the patterns it keeps. Whether the match that opened its rule included the end
of the line is erased, too, unless it is to be kept. -/
def Frame.bare
    (keep : Bool)
    (f : Frame) : Frame :=
  { f with patterns := none, reachesEnd := keep && f.reachesEnd }

/-- A state with bare frames. -/
def State.bare
    (keep : Bool)
    (s : State) : State :=
  ⟨s.top.bare keep, s.below.map (Frame.bare keep)⟩

namespace Frame

variable (keep : Bool)

theorem Tidy.bare
    {g : Grammar}
    {f : Frame}
    (hf : f.Tidy g) :
    (f.bare keep).Tidy g :=
  ⟨hf.touched, fun p hp => by cases hp⟩

@[simp] theorem nameScopes_bare
    (f : Frame) :
    (f.bare keep).nameScopes = f.nameScopes := by
  rfl

@[simp] theorem contentScopes_bare
    (f : Frame) :
    (f.bare keep).contentScopes = f.contentScopes := by
  rfl

@[simp] theorem reachesEnd_bare
    (f : Frame) :
    (f.bare keep).reachesEnd = (keep && f.reachesEnd) := by
  rfl

@[simp] theorem bare_bare
    (f : Frame) :
    (f.bare keep).bare keep = f.bare keep := by
  cases keep <;> rfl

@[simp] theorem bare_reset
    (f : Frame) :
    f.reset.bare keep = (f.bare keep).reset := by
  rfl

@[simp] theorem bare_entered
    (rule : RuleId)
    (enter anchor : Option Nat)
    (reachesEnd : Bool)
    (nameScopes contentScopes : ScopeList) :
    (entered rule enter anchor reachesEnd nameScopes contentScopes).bare keep =
      entered rule enter anchor (keep && reachesEnd) nameScopes contentScopes := by
  rfl

theorem bare_withClosing
    (f : Frame)
    (text : String) :
    (f.withClosing text).bare keep = (f.bare keep).withClosing text := by
  have hclosing : (f.bare keep).closing = f.closing := rfl
  unfold withClosing
  rw [hclosing]
  split <;> rfl

@[simp] theorem bare_keepInside
    (g : Grammar)
    (f : Frame) :
    (g.keepInside f).bare keep = f.bare keep := by
  obtain ⟨patterns, heq⟩ := g.exists_keepInside_eq f
  rw [heq]
  rfl

@[simp] theorem bare_keepOnward
    (g : Grammar)
    (f : Frame) :
    (g.keepOnward f).bare keep = f.bare keep := by
  obtain ⟨patterns, heq⟩ := g.exists_keepOnward_eq f
  rw [heq]
  rfl

variable {g : Grammar} {f : Frame}

/-- Kept patterns can be left out. -/
theorem Tidy.setInside_bare
    (hf : f.Tidy g) :
    g.setInside (f.bare keep) = g.setInside f := by
  cases hclosing : f.closing with
  | none =>
      have hbare : (f.bare keep).closing = none := hclosing
      simp only [Grammar.setInside, hclosing, hbare]
      rfl
  | some text =>
      have hbare : (f.bare keep).closing = some text := hclosing
      cases hregion : g.isRegion f.rule with
      | true =>
          rw [hf.setInside_eq hclosing hregion]
          exact (hf.bare keep).setInside_eq hbare hregion
      | false =>
          have hrule : (f.bare keep).rule = f.rule := rfl
          simp [Grammar.setInside, hclosing, hbare, hregion, hrule]

theorem Tidy.setOnward_bare
    (hf : f.Tidy g)
    (hregion : g.isRegion f.rule = false) :
    g.setOnward (f.bare keep) = g.setOnward f := by
  cases hclosing : f.closing with
  | none =>
      have hbare : (f.bare keep).closing = none := hclosing
      simp only [Grammar.setOnward, hclosing, hbare]
      rfl
  | some text =>
      have hbare : (f.bare keep).closing = some text := hclosing
      rw [hf.setOnward_eq hclosing hregion]
      exact (hf.bare keep).setOnward_eq hbare hregion

end Frame

namespace State

variable (keep : Bool)

@[simp] theorem bare_bare
    (s : State) :
    (s.bare keep).bare keep = s.bare keep := by
  simp [bare]

@[simp] theorem bare_reset
    (s : State) :
    s.reset.bare keep = (s.bare keep).reset := by
  simp [bare, reset, Function.comp_def]

@[simp] theorem bare_push
    (s : State)
    (f : Frame) :
    (s.push f).bare keep = (s.bare keep).push (f.bare keep) := by
  rfl

@[simp] theorem bare_pop
    (s : State) :
    s.pop.bare keep = (s.bare keep).pop := by
  obtain ⟨top, below⟩ := s
  cases below <;> rfl

theorem bare_mapTop
    {change : Frame → Frame}
    (h : ∀ f : Frame, (change f).bare keep = change (f.bare keep))
    (s : State) :
    (s.mapTop change).bare keep = (s.bare keep).mapTop change :=
  congrArg (State.mk · _) (h s.top)

@[simp] theorem bare_keepInside
    (g : Grammar)
    (s : State) :
    (s.mapTop g.keepInside).bare keep = s.bare keep := by
  simp [bare, mapTop]

@[simp] theorem bare_keepContinuations
    (g : Grammar)
    (s : State) :
    (keepContinuations g s).bare keep = s.bare keep := by
  have hkeep : ∀ f : Frame,
      (if (g.linesRule? f.rule).isSome then g.keepOnward f else f).bare keep = f.bare keep := by
    intro f
    split
    · exact Frame.bare_keepOnward keep g f
    · rfl
  unfold keepContinuations bare
  simp only [List.map_map, hkeep, Function.comp_def]

@[simp] theorem bare_delimited
    (s : State) :
    s.delimited.bare keep = (s.bare keep).delimited := by
  rfl

@[simp] theorem depth_bare
    (s : State) :
    (s.bare keep).depth = s.depth := by
  simp [bare, depth]

@[simp] theorem frames_bare
    (s : State) :
    (s.bare keep).frames = s.frames.map (Frame.bare keep) := by
  rfl

@[simp] theorem hasSameRuleAs_bare
    (s t : State) :
    (s.bare keep).hasSameRuleAs (t.bare keep) = s.hasSameRuleAs t := by
  simp only [hasSameRuleAs, frames_bare, List.takeWhile_map, List.any_map]
  rfl

/-- What agrees with the ends of the opening matches agrees without them. -/
theorem bare_false_of_bare
    {keep : Bool}
    {s t : State}
    (h : s.bare keep = t.bare keep) :
    s.bare false = t.bare false := by
  have htwice : ∀ u : State, (u.bare keep).bare false = u.bare false := by
    intro u
    simp [bare, Frame.bare]
  rw [← htwice s, h, htwice t]

end State

/-- A cursor with a bare state. -/
def Cursor.bare
    (keep : Bool)
    (c : Cursor) : Cursor :=
  { c with state := c.state.bare keep }

/-- What a match does, with bare states. -/
def Handling.bare
    (keep : Bool)
    (k : Handling) : Handling where
  state := k.state.bare keep
  captures := k.captures
  anchor := k.anchor
  next := k.next.bare keep
  recovery := k.recovery.map (State.bare keep)

/-- The choice of a match does not depend on what is erased. -/
theorem nextMatch_bare
    {g : Grammar}
    {f : Frame}
    (hf : f.Tidy g)
    (keep : Bool)
    (p : ScanPoint) :
    nextMatch g p (f.bare keep) = nextMatch g p f := by
  unfold nextMatch ruleMatch
  rw [hf.setInside_bare keep]
  rfl

theorem resolveClosing_bare
    (keep : Bool)
    (closing : PatternSource)
    (text : String)
    (groups : Groups)
    (s : State) :
    (resolveClosing closing text groups s).bare keep =
      resolveClosing closing text groups (s.bare keep) := by
  unfold resolveClosing
  split
  · exact State.bare_mapTop keep (fun f => Frame.bare_withClosing keep f _) s
  · rfl

namespace Cursor

variable {s : LineScanner} {text : String} {keep : Bool} {c : Cursor} {m : PatternMatch}

@[simp] theorem state_bare :
    (c.bare keep).state = c.state.bare keep := by
  rfl

theorem closing_bare
    (g : Grammar) :
    ((c.bare keep).closing g m).bare keep = (c.closing g m).bare keep := by
  have htop : (c.state.bare keep).top.enter = c.state.top.enter := rfl
  have hpos : (c.bare keep).pos = c.pos := rfl
  unfold closing Handling.bare
  simp only [htop, hpos, state_bare, State.bare_pop, State.bare_delimited, State.bare_bare]
  split
  · simp only [Option.map_some, State.bare_delimited, State.bare_bare]
    rfl
  · rfl

theorem entered_bare
    (id : RuleId)
    (rule : Rule) :
    ((c.bare keep).entered s text m id rule).bare keep =
      (c.entered s text m id rule).bare keep := by
  simp only [entered, state_bare, State.bare_push, Frame.bare_entered, State.bare_bare]
  rfl

/-- The stack with a rule that stays open depends on the one with the rule entered only. -/
theorem bare_opened
    (id : RuleId)
    (rule : Rule)
    (closing : PatternSource) :
    (c.opened s text m id rule closing).bare keep =
      let entered := (c.entered s text m id rule).bare keep
      resolveClosing closing text m.groups
        (entered.mapTop (·.withContentScopes
          (s.pushTemplate entered.top.nameScopes rule.contentName text m.groups))) := by
  unfold opened
  dsimp only
  rw [resolveClosing_bare]
  rfl

theorem opened_bare
    (id : RuleId)
    (rule : Rule)
    (closing : PatternSource) :
    ((c.bare keep).opened s text m id rule closing).bare keep =
      (c.opened s text m id rule closing).bare keep := by
  rw [bare_opened, bare_opened, entered_bare]

theorem opening_bare
    (id : RuleId)
    (rule : Rule)
    (captures : List (Option RuleId))
    (closing : PatternSource) :
    ((c.bare keep).opening s text m id rule captures closing).bare keep =
      (c.opening s text m id rule captures closing).bare keep := by
  have hopened : ((c.bare keep).opened s text m id rule closing).bare keep =
      (c.opened s text m id rule closing).bare keep :=
    opened_bare id rule closing
  have hsame : (c.state.bare keep).hasSameRuleAs ((c.bare keep).opened s text m id rule closing) =
      c.state.hasSameRuleAs (c.opened s text m id rule closing) := by
    rw [← State.hasSameRuleAs_bare keep, hopened, State.bare_bare, State.hasSameRuleAs_bare]
  have hpos : (c.bare keep).pos = c.pos := rfl
  unfold opening Handling.bare
  simp only [hpos, state_bare, hsame, entered_bare, hopened]
  split
  · simp only [Option.map_some, State.bare_pop, hopened]
  · rfl

theorem passing_bare
    (id : RuleId)
    (rule : Rule) :
    ((c.bare keep).passing s text m id rule).bare keep =
      (c.passing s text m id rule).bare keep := by
  have hpos : (c.bare keep).pos = c.pos := rfl
  unfold passing Handling.bare
  simp only [hpos, state_bare, entered_bare, State.bare_bare]
  split
  · simp only [Option.map_some, State.bare_pop, State.bare_bare]
    rfl
  · rfl

/-- What a match does with the stack does not depend on what is erased. -/
theorem handling_bare :
    ((c.bare keep).handling s text m).map (Handling.bare keep) =
      (c.handling s text m).map (Handling.bare keep) := by
  unfold handling
  cases m.label with
  | closing =>
      exact congrArg some (closing_bare s.grammar)
  | continuing =>
      rfl
  | rule id =>
      dsimp only
      cases s.grammar.rule? id with
      | none =>
          rfl
      | some rule =>
          dsimp only
          cases openingOf? rule with
          | none =>
              exact congrArg some (passing_bare id rule)
          | some opening =>
              exact congrArg some (opening_bare id rule opening.1 opening.2)

end Cursor

end LineScopes
