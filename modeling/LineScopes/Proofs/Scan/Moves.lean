import LineScopes.Proofs.Rule.Labels
import LineScopes.Proofs.Scan.Step

/-!
# How a step moves

Whether a scan can go round in circles depends on very little: on the place, and on the rules of
the open frames with the places where they were entered. A step that stays where it is leaves a
frame that was entered elsewhere, or it enters a rule that has not been entered here.

**Main definitions.** `State.marks`, `State.Rooted`, `fresh`, `Moves`.

**Main statements.** `step_moves`: what a step can do, if no injected rule is a region.
-/

namespace LineScopes

/-- The rule of a frame and the place where it was entered. -/
abbrev Mark := RuleId × Option Nat

namespace Frame

/-- The rule of a frame and the place where it was entered. -/
def mark (f : Frame) : Mark :=
  (f.rule, f.enter)

@[simp] theorem mark_withContentScopes
    (f : Frame)
    (scopes : ScopeList) :
    (f.withContentScopes scopes).mark = f.mark := by
  rfl

@[simp] theorem mark_withClosing
    (f : Frame)
    (text : String) :
    (f.withClosing text).mark = f.mark := by
  unfold withClosing
  split <;> rfl

@[simp] theorem mark_keepInside
    (g : Grammar)
    (f : Frame) :
    (g.keepInside f).mark = f.mark := by
  obtain ⟨patterns, heq⟩ := g.exists_keepInside_eq f
  rw [heq]
  rfl

end Frame

namespace State

/-- The marks of the frames, the top first. -/
def marks (s : State) : List Mark :=
  s.frames.map Frame.mark

/-- The bottom frame belongs to the root patterns. -/
def Rooted (s : State) : Prop :=
  s.marks.getLast?.map Prod.fst = some rootRule

theorem marks_eq_cons
    (s : State) :
    s.marks = s.top.mark :: s.below.map Frame.mark := by
  rfl

@[simp] theorem length_marks
    (s : State) :
    s.marks.length = s.depth := by
  simp [marks, frames, depth]

theorem marks_mapTop
    {s : State}
    {change : Frame → Frame}
    (h : ∀ f, (change f).mark = f.mark) :
    (s.mapTop change).marks = s.marks := by
  rw [marks_eq_cons, marks_eq_cons]
  exact congrArg (· :: _) (h s.top)

@[simp] theorem marks_delimited
    (s : State) :
    s.delimited.marks = s.marks :=
  marks_mapTop fun f => Frame.mark_withContentScopes f _

@[simp] theorem marks_kept
    (g : Grammar)
    (c : Cursor) :
    (c.kept g).state.marks = c.state.marks :=
  marks_mapTop (Frame.mark_keepInside g)

/-- The lowest frame cannot be removed. -/
theorem marks_pop
    (s : State) :
    s.marks = s.top.mark :: s.pop.marks ∨ s.below = [] ∧ s.pop = s := by
  obtain ⟨top, below⟩ := s
  cases below with
  | nil =>
      right
      exact ⟨rfl, rfl⟩
  | cons f rest =>
      left
      rfl

theorem depth_pop_le
    (s : State) :
    s.pop.depth ≤ s.depth := by
  rcases s.marks_pop with hmarks | ⟨-, hpop⟩
  · rw [← length_marks, ← length_marks, hmarks]
    exact Nat.le_succ _
  · exact Nat.le_of_eq (congrArg depth hpop)

namespace Rooted

variable {s : State}

theorem of_marks
    {t : State}
    (hs : s.Rooted)
    (h : t.marks = s.marks) :
    t.Rooted := by
  unfold Rooted at *
  rwa [h]

theorem cons
    {t : State}
    (hs : s.Rooted)
    {m : Mark}
    (h : t.marks = m :: s.marks) :
    t.Rooted := by
  unfold Rooted at *
  rw [h, marks_eq_cons, List.getLast?_cons_cons, ← marks_eq_cons]
  exact hs

theorem pop
    (hs : s.Rooted) :
    s.pop.Rooted := by
  rcases s.marks_pop with hmarks | ⟨-, hpop⟩
  · unfold Rooted at *
    rw [hmarks, marks_eq_cons s.pop, List.getLast?_cons_cons, ← marks_eq_cons] at hs
    exact hs
  · rwa [hpop]

/-- The only frame belongs to the root patterns. -/
theorem rule_top
    (hs : s.Rooted)
    (h : s.below = []) :
    s.top.rule = rootRule := by
  simpa [Rooted, marks_eq_cons, h, Frame.mark] using hs

end Rooted

end State

/-- The rules on top of the stack that were entered at a place. -/
def fresh
    (pos : Nat)
    (marks : List Mark) : List RuleId :=
  (marks.takeWhile fun m => m.2 == some pos).map Prod.fst

@[simp] theorem fresh_cons_self
    (pos : Nat)
    (id : RuleId)
    (marks : List Mark) :
    fresh pos ((id, some pos) :: marks) = id :: fresh pos marks := by
  simp [fresh]

theorem fresh_eq_nil_of_ne
    {pos : Nat}
    {m : Mark}
    {marks : List Mark}
    (h : m.2 ≠ some pos) :
    fresh pos (m :: marks) = [] := by
  simp [fresh, h]

theorem State.hasSameRuleAs_iff
    {s t : State}
    {id : RuleId}
    {pos : Nat}
    (h : t.top.mark = (id, some pos)) :
    s.hasSameRuleAs t = true ↔ id ∈ fresh pos s.marks := by
  obtain ⟨rfl, henter⟩ := Prod.mk.inj h
  simp [hasSameRuleAs, fresh, marks, List.takeWhile_map, Function.comp_def, henter, Frame.mark]

/-- What a step can do with the place of a scan and the marks of its frames. -/
inductive Moves
    (rules pos : Nat) : List Mark → Nat → List Mark → Prop
  /-- A frame that was entered elsewhere is left. -/
  | left {m : Mark} {marks : List Mark} (hold : m.2 ≠ some pos) :
    Moves rules pos (m :: marks) pos marks
  /-- A rule that has not been entered here is entered. -/
  | entered {id : RuleId} {marks : List Mark} (hid : id < rules) (hnew : id ∉ fresh pos marks) :
    Moves rules pos marks pos ((id, some pos) :: marks)
  /-- The scan goes on further behind. -/
  | advanced {pos' : Nat} {marks marks' : List Mark} (hpos : pos < pos')
    (hlength : marks'.length ≤ marks.length + 1) :
    Moves rules pos marks pos' marks'

section Step

variable {s : LineScanner} {rescan : Rescan} {text : String} {c d : Cursor} {m : PatternMatch}

@[simp] theorem Cursor.marks_entered
    (id : RuleId)
    (rule : Rule) :
    (c.entered s text m id rule).marks = (id, some c.pos) :: c.state.marks := by
  rfl

@[simp] theorem Cursor.marks_opened
    (id : RuleId)
    (rule : Rule)
    (closing : PatternSource) :
    (c.opened s text m id rule closing).marks = (id, some c.pos) :: c.state.marks := by
  unfold opened resolveClosing
  dsimp only
  split
  · rw [State.marks_mapTop fun f => Frame.mark_withClosing f _,
      State.marks_mapTop fun f => Frame.mark_withContentScopes f _, marks_entered]
  · rw [State.marks_mapTop fun f => Frame.mark_withContentScopes f _, marks_entered]

/-- The end of a region: the frame on top is left, unless it was entered here. -/
theorem Cursor.closing_moves
    (hc : c.state.Rooted)
    (hbelow : c.state.below ≠ [])
    {coverage : Coverage}
    (h : c.resume text m (c.closing s.grammar m) coverage = .onward d) :
    Moves s.grammar.rules.size c.pos c.state.marks d.pos d.state.marks ∧ d.state.Rooted := by
  have hclosed : c.state.delimited.Rooted := hc.of_marks (State.marks_delimited _)
  rcases resume_eq_onward h with ⟨hnone, hstate, hpos⟩ | ⟨hsome, hpos⟩
  · have hleft : d.state = c.state.delimited.pop := hstate
    rw [hleft]
    refine ⟨?_, hclosed.pop⟩
    rcases c.state.delimited.marks_pop with hmarks | ⟨hnil, -⟩
    · rw [State.marks_delimited] at hmarks
      rcases hpos with hpos | ⟨hstay, hpos⟩
      · refine .advanced hpos ?_
        rw [hmarks, List.length_cons]
        omega
      · rw [hpos, hmarks]
        refine .left fun henter => ?_
        have hhere : c.state.top.enter = some c.pos := henter
        simp [closing, hstay, hhere] at hnone
    · exact absurd hnil hbelow
  · have hstate : d.state = c.state.delimited := by
      simp only [closing] at hsome
      split at hsome
      · exact (Option.some.inj hsome).symm
      · cases hsome
    rw [hstate, State.marks_delimited]
    exact ⟨.advanced hpos (Nat.le_succ _), hclosed⟩

/-- A rule that stays open is entered, unless it has been entered here. -/
theorem Cursor.opening_moves
    (hc : c.state.Rooted)
    {id : RuleId}
    {rule : Rule}
    (hrule : s.grammar.rule? id = some rule)
    {captures : List (Option RuleId)}
    {closing : PatternSource}
    {coverage : Coverage}
    (h : c.resume text m (c.opening s text m id rule captures closing) coverage = .onward d) :
    Moves s.grammar.rules.size c.pos c.state.marks d.pos d.state.marks ∧ d.state.Rooted := by
  have hid : id < s.grammar.rules.size := (Array.getElem?_eq_some_iff.mp hrule).1
  have hmarks : (c.opened s text m id rule closing).marks = (id, some c.pos) :: c.state.marks :=
    marks_opened id rule closing
  have hopened : (c.opened s text m id rule closing).Rooted := hc.cons hmarks
  rcases resume_eq_onward h with ⟨hnone, hstate, hpos⟩ | ⟨hsome, hpos⟩
  · have hentered : d.state = c.opened s text m id rule closing := hstate
    rw [hentered]
    refine ⟨?_, hopened⟩
    rw [hmarks]
    rcases hpos with hpos | ⟨hstay, hpos⟩
    · exact .advanced hpos (by simp)
    · rw [hpos]
      refine .entered hid fun hfresh => ?_
      have htop : (c.opened s text m id rule closing).top.mark = (id, some c.pos) := by
        rw [State.marks_eq_cons] at hmarks
        exact (List.cons.inj hmarks).1
      have hsame := (State.hasSameRuleAs_iff htop).mpr hfresh
      simp [opening, hstay, hsame] at hnone
  · have hstate : d.state = (c.opened s text m id rule closing).pop := by
      simp only [opening] at hsome
      split at hsome
      · exact (Option.some.inj hsome).symm
      · cases hsome
    rw [hstate]
    refine ⟨.advanced hpos ?_, hopened.pop⟩
    have hle := State.depth_pop_le (c.opened s text m id rule closing)
    rw [← State.length_marks, ← State.length_marks, hmarks] at hle
    exact hle

/-- A rule that is left at once either advances or makes the scan skip a character. -/
theorem Cursor.passing_moves
    (hc : c.state.Rooted)
    {id : RuleId}
    {rule : Rule}
    {coverage : Coverage}
    (h : c.resume text m (c.passing s text m id rule) coverage = .onward d) :
    Moves s.grammar.rules.size c.pos c.state.marks d.pos d.state.marks ∧ d.state.Rooted := by
  rcases resume_eq_onward h with ⟨hnone, hstate, hpos⟩ | ⟨hsome, hpos⟩
  · have hsame : d.state = c.state := hstate
    rw [hsame]
    rcases hpos with hpos | ⟨hstay, -⟩
    · exact ⟨.advanced hpos (Nat.le_succ _), hc⟩
    · simp [passing, hstay] at hnone
  · have hstate : d.state = c.state.pop := by
      simp only [passing] at hsome
      split at hsome
      · exact (Option.some.inj hsome).symm
      · cases hsome
    rw [hstate]
    refine ⟨.advanced hpos ?_, hc.pop⟩
    have hle := State.depth_pop_le c.state
    rw [← State.length_marks, ← State.length_marks] at hle
    exact Nat.le_succ_of_le hle

/-- If no injected rule is a region, a step that stays where it is leaves an older frame or enters
a new rule. -/
theorem step_moves
    (hroot : s.grammar.isRegion rootRule = false)
    (hinjections : ∀ i ∈ s.grammar.injections, s.grammar.isRegion i.rule = false)
    (hc : c.state.Rooted)
    (h : (step s rescan text c).outcome = .ok (.onward d)) :
    Moves s.grammar.rules.size c.pos c.state.marks d.pos d.state.marks ∧ d.state.Rooted := by
  have hmarks := State.marks_kept s.grammar c
  have hkept : (c.kept s.grammar).state.Rooted := hc.of_marks hmarks
  rw [← hmarks]
  rcases step_eq_ok h with hfinished | ⟨m, k, coverage, hnext, hk, -, hresume⟩
  · cases hfinished
  · rcases Cursor.handling_eq_some hk with ⟨hlabel, rfl⟩ | ⟨id, rule, -, hrule, hentered⟩
    · refine Cursor.closing_moves hkept ?_ hresume.symm
      intro hbelow
      have htop := hkept.rule_top hbelow
      rcases Grammar.isRegion_of_closing hnext hlabel with hregion | ⟨i, hi, hregion⟩
      · rw [htop, hroot] at hregion
        cases hregion
      · rw [hinjections i hi] at hregion
        cases hregion
    · rcases hentered with ⟨captures, closing, rfl⟩ | rfl
      · exact Cursor.opening_moves hkept hrule hresume.symm
      · exact Cursor.passing_moves hkept hresume.symm

end Step

end LineScopes
