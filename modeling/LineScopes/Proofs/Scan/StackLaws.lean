import LineScopes.Scan.State

/-!
# Laws of states

The comparison of states asks whether two states look the same: the same rules are open, with the
same end patterns, and text gets the same scopes. Places on the line are not looked at, so nothing
changes if they are forgotten. The check for a rule that is entered again looks at the frames on top
that were entered at one place, and at none under them.

**Main definitions.** `State.look`, `State.EnteredBefore`.

**Main statements.** `equals_iff`: equal states look the same. `look_reset`: forgetting places
changes no look. `hasSameRuleAs_iff_enteredBefore`: what the check for a rule finds.
-/

namespace LineScopes
namespace State

variable {s t u : State}

/-- What the comparison of states looks at. -/
def look (s : State) : List (RuleId × Option String) × ScopeList :=
  (s.frames.map fun f => (f.rule, f.closing), s.top.contentScopes)

@[simp] theorem look_reset
    (s : State) :
    s.reset.look = s.look := by
  simp [look, reset, frames, Frame.reset, Function.comp_def]

theorem sameRules_iff
    {fs gs : List Frame} :
    sameRules fs gs = true ↔
      fs.map (fun f => (f.rule, f.closing)) = gs.map fun f => (f.rule, f.closing) := by
  induction fs generalizing gs with
  | nil =>
      cases gs <;> simp [sameRules]
  | cons f fs ih =>
      cases gs with
      | nil =>
          simp [sameRules]
      | cons g gs =>
          simp [sameRules, Frame.sameRule, ih]

theorem equals_iff :
    s.equals t = true ↔ s.look = t.look := by
  rw [equals, Bool.and_eq_true, sameRules_iff, beq_iff_eq, look, look, Prod.mk.injEq]

theorem equals_refl
    (s : State) :
    s.equals s = true :=
  equals_iff.mpr rfl

theorem equals_comm
    (s t : State) :
    s.equals t = t.equals s := by
  rw [Bool.eq_iff_iff, equals_iff, equals_iff, eq_comm]

theorem equals_trans
    (h : s.equals t = true)
    (h' : t.equals u = true) :
    s.equals u = true :=
  equals_iff.mpr ((equals_iff.mp h).trans (equals_iff.mp h'))

@[simp] theorem equals_reset_left
    (s t : State) :
    s.reset.equals t = s.equals t := by
  rw [Bool.eq_iff_iff, equals_iff, equals_iff, look_reset]

@[simp] theorem equals_reset_right
    (s t : State) :
    s.equals t.reset = s.equals t := by
  rw [equals_comm, equals_reset_left, equals_comm]

/-- Frames on top of `s` were entered where the top of `t` was, the frame under them was not, and
one of them has the rule of the top of `t`. -/
def EnteredBefore (s t : State) : Prop :=
  ∃ run rest, s.frames = run ++ rest ∧
    (∀ f ∈ run, f.enter = t.top.enter) ∧
    (∀ f ∈ rest.head?, f.enter ≠ t.top.enter) ∧
    ∃ f ∈ run, f.rule = t.top.rule

theorem hasSameRuleAs_iff_enteredBefore :
    s.hasSameRuleAs t = true ↔ s.EnteredBefore t := by
  rw [hasSameRuleAs, List.any_eq_true]
  constructor
  · rintro ⟨f, hf, hrule⟩
    refine ⟨_, _, List.takeWhile_append_dropWhile.symm, fun f hf => ?_, fun f hf => ?_,
      f, hf, beq_iff_eq.mp hrule⟩
    · exact beq_iff_eq.mp (List.all_eq_true.mp List.all_takeWhile f hf)
    · have hnot := List.head?_dropWhile_not (fun f : Frame => f.enter == t.top.enter) s.frames
      rw [Option.mem_def.mp hf] at hnot
      exact beq_eq_false_iff_ne.mp hnot
  · rintro ⟨run, rest, hframes, hrun, hrest, f, hf, hrule⟩
    have hstop : rest.takeWhile (fun f => f.enter == t.top.enter) = [] := by
      cases rest with
      | nil =>
          rfl
      | cons g rest =>
          simp [hrest g rfl]
    have htake : s.frames.takeWhile (fun f => f.enter == t.top.enter) = run := by
      rw [hframes, List.takeWhile_append_of_pos (fun f hf => beq_iff_eq.mpr (hrun f hf)), hstop,
        List.append_nil]
    rw [htake]
    exact ⟨f, hf, beq_iff_eq.mpr hrule⟩

end State
end LineScopes
