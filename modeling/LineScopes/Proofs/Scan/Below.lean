import LineScopes.Proofs.Scan.Erasure
import LineScopes.Proofs.Scan.Nesting

/-!
# What lies under a frame

The rules that last line by line are asked with their frames on top of what lies under them. These
parts of a stack are its bottom parts. The rules in what is left without such a frame are those that
are asked before it.

**Main statements.** `linesFrames_pop`: the rules under a frame. `State.suffix_pop`: what lies under
a frame is the longest bottom part without it.
-/

namespace LineScopes

namespace State

variable {s t u : State}

/-- The states below a state are bottom parts of its stack. -/
theorem suffix_of_mem_suffixes
    (h : t ∈ s.suffixes) :
    t.frames <:+ s.frames := by
  obtain ⟨top, below⟩ := s
  induction below generalizing top with
  | nil =>
      obtain rfl : t = ⟨top, []⟩ := by simpa [suffixes, suffixes.go] using h
      exact List.suffix_rfl
  | cons b rest ih =>
      rcases List.mem_cons.mp h with rfl | h
      · exact List.suffix_rfl
      · exact (ih b h).trans (List.suffix_cons top (b :: rest))

/-- All bottom parts of a stack have its lowest frame. -/
theorem bottom_of_suffix
    (h : t.frames <:+ s.frames) :
    t.bottom = s.bottom := by
  obtain ⟨above, heq⟩ := h
  simp only [bottom, ← heq]
  exact (List.getLast_append_of_ne_nil _ (List.cons_ne_nil _ _)).symm

theorem frames_eq_cons_pop
    (h : t.below ≠ []) :
    t.frames = t.top :: t.pop.frames := by
  obtain ⟨top, below⟩ := t
  cases below with
  | nil => exact absurd rfl h
  | cons b rest => rfl

/-- A bottom part without a frame and what lies under it lies under that frame. -/
theorem suffix_pop
    (ht : t.frames <:+ s.frames)
    (hbelow : t.below ≠ [])
    (hu : u.frames <:+ s.frames)
    (hnot : ¬ t.frames <:+ u.frames) :
    u.frames <:+ t.pop.frames := by
  have hut : u.frames <:+ t.frames := (List.suffix_or_suffix_of_suffix ht hu).resolve_left hnot
  rw [frames_eq_cons_pop hbelow] at hut
  rcases List.suffix_cons_iff.mp hut with heq | hsuffix
  · have hsame : t.frames = u.frames := (frames_eq_cons_pop hbelow).trans heq.symm
    exact absurd (hsame ▸ List.suffix_rfl) hnot
  · exact hsuffix

theorem not_suffix_pop
    (hbelow : t.below ≠ []) :
    ¬ t.frames <:+ t.pop.frames := by
  intro h
  have hle := h.length_le
  rw [frames_eq_cons_pop hbelow, List.length_cons] at hle
  omega

end State

section Lines

variable {g : Grammar} {s t : State} {r : WhileRule}

/-- The frame on top is asked behind those under it. -/
theorem linesFrames_cons
    (g : Grammar)
    (f b : Frame)
    (rest : List Frame) :
    linesFrames g ⟨f, b :: rest⟩ =
      linesFrames g ⟨b, rest⟩ ++ ((g.linesRule? f.rule).map (·, ⟨f, b :: rest⟩)).toList := by
  have hsuffixes : State.suffixes ⟨f, b :: rest⟩ = ⟨f, b :: rest⟩ :: State.suffixes ⟨b, rest⟩ := rfl
  unfold linesFrames
  rw [hsuffixes, List.filterMap_cons]
  cases g.linesRule? f.rule with
  | none => simp
  | some r => simp

theorem linesRule?_of_mem_linesFrames
    (h : (r, t) ∈ linesFrames g s) :
    g.linesRule? t.top.rule = some r := by
  simp only [linesFrames, List.mem_reverse, List.mem_filterMap, Option.map_eq_some_iff] at h
  obtain ⟨u, -, r', hrule, hpair⟩ := h
  obtain ⟨rfl, rfl⟩ := Prod.mk.inj hpair
  exact hrule

/-- A frame of a rule that lasts line by line is not the lowest one, if that belongs to another
rule. -/
theorem below_ne_nil_of_mem_linesFrames
    (hbottom : g.linesRule? s.bottom.rule = none)
    (h : (r, t) ∈ linesFrames g s) :
    t.below ≠ [] := by
  intro hnil
  have hlowest : t.bottom = t.top := by
    simp [State.bottom, State.frames, hnil]
  have hsuffix := State.suffix_of_mem_suffixes (mem_suffixes_of_linesFrames h)
  rw [← State.bottom_of_suffix hsuffix, hlowest, linesRule?_of_mem_linesFrames h] at hbottom
  cases hbottom

/-- The rules under a frame are those that are asked before it. -/
theorem linesFrames_pop
    {before above : List (WhileRule × State)}
    (h : linesFrames g s = before ++ (r, t) :: above)
    (hbelow : t.below ≠ []) :
    linesFrames g t.pop = before := by
  obtain ⟨top, below⟩ := s
  induction below generalizing top above with
  | nil =>
      have hmem : (r, t) ∈ linesFrames g ⟨top, []⟩ := by simp [h]
      obtain rfl : t = ⟨top, []⟩ := by
        simpa [State.suffixes, State.suffixes.go] using mem_suffixes_of_linesFrames hmem
      exact absurd rfl hbelow
  | cons b rest ih =>
      rw [linesFrames_cons] at h
      cases hrule : g.linesRule? top.rule with
      | none =>
          rw [hrule] at h
          exact ih b (by simpa using h)
      | some r' =>
          rw [hrule] at h
          -- the frame on top is the last one that is asked
          rcases List.eq_nil_or_concat above with rfl | ⟨above, last, rfl⟩
          · obtain ⟨hbefore, hlast⟩ := List.append_inj' h rfl
            obtain ⟨rfl, rfl⟩ := Prod.mk.inj (List.singleton_inj.mp hlast)
            exact hbefore
          · rw [List.concat_eq_append, ← List.cons_append, ← List.append_assoc] at h
            exact ih b (List.append_inj' h rfl).1

/-- Keeping patterns does not change the rule of the lowest frame. -/
theorem rule_bottom_keepContinuations
    (g : Grammar)
    (s : State) :
    (keepContinuations g s).bottom.rule = s.bottom.rule := by
  have hbare : ∀ u : State, (u.bare true).bottom = u.bottom.bare true := by
    intro u
    simp only [State.bottom, State.frames_bare, List.getLast_map]
  have hsame := congrArg State.bottom (State.bare_keepContinuations true g s)
  rw [hbare, hbare] at hsame
  have hrule : ((keepContinuations g s).bottom.bare true).rule = (s.bottom.bare true).rule :=
    congrArg Frame.rule hsame
  exact hrule

end Lines

end LineScopes
