import LineScopes.Proofs.Engine.Literal
import LineScopes.Proofs.Scan.Closing
import LineScopes.Proofs.Scan.Course
import LineScopes.Proofs.Selector.Printed

/-!
# Where anchors match

`\A` matches at the start of a document, and `\G` where the match ended that opened the rule on top.
The place of `\G` is one variable of the scan: it is set by matches, restored when a frame is left,
and some steps leave a stale one behind. This module says when the anchors match in terms of what
has happened on the line.

An end that is found on the lowest frame closes nothing. But the place of `\G` that is kept in that
frame is restored, which is none, so that `\G` does not match any more where the line goes on.

**Order.** A place of `\G` that is kept in a frame lies in front of the place where the frame was
entered or there, and all frames above one that a match opened were entered behind that match or
there. So a stale place of `\G` is always in front of the scan.

**Main definitions.** `OpenedOnTop`, `Undisturbed`, `EndsOnLowest`, `GoesOnAt`, `Settled`.

**Main statements.** `Settled.step`: a step keeps the order of the places. `Settled.anchor_iff`:
where `\G` matches after a step. `anchors_of_comesTo`: where the anchors match.
`anchors_of_endsOnLowest`: what an end on the lowest frame does to them.
-/

namespace LineScopes

/-- The frames that were open when `v` was found stay under another one: every later scan, and the
one at `c`, has more frames. -/
def Finding.StaysUnder
    (v : Finding)
    (later : List Finding)
    (c : Cursor) : Prop :=
  v.cursor.state.depth < c.state.depth ∧
    ∀ w ∈ later, v.cursor.state.depth < w.cursor.state.depth

/-- The frame on top was opened on this line by a match that ended at `last`. -/
def OpenedOnTop
    (g : Grammar)
    (findings : List Finding)
    (c : Cursor)
    (last : Nat) : Prop :=
  ∃ later v earlier, findings = later ++ v :: earlier ∧
    g.Opens v.found ∧ v.found.last = last ∧
    v.StaysUnder later c ∧ c.state.depth = v.cursor.state.depth + 1

/-- No frame was opened or closed until `c`. No match opened one, and an end was found on the lowest
one at most, which is never closed. A frame may also be given up for a match that matched nothing,
but there are still as many frames as at every place before. -/
def Undisturbed
    (g : Grammar)
    (findings : List Finding)
    (c : Cursor) : Prop :=
  ∀ v ∈ findings, ¬ g.Opens v.found ∧ (v.found.label = .closing → v.cursor.state.below = []) ∧
    v.cursor.state.depth = c.state.depth

/-- An end is among the findings that was found on the lowest frame. -/
def EndsOnLowest (findings : List Finding) : Prop :=
  ∃ v ∈ findings, v.found.label = .closing ∧ v.cursor.state.below = []

/-- The order of the places of a scan of a line that began at `origin`. -/
structure Settled
    (firstLine : Bool)
    (origin : Nat)
    (findings : List Finding)
    (c : Cursor) : Prop where
  firstLine : c.firstLine = (firstLine && c.pos == 0)
  origin : origin ≤ c.pos
  anchor : ∀ a, c.anchor = some a → a ≤ c.pos
  spots : ∀ x ∈ c.state.spots, x.Behind c.pos
  lasts : ∀ v ∈ findings, v.found.last ≤ c.pos
  /-- The frames above one that a match opened were entered behind this match. -/
  above : ∀ later v earlier, findings = later ++ v :: earlier → v.StaysUnder later c →
    ∀ x ∈ c.state.spots.take (c.state.depth - (v.cursor.state.depth + 1)),
      ∃ p, x.enter = some p ∧ v.found.last ≤ p

namespace Settled

variable {firstLine : Bool} {origin : Nat} {findings : List Finding} {c d : Cursor}
variable {g : Grammar} {m : PatternMatch}

/-- The place of `\G` that is kept in the frame on top lies in front of the scan or there. -/
theorem anchor_top
    (h : Settled firstLine origin findings c)
    {a : Nat}
    (ha : c.state.top.anchor = some a) :
    ∃ p, c.state.top.enter = some p ∧ a ≤ p ∧ p ≤ c.pos := by
  have hbehind := h.spots c.state.top.spot (by rw [State.spots_eq_cons]; exact List.mem_cons_self)
  obtain ⟨p, hp, hle⟩ := hbehind.anchor a ha
  exact ⟨p, hp, hle, hbehind.enter p hp⟩

theorem anchor_top_le
    (h : Settled firstLine origin findings c)
    {a : Nat}
    (ha : c.state.top.anchor = some a) :
    a ≤ c.pos := by
  obtain ⟨p, -, hap, hpc⟩ := h.anchor_top ha
  exact Nat.le_trans hap hpc

/-- A step keeps the order. -/
theorem step
    (h : Settled firstLine origin findings c)
    (hshift : Shifts g c m d)
    (hfirst : d.firstLine = (c.firstLine && d.pos == c.pos)) :
    Settled firstLine origin (⟨c, m⟩ :: findings) d where
  firstLine := by
    rw [hfirst, h.firstLine, Bool.and_assoc, beq_and_beq (Nat.zero_le _) hshift.pos_le]
  origin := Nat.le_trans h.origin hshift.pos_le
  anchor := by
    intro a ha
    have hpos := hshift.pos_le
    have hlast := hshift.last_le
    cases hshift with
    | opened hm _ hanchor hspots =>
        obtain rfl : m.last = a := by simpa [ha] using hanchor.symm
        exact hlast
    | reopened hm hstay _ hspots hanchor =>
        obtain rfl : m.last = a := by simpa [ha] using hanchor.symm
        exact hlast
    | closed hm _ hentered hanchor hspots =>
        exact Nat.le_trans (h.anchor_top_le (hanchor.symm.trans ha)) hpos
    | kept hm hstay _ hspots hanchor =>
        exact Nat.le_trans (h.anchor_top_le (hanchor.symm.trans ha)) hpos
    | passed hm hlabel _ _ hanchor hspots =>
        exact Nat.le_trans (h.anchor a (hanchor.symm.trans ha)) hpos
  spots := by
    intro x hx
    have hold : x ∈ c.state.spots → x.Behind d.pos := fun hmem =>
      (h.spots x hmem).mono hshift.pos_le
    rcases hshift.spots_cases with ⟨-, hspots⟩ | hspots | hspots
    · rw [hspots] at hx
      rcases List.mem_cons.mp hx with rfl | hx
      · refine ⟨?_, fun a ha => ⟨c.pos, rfl, h.anchor a ha⟩⟩
        rintro p ⟨⟩
        exact hshift.pos_le
      · exact hold hx
    · exact hold (hspots ▸ hx)
    · exact hold (hspots.subset hx)
  lasts := by
    intro v hv
    rcases List.mem_cons.mp hv with rfl | hv
    · exact hshift.last_le
    · exact Nat.le_trans (h.lasts v hv) hshift.pos_le
  above := by
    intro later v earlier hfindings hunder x hx
    obtain ⟨hdeep, hlater⟩ := hunder
    rcases List.cons_eq_append_iff.mp hfindings with ⟨rfl, hnew⟩ | ⟨later, rfl, hold⟩
    · -- nothing is above a frame that has just been opened
      obtain ⟨rfl, -⟩ := List.cons.inj hnew
      have hdepth := hshift.depth_le
      rw [Nat.sub_eq_zero_of_le hdepth] at hx
      cases hx
    · have hw : v.cursor.state.depth < c.state.depth := hlater _ List.mem_cons_self
      have hunder : v.StaysUnder later c :=
        ⟨hw, fun w hmem => hlater w (List.mem_cons_of_mem _ hmem)⟩
      rcases hshift.mem_take hw hdeep hx with rfl | hx
      · refine ⟨c.pos, rfl, h.lasts v ?_⟩
        rw [hold]
        simp
      · exact h.above later v earlier hold hunder x hx

/-- If the scan goes on behind all matches, the frame on top was not opened at its place. -/
theorem not_openedOnTop
    (h : Settled firstLine origin findings c)
    (hpos : c.pos < d.pos)
    (hm : g.Opens m → m.last < d.pos) :
    ¬ OpenedOnTop g (⟨c, m⟩ :: findings) d d.pos := by
  rintro ⟨later, v, earlier, hfindings, hopens, hlast, -, -⟩
  have hmem : v ∈ (⟨c, m⟩ :: findings : List Finding) := by
    rw [hfindings]
    simp
  rcases List.mem_cons.mp hmem with rfl | hmem
  · exact Nat.ne_of_lt (hm hopens) hlast
  · have hle := h.lasts v hmem
    omega

/-- Behind the end of a frame that was not entered there, the frame on top was not opened at the
place of the scan. -/
theorem not_openedOnTop_of_closed
    (h : Settled firstLine origin findings c)
    (hm : m.label = .closing)
    (hpos : d.pos = max c.pos m.last)
    (hentered : m.last ≤ c.pos → c.state.top.enter ≠ some c.pos)
    (hspots : Uncovers c.state.spots d.state.spots) :
    ¬ OpenedOnTop g (⟨c, m⟩ :: findings) d d.pos := by
  rintro ⟨later, v, earlier, hfindings, hopens, hlast, ⟨-, hlater⟩, hdepth⟩
  rcases List.cons_eq_append_iff.mp hfindings with ⟨rfl, hnew⟩ | ⟨later, rfl, hold⟩
  · obtain ⟨rfl, -⟩ := List.cons.inj hnew
    exact hopens.not_closing hm
  · have hdeep : v.cursor.state.depth < c.state.depth := hlater _ List.mem_cons_self
    have hunder : v.StaysUnder later c :=
      ⟨hdeep, fun w hmem => hlater w (List.mem_cons_of_mem _ hmem)⟩
    have hle := h.lasts v (by rw [hold]; simp)
    -- the frame that is left was right above the one that `v` opened
    have hone : c.state.depth - (v.cursor.state.depth + 1) = 1 := by
      have hlength := hspots.length
      rw [State.length_spots, State.length_spots] at hlength
      have hv : 0 < v.cursor.state.depth := Nat.succ_pos _
      omega
    have habove := h.above later v earlier hold hunder
    rw [hone] at habove
    obtain ⟨p, hp, hvp⟩ := habove c.state.top.spot (by simp [State.spots_eq_cons])
    have hpc := (h.spots c.state.top.spot (by simp [State.spots_eq_cons])).enter p hp
    obtain rfl : p = c.pos := by omega
    exact hentered (by omega) hp

/-- After a step, `\G` matches at the place of the scan if the frame on top was opened there. -/
theorem anchor_iff
    (h : Settled firstLine origin findings c)
    (hshift : Shifts g c m d)
    (hm : c.pos ≤ m.last) :
    d.anchor = some d.pos ↔ OpenedOnTop g (⟨c, m⟩ :: findings) d d.pos := by
  have hneither : d.anchor ≠ some d.pos → ¬ OpenedOnTop g (⟨c, m⟩ :: findings) d d.pos →
      (d.anchor = some d.pos ↔ OpenedOnTop g (⟨c, m⟩ :: findings) d d.pos) :=
    fun hanchor hopened => ⟨fun h => absurd h hanchor, fun h => absurd h hopened⟩
  cases hshift with
  | opened hopens hpos hanchor hspots =>
      have hlast : d.pos = m.last := hpos.trans (Nat.max_eq_right hm)
      have hdepth : d.state.depth = c.state.depth + 1 := by
        rw [← State.length_spots, ← State.length_spots, hspots, List.length_cons]
      refine ⟨fun _ => ?_, fun _ => by rw [hanchor, hlast]⟩
      have hunder : Finding.StaysUnder ⟨c, m⟩ [] d :=
        ⟨Nat.lt_of_lt_of_eq (Nat.lt_succ_self _) hdepth.symm, List.forall_mem_nil _⟩
      exact ⟨[], ⟨c, m⟩, findings, List.nil_append _, hopens, hlast.symm, hunder, hdepth⟩
  | reopened hopens hstay hpos hspots hanchor =>
      refine hneither ?_ (h.not_openedOnTop hpos fun _ => Nat.lt_of_le_of_lt hstay hpos)
      rw [hanchor, Ne, Option.some.injEq]
      omega
  | closed hlabel hpos hentered hanchor hspots =>
      refine hneither ?_ (h.not_openedOnTop_of_closed hlabel hpos hentered hspots)
      intro hhere
      obtain ⟨p, hp, hap, hpc⟩ := h.anchor_top (hanchor.symm.trans hhere)
      obtain rfl : p = c.pos := by omega
      exact hentered (by omega) hp
  | kept hlabel hstay hpos hspots hanchor =>
      refine hneither ?_ (h.not_openedOnTop hpos fun hopens => absurd hlabel hopens.not_closing)
      intro hhere
      have hle := h.anchor_top_le (hanchor.symm.trans hhere)
      omega
  | passed hopens hlabel hlast hpos hanchor hspots =>
      refine hneither ?_ (h.not_openedOnTop hpos fun hopens' => absurd hopens' hopens)
      intro hhere
      have hle := h.anchor _ (hanchor.symm.trans hhere)
      omega

/-- A step opens or closes a frame, or it finds an end on the lowest one, or it goes on behind the
place where the scan began. -/
theorem disturbed_or_lt
    (h : Settled firstLine origin findings c)
    (hshift : Shifts g c m d) :
    ¬ Undisturbed g (⟨c, m⟩ :: findings) d ∨ EndsOnLowest (⟨c, m⟩ :: findings) ∨
      origin < d.pos := by
  have horigin := h.origin
  cases hshift with
  | opened hopens hpos hanchor hspots =>
      exact .inl fun hnone => (hnone _ List.mem_cons_self).1 hopens
  | reopened hopens hstay hpos hspots hanchor =>
      exact .inr (.inr (by omega))
  | closed hlabel hpos hentered hanchor hspots =>
      by_cases hlowest : c.state.below = []
      · exact .inr (.inl ⟨_, List.mem_cons_self, hlabel, hlowest⟩)
      · exact .inl fun hnone => hlowest ((hnone _ List.mem_cons_self).2.1 hlabel)
  | kept hlabel hstay hpos hspots hanchor =>
      exact .inr (.inr (by omega))
  | passed hopens hlabel hlast hpos hanchor hspots =>
      exact .inr (.inr (by omega))

end Settled

section Start

variable {s : LineScanner} {rescan : Rescan} {text : String}

/-- The frame belongs to an earlier line, or it is the lowest one. -/
def Frame.Earlier (f : Frame) : Prop :=
  f.spot = ⟨none, none⟩

theorem startState_earlier
    (s : LineScanner)
    (previous : State) :
    (keepContinuations s.grammar (startState s previous)).All Frame.Earlier := by
  have hstart : (startState s previous).All Frame.Earlier := by
    unfold startState
    split
    · intro f hf
      obtain rfl := List.mem_singleton.mp hf
      rfl
    · intro f hf
      obtain ⟨f, -, rfl⟩ : ∃ h ∈ previous.frames, h.reset = f := by
        simpa [State.frames, State.reset, eq_comm] using hf
      rfl
  have hkeep : ∀ f, f.Earlier →
      (if (s.grammar.linesRule? f.rule).isSome then s.grammar.keepOnward f else f).Earlier := by
    intro f hf
    split
    · obtain ⟨patterns, heq⟩ := s.grammar.exists_keepOnward_eq f
      rw [heq]
      exact hf
    · exact hf
  intro f hf
  rcases List.mem_cons.mp hf with rfl | hf
  · exact hkeep _ hstart.top
  · obtain ⟨f, hbelow, rfl⟩ := List.mem_map.mp hf
    exact hkeep f (hstart f (List.mem_cons_of_mem _ hbelow))

/-- The place at which a line goes on: where the last continuation ended, or at its start, if the
match that opened the rule on top included the end of its line. -/
def GoesOnAt
    (previous : State)
    (ms : List PatternMatch)
    (pos : Nat) : Prop :=
  match ms.getLast? with
  | some w => pos = w.last
  | none => pos = 0 ∧ previous.top.reachesEnd = true

theorem reachesEnd_startState
    {previous : State}
    (hprevious : Incoming previous) :
    (keepContinuations s.grammar (startState s previous)).top.reachesEnd =
      previous.top.reachesEnd := by
  have hstart : (startState s previous).top.reachesEnd = previous.top.reachesEnd := by
    unfold startState
    split
    · rename_i hinitial
      obtain rfl := hprevious.isInitial_iff.mp hinitial
      rfl
    · rfl
  unfold keepContinuations
  dsimp only
  split
  · obtain ⟨patterns, heq⟩ := s.grammar.exists_keepOnward_eq (startState s previous).top
    rw [heq]
    exact hstart
  · exact hstart

section Line

variable {line : String} {previous : State} {ms : List PatternMatch} {start : Cursor}

theorem StartsLine.continued
    (he : s.grammar.engine.Lawful)
    (hprevious : Incoming previous)
    (h : StartsLine s rescan line previous ms start) :
    Continued (line ++ "\n")
      (.atStart s.grammar previous.isInitial (startState s previous) .empty) ms start := by
  have hstate := startState_all (lasting_lawful he) fun _ => hprevious.lawful
  have hkept := keepContinuations_all (lasting_lawful he) hstate
  exact Continues.continued he (fun _ _ hmem => linesFrames_all hkept hmem)
    (Text.isBoundary_zero _) h

theorem StartsLine.sound
    (he : s.grammar.engine.Lawful)
    (hprevious : Incoming previous)
    (h : StartsLine s rescan line previous ms start) :
    start.Sound (line ++ "\n") := by
  have hstate := startState_all (lasting_lawful he) fun _ => hprevious.lawful
  have hstart := exists_startsLine_iff.mpr ⟨ms, h⟩
  exact ⟨(h.continued he hprevious).boundary, startLine_all (lasting_lawful he) hstate hstart⟩

/-- At the start of the scan nothing has been opened on the line. -/
theorem StartsLine.settled
    (he : s.grammar.engine.Lawful)
    (hprevious : Incoming previous)
    (h : StartsLine s rescan line previous ms start) :
    Settled previous.isInitial start.pos [] start := by
  have hcontinued := h.continued he hprevious
  have hearlier : start.state.All Frame.Earlier :=
    continueRules_all (fun _ _ hmem => linesFrames_all (startState_earlier s previous) hmem)
      (startState_earlier s previous) (continueRules_eq_ok_iff.mpr ⟨ms, h⟩)
  refine ⟨hcontinued.firstLine, Nat.le_refl _, ?_, ?_, List.forall_mem_nil _, ?_⟩
  · intro a ha
    cases hlast : ms.getLast? with
    | none =>
        obtain ⟨-, hanchor⟩ := hcontinued.none (List.getLast?_eq_none_iff.mp hlast)
        rw [hanchor] at ha
        simp only [Cursor.atStart] at ha
        split at ha
        · obtain rfl : 0 = a := Option.some.inj ha
          exact Nat.zero_le _
        · cases ha
    | some w =>
        obtain ⟨hpos, hanchor⟩ := hcontinued.last w hlast
        obtain rfl : w.last = a := by simpa [ha] using hanchor.symm
        exact Nat.le_of_eq hpos.symm
  · intro x hx
    obtain ⟨f, hf, rfl⟩ := List.mem_map.mp hx
    rw [hearlier f hf]
    exact ⟨nofun, nofun⟩
  · intro later v earlier hfindings
    simp at hfindings

/-- At the start of the scan, `\G` matches where the line goes on. -/
theorem StartsLine.anchor_iff
    (he : s.grammar.engine.Lawful)
    (hprevious : Incoming previous)
    (h : StartsLine s rescan line previous ms start) :
    start.anchor = some start.pos ↔ GoesOnAt previous ms start.pos := by
  have hcontinued := h.continued he hprevious
  unfold GoesOnAt
  cases hlast : ms.getLast? with
  | none =>
      obtain ⟨hpos, hanchor⟩ := hcontinued.none (List.getLast?_eq_none_iff.mp hlast)
      have hzero : start.pos = 0 := hpos
      rw [hanchor, hzero]
      simp [Cursor.atStart, reachesEnd_startState hprevious]
  | some w =>
      obtain ⟨hpos, hanchor⟩ := hcontinued.last w hlast
      simp [hanchor, hpos]

/-- A line goes on nowhere else than where its scan begins. -/
theorem StartsLine.pos_eq
    (he : s.grammar.engine.Lawful)
    (hprevious : Incoming previous)
    (h : StartsLine s rescan line previous ms start)
    {pos : Nat}
    (hpos : GoesOnAt previous ms pos) :
    pos = start.pos := by
  have hcontinued := h.continued he hprevious
  unfold GoesOnAt at hpos
  cases hlast : ms.getLast? with
  | none =>
      simp only [hlast] at hpos
      exact hpos.1.trans (hcontinued.none (List.getLast?_eq_none_iff.mp hlast)).1.symm
  | some w =>
      simp only [hlast] at hpos
      exact hpos.trans (hcontinued.last w hlast).1.symm

/-- The places of the whole scan of a line are in order. -/
theorem comesTo_settled
    (he : s.grammar.engine.Lawful)
    (hprevious : Incoming previous)
    (hstart : StartsLine s rescan line previous ms start)
    {findings : List Finding}
    {c : Cursor}
    (hc : ComesTo s rescan (line ++ "\n") start findings c) :
    Settled previous.isInitial start.pos findings c := by
  induction hc with
  | start =>
      exact hstart.settled he hprevious
  | onward hc hnext h ih =>
      obtain ⟨hshift, hfirst⟩ := step_shifts hnext h
      exact ih.step hshift hfirst

/-- Anchors match exactly where they should, at every place of the scan of a line. Every pattern is
looked for once there, with these anchors. `\A` matches if the document begins there. `\G` matches
if the frame on top was opened by a match of this line that ended there, or if no match has opened
or closed a frame yet, no end was found on the lowest frame, and the line goes on there. -/
theorem anchors_of_comesTo
    (he : s.grammar.engine.Lawful)
    (hretry : s.grammar.options.retryWithoutAnchor = false)
    (hprevious : Incoming previous)
    (hstart : StartsLine s rescan line previous ms start)
    {findings : List Finding}
    {c : Cursor}
    (hc : ComesTo s rescan (line ++ "\n") start findings c) :
    (ruleMatch s.grammar (c.point (line ++ "\n")) (c.kept s.grammar).state.top).outcome =
        (s.grammar.setInside c.state.top).findAt (c.point (line ++ "\n")) ∧
      ((c.point (line ++ "\n")).anchors.allowA = true ↔ previous = .initial ∧ c.pos = 0) ∧
      ((c.point (line ++ "\n")).anchors.allowG = true ↔
        OpenedOnTop s.grammar findings c c.pos ∨
          Undisturbed s.grammar findings c ∧ ¬ EndsOnLowest findings ∧
            GoesOnAt previous ms c.pos) := by
  have hsettled := comesTo_settled he hprevious hstart hc
  have hG : (c.point (line ++ "\n")).anchors.allowG = true ↔ c.anchor = some c.pos := by
    simp [Cursor.point, ScanPoint.anchors, Anchors.ofScan]
  refine ⟨?_, ?_, hG.trans ?_⟩
  · have hsame : s.grammar.setInside (c.kept s.grammar).state.top =
        s.grammar.setInside c.state.top :=
      Grammar.setInside_keepInside s.grammar c.state.top
    rw [ruleMatch, Reported.outcome_reportIf_bind, hsame]
    simp only [hretry, Bool.false_and, Reported.outcome_bind, Reported.outcome_liftM]
    cases (s.grammar.setInside c.state.top).findAt (c.point (line ++ "\n")) with
    | error e =>
        rfl
    | ok found =>
        cases found <;> rfl
  · rw [← hprevious.isInitial_iff]
    simp [Cursor.point, ScanPoint.anchors, Anchors.ofScan, hsettled.firstLine]
  · cases hc with
    | start =>
        have hopened : ¬ OpenedOnTop s.grammar [] start start.pos := by
          rintro ⟨later, v, earlier, hfindings, -⟩
          simp at hfindings
        rw [hstart.anchor_iff he hprevious]
        have hnone : ¬ EndsOnLowest [] := by
          rintro ⟨v, hv, -⟩
          cases hv
        exact ⟨fun h => .inr ⟨List.forall_mem_nil _, hnone, h⟩,
          fun h => (h.resolve_left hopened).2.2⟩
    | @onward findings b c hb m hnext hstep =>
        have hbefore := comesTo_settled he hprevious hstart hb
        have hsound := (hb.sound he (hstart.sound he hprevious)).kept he
        have hwithin : m.Within (line ++ "\n") b.pos :=
          nextMatch_within he hsound.state.top hsound.pos hnext
        have hm : b.pos ≤ m.last := Nat.le_trans hwithin.pos_le_first hwithin.first_le_last
        obtain ⟨hshift, -⟩ := step_shifts hnext hstep
        rw [hbefore.anchor_iff hshift hm]
        refine ⟨.inl, fun h => h.resolve_right ?_⟩
        rintro ⟨hnone, hlowest, hgoes⟩
        have hpos := hstart.pos_eq he hprevious hgoes
        rcases hbefore.disturbed_or_lt hshift with hsome | hends | hlt
        · exact hsome hnone
        · exact hlowest hends
        · omega

end Line

end Start

/-- A grammar for quoted lines, which may quote others. -/
def quotes : Grammar :=
  Literal.grammar #[
    .group ⟨none, none, [1], false⟩,
    .lines ⟨some ⟨"quote"⟩, none, ⟨">"⟩, [], ⟨">"⟩, [], [1], false⟩]

/-- Where a scan goes on, if it does. -/
def Progress.onward? : Progress → Option Cursor
  | .onward c => some c
  | .finished _ => none

theorem Progress.eq_onward
    {p : Progress}
    {c : Cursor}
    (h : p.onward? = some c) :
    p = .onward c := by
  cases p with
  | finished d =>
      cases h
  | onward d =>
      obtain rfl := Option.some.inj h
      rfl

/-- A line on which a quote goes on and another one is opened behind it. -/
theorem anchors_of_comesTo_quotes :
    ∃ (s : LineScanner) (previous : State) (ms : List PatternMatch) (start c : Cursor)
      (m : PatternMatch),
      s.grammar = quotes ∧ previous ≠ .initial ∧ Incoming previous ∧
      StartsLine s (rescanText s 0) "> >b" previous ms start ∧ start.pos = 1 ∧
      ComesTo s (rescanText s 0) "> >b\n" start [⟨start, m⟩] c ∧ c.pos = 3 ∧
      (ruleMatch s.grammar (c.point "> >b\n") (c.kept s.grammar).state.top).outcome =
        (s.grammar.setInside c.state.top).findAt (c.point "> >b\n") ∧
      ((c.point "> >b\n").anchors.allowA = true ↔ previous = .initial ∧ c.pos = 0) ∧
      ((c.point "> >b\n").anchors.allowG = true ↔
        OpenedOnTop s.grammar [⟨start, m⟩] c c.pos ∨
          Undisturbed s.grammar [⟨start, m⟩] c ∧ ¬ EndsOnLowest [⟨start, m⟩] ∧
            GoesOnAt previous ms c.pos) := by
  have hscan : (scanLine (quotes.scanner .plain) 0 ">" .initial none).outcome.bind (fun l =>
      (startLine (quotes.scanner .plain) (rescanText (quotes.scanner .plain) 0) "> >b\n"
        l.state.isInitial (startState (quotes.scanner .plain) l.state) .empty).outcome.bind
        fun start =>
          (step (quotes.scanner .plain) (rescanText (quotes.scanner .plain) 0) "> >b\n"
            start).outcome.map fun p => (l.state.isInitial, start.pos, p.onward?.map Cursor.pos)) =
      .ok (false, 1, some 3) := by
    decide +kernel
  obtain ⟨l, hl, hscan⟩ := exists_of_bind_eq_ok hscan
  obtain ⟨start, hstart, hscan⟩ := exists_of_bind_eq_ok hscan
  obtain ⟨p, hstep, hscan⟩ := exists_of_map_eq_ok hscan
  obtain ⟨hlater, hscan⟩ := Prod.mk.inj hscan
  obtain ⟨hpos, hp⟩ := Prod.mk.inj hscan
  obtain ⟨c, hp, hplace⟩ := Option.map_eq_some_iff.mp hp
  obtain rfl := Progress.eq_onward hp
  have he : (quotes.scanner .plain).grammar.engine.Lawful := literalEngine_lawful
  have hprevious : Incoming l.state := .line he .initial hl
  obtain ⟨ms, hbegin⟩ : ∃ ms, StartsLine (quotes.scanner .plain)
      (rescanText (quotes.scanner .plain) 0) "> >b" l.state ms start :=
    exists_startsLine_iff.mp hstart
  rcases step_eq_ok hstep with hfinished | ⟨m, -, -, hnext, -⟩
  · cases hfinished
  · have hc := ComesTo.onward .start hnext hstep
    refine ⟨quotes.scanner .plain, l.state, ms, start, c, m, rfl, ?_, hprevious, hbegin, hpos,
      hc, hplace, anchors_of_comesTo he rfl hprevious hbegin hc⟩
    rintro hinitial
    rw [hinitial] at hlater
    cases hlater

open Selector Selector.Token in
theorem parseSelector_outside :
    parseSelector "L:s -w" = .ok [⟨.left, .all [.names ["s"], .not (.names ["w"])]⟩] := by
  have htokens : tokens "L:s -w" = [.word "L:", .word "s", .minus, .word "w"] := by
    have hs : startsWord 's' = true := by
      decide +kernel
    have hw : startsWord 'w' = true := by
      decide +kernel
    have hword : (" -w".toList).takeWhile continuesWord = [] := by
      decide +kernel
    have hrest : (" -w".toList).dropWhile continuesWord = [' ', '-', 'w'] := by
      decide +kernel
    have hlast : scanTokens ['w'] = [.word "w"] := by
      rw [scanTokens, if_pos hw]
      · simp [scanTokens]
      · simp
      · simp
    change scanTokens ('L' :: ':' :: 's' :: " -w".toList) = _
    rw [scanTokens, scanTokens, if_pos hs]
    · rw [hword, hrest, scanTokens_of_not_startsWord (by decide),
        scanTokens_of_not_startsWord (by decide), hlast]
      rfl
    · simp
    · simp
  have hs : isName "s" = true := by
    decide +kernel
  have hw : isName "w" = true := by
    decide +kernel
  simp only [parseSelector, parse, htokens]
  simp [alternatives, Selector.sequence, operand, priority?, hs, hw, leadingNames, afterNames,
    Token.name?, allOf, pure, Except.pure, bind, Except.bind]

/-- Regions that go on as long as lines begin with `>`, and outside of them an injected region whose
end is found where a line goes on. -/
def resumptions : CompileRequest where
  sources := {
    library := .empty
    base := {
      scopeName := "s"
      patterns := [
        { name := some "w", beginPattern := some "b\n", whilePattern := some ">" }]
      injections := some [
        ("L:s -w", { beginPattern := some "zzz", endPattern := some "\\G" })] } }
  engine := anchoredEngine

/-- The line `x` follows the line `b` that opens a region. The end of the injected region is found
on the lowest frame, at the place where the line goes on. No frame has been opened or closed, and
the scan stays there, but `\G` does not match any more. -/
theorem anchors_of_endsOnLowest :
    ∃ (s : LineScanner) (l : ScannedLine) (ms : List PatternMatch) (start c : Cursor)
      (m : PatternMatch),
      (Grammar.compile resumptions).outcome = .ok s.grammar ∧ s.grammar.engine.Lawful ∧
      s.grammar.options.retryWithoutAnchor = false ∧
      (scanLine s 0 "b" .initial none).outcome = .ok l ∧ Incoming l.state ∧
      StartsLine s (rescanText s 0) "x" l.state ms start ∧
      ComesTo s (rescanText s 0) "x\n" start [⟨start, m⟩] c ∧
      c.state.depth = start.state.depth ∧ c.pos = start.pos ∧
      ¬ ((c.point "x\n").anchors.allowG = true ↔
        OpenedOnTop s.grammar [⟨start, m⟩] c c.pos ∨
          Undisturbed s.grammar [⟨start, m⟩] c ∧ GoesOnAt l.state ms c.pos) := by
  have hscan : (Grammar.compile resumptions).outcome.bind (fun g =>
      (scanLine (g.scanner .plain) 0 "b" .initial none).outcome.bind fun l =>
        (startLine (g.scanner .plain) (rescanText (g.scanner .plain) 0) "x\n"
          l.state.isInitial (startState (g.scanner .plain) l.state) .empty).outcome.bind
          fun start =>
            (nextMatch g ((start.kept g).point "x\n") (start.kept g).state.top).outcome.bind fun m =>
              (step (g.scanner .plain) (rescanText (g.scanner .plain) 0) "x\n" start).outcome.map
                fun p => (m,
                  decide (g.options.retryWithoutAnchor = false ∧ start.pos = 0 ∧
                    start.anchor = some 0 ∧ start.state.below.length = 0),
                  p.onward?.map fun c =>
                    decide (c.pos = 0 ∧ c.anchor = none ∧ c.state.below.length = 0))) =
      .ok (some ⟨.closing, 0, 0, [some ⟨0, 0⟩]⟩, true, some true) := by
    rw [Grammar.compile, Grammar.compileRules_of_single rfl rfl parseSelector_outside]
    decide +kernel
  obtain ⟨g, hg, hscan⟩ := exists_of_bind_eq_ok hscan
  obtain ⟨l, hl, hscan⟩ := exists_of_bind_eq_ok hscan
  obtain ⟨start, hstart, hscan⟩ := exists_of_bind_eq_ok hscan
  obtain ⟨found, hnext, hscan⟩ := exists_of_bind_eq_ok hscan
  obtain ⟨p, hstep, hscan⟩ := exists_of_map_eq_ok hscan
  obtain ⟨hfound, hplaces⟩ := Prod.mk.inj hscan
  obtain ⟨hbefore, hp⟩ := Prod.mk.inj hplaces
  rw [hfound] at hnext
  obtain ⟨hretry, hpos, hanchor, hbelow⟩ := of_decide_eq_true hbefore
  obtain ⟨c, hp, hbehind⟩ := Option.map_eq_some_iff.mp hp
  obtain rfl := Progress.eq_onward hp
  obtain ⟨hstays, hnone, hlowest⟩ := of_decide_eq_true hbehind
  have he : (g.scanner .plain).grammar.engine.Lawful := by
    have hengine : g.engine = anchoredEngine := (Grammar.compile_eq_ok hg).1
    exact hengine ▸ anchoredEngine_lawful
  have hprevious : Incoming l.state := .line he .initial hl
  obtain ⟨ms, hbegin⟩ : ∃ ms, StartsLine (g.scanner .plain)
      (rescanText (g.scanner .plain) 0) "x" l.state ms start :=
    exists_startsLine_iff.mp hstart
  have hgoes : GoesOnAt l.state ms start.pos := by
    refine (hbegin.anchor_iff he hprevious).mp ?_
    rw [hanchor, hpos]
  have hdepth : c.state.depth = start.state.depth := by
    rw [State.depth, State.depth, hlowest, hbelow]
  refine ⟨g.scanner .plain, l, ms, start, c, _, hg, he, hretry, hl, hprevious, hbegin,
    .onward .start hnext hstep, hdepth, hstays.trans hpos.symm, fun hiff => ?_⟩
  have hundisturbed : Undisturbed g [⟨start, ⟨.closing, 0, 0, [some ⟨0, 0⟩]⟩⟩] c := by
    intro v hv
    obtain rfl := List.mem_singleton.mp hv
    exact ⟨fun hopens => hopens.not_closing rfl, fun _ => List.length_eq_zero_iff.mp hbelow,
      hdepth.symm⟩
  have hstill : GoesOnAt l.state ms c.pos := hstays.trans hpos.symm ▸ hgoes
  have hallowed := hiff.mpr (.inr ⟨hundisturbed, hstill⟩)
  simp [Cursor.point, ScanPoint.anchors, Anchors.ofScan, hnone] at hallowed

end LineScopes
