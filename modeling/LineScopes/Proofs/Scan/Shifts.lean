import LineScopes.Proofs.Scan.Contract

/-!
# Where `\G` matches after a step

The place where `\G` matches is set by the match that opens a frame and is kept in the frame that is
opened, for the time when this frame is left. A step changes the place of the scan, that of `\G` and
the places kept in the frames in one of five ways.

**Main definitions.** `Spot`, `State.spots`, `Grammar.Opens`, `Shifts`.

**Main statements.** `step_shifts`: the five ways are all there are.
-/

namespace LineScopes

/-- Where a frame was entered, and where `\G` matched then. -/
structure Spot where
  enter : Option Nat
  anchor : Option Nat

/-- The frame was entered in front of a place or there, and `\G` matched no further on. -/
structure Spot.Behind
    (x : Spot)
    (pos : Nat) : Prop where
  enter : ∀ p, x.enter = some p → p ≤ pos
  anchor : ∀ a, x.anchor = some a → ∃ p, x.enter = some p ∧ a ≤ p

theorem Spot.Behind.mono
    {x : Spot}
    {pos pos' : Nat}
    (h : x.Behind pos)
    (hle : pos ≤ pos') :
    x.Behind pos' :=
  ⟨fun p hp => Nat.le_trans (h.enter p hp) hle, h.anchor⟩

namespace Frame

/-- The places kept in a frame. -/
def spot (f : Frame) : Spot :=
  ⟨f.enter, f.anchor⟩

@[simp] theorem spot_withContentScopes
    (f : Frame)
    (scopes : ScopeList) :
    (f.withContentScopes scopes).spot = f.spot := by
  rfl

@[simp] theorem spot_withClosing
    (f : Frame)
    (text : String) :
    (f.withClosing text).spot = f.spot := by
  unfold withClosing
  split <;> rfl

@[simp] theorem spot_keepInside
    (g : Grammar)
    (f : Frame) :
    (g.keepInside f).spot = f.spot := by
  obtain ⟨patterns, heq⟩ := g.exists_keepInside_eq f
  rw [heq]
  rfl

end Frame

namespace State

/-- The places kept in the frames, the top first. -/
def spots (s : State) : List Spot :=
  s.frames.map Frame.spot

theorem spots_eq_cons
    (s : State) :
    s.spots = s.top.spot :: s.below.map Frame.spot := by
  rfl

@[simp] theorem length_spots
    (s : State) :
    s.spots.length = s.depth := by
  simp [spots, frames, depth]

theorem spots_mapTop
    {s : State}
    {change : Frame → Frame}
    (h : ∀ f, (change f).spot = f.spot) :
    (s.mapTop change).spots = s.spots := by
  rw [spots_eq_cons, spots_eq_cons]
  exact congrArg (· :: _) (h s.top)

/-- The lowest frame cannot be removed. -/
theorem spots_pop
    (s : State) :
    s.spots = s.top.spot :: s.pop.spots ∨ s.spots = [s.top.spot] ∧ s.pop = s := by
  obtain ⟨top, below⟩ := s
  cases below with
  | nil =>
      right
      exact ⟨rfl, rfl⟩
  | cons f rest =>
      left
      rfl

end State

/-- The match opens a frame: it is one of a rule that stays open. -/
def Grammar.Opens
    (g : Grammar)
    (m : PatternMatch) : Prop :=
  ∃ id rule, m.label = .rule id ∧ g.rule? id = some rule ∧ (openingOf? rule).isSome = true

theorem Grammar.Opens.not_closing
    {g : Grammar}
    {m : PatternMatch}
    (h : g.Opens m) :
    m.label ≠ .closing := by
  obtain ⟨id, rule, hlabel, -, -⟩ := h
  rw [hlabel]
  nofun

/-- The frame on top is removed, if it is not the only one. -/
def Uncovers (before after : List Spot) : Prop :=
  (∃ x, before = x :: after) ∨ ∃ x, before = [x] ∧ after = [x]

theorem State.uncovers_pop
    (s : State) :
    Uncovers s.spots s.pop.spots := by
  rcases s.spots_pop with hspots | ⟨hspots, hpop⟩
  · exact .inl ⟨_, hspots⟩
  · exact .inr ⟨_, hspots, by rw [hpop, hspots]⟩

/-- What a step that goes on from `c` to `d` does with the place of the scan, that of `\G` and those
kept in the frames. -/
inductive Shifts
    (g : Grammar)
    (c : Cursor)
    (m : PatternMatch)
    (d : Cursor) : Prop
  /-- A frame is opened. -/
  | opened (hm : g.Opens m) (hpos : d.pos = max c.pos m.last) (hanchor : d.anchor = some m.last)
    (hspots : d.state.spots = ⟨some c.pos, c.anchor⟩ :: c.state.spots)
  /-- A frame is opened that had been opened at this place before; it is left at once. -/
  | reopened (hm : g.Opens m) (hstay : m.last ≤ c.pos) (hpos : c.pos < d.pos)
    (hspots : d.state.spots = c.state.spots) (hanchor : d.anchor = some m.last)
  /-- The frame on top is left. It was entered elsewhere, unless the scan goes on further behind. -/
  | closed (hm : m.label = .closing) (hpos : d.pos = max c.pos m.last)
    (hentered : m.last ≤ c.pos → c.state.top.enter ≠ some c.pos)
    (hanchor : d.anchor = c.state.top.anchor) (hspots : Uncovers c.state.spots d.state.spots)
  /-- The end of a frame that was entered at this place is found; the frame is kept. -/
  | kept (hm : m.label = .closing) (hstay : m.last ≤ c.pos) (hpos : c.pos < d.pos)
    (hspots : d.state.spots = c.state.spots) (hanchor : d.anchor = c.state.top.anchor)
  /-- A rule is entered and left. If it did not advance, the frame on top is left, too. -/
  | passed (hm : ¬ g.Opens m) (hlabel : m.label ≠ .closing) (hlast : m.last ≤ d.pos)
    (hpos : c.pos < d.pos) (hanchor : d.anchor = c.anchor)
    (hspots : d.state.spots = c.state.spots ∨ Uncovers c.state.spots d.state.spots)

theorem Uncovers.subset
    {before after : List Spot}
    (h : Uncovers before after) :
    after ⊆ before := by
  rcases h with ⟨x, rfl⟩ | ⟨x, rfl, rfl⟩
  · exact List.subset_cons_self x after
  · exact List.Subset.refl _

theorem Uncovers.length
    {before after : List Spot}
    (h : Uncovers before after) :
    before.length = after.length + 1 ∨ before.length = 1 ∧ after.length = 1 := by
  rcases h with ⟨x, rfl⟩ | ⟨x, rfl, rfl⟩
  · exact .inl rfl
  · exact .inr ⟨rfl, rfl⟩

/-- The frames above a certain number of frames lose one, at most. -/
theorem Uncovers.take_subset
    {before after : List Spot}
    (h : Uncovers before after)
    {n : Nat}
    (hn : n ≤ after.length) :
    after.take (after.length - n) ⊆ before.take (before.length - n) := by
  rcases h with ⟨x, rfl⟩ | ⟨x, rfl, rfl⟩
  · rw [List.length_cons, Nat.sub_add_comm hn, List.take_succ_cons]
    exact List.subset_cons_self x _
  · exact List.Subset.refl _

namespace Shifts

variable {g : Grammar} {c d : Cursor} {m : PatternMatch}

theorem pos_le
    (h : Shifts g c m d) :
    c.pos ≤ d.pos := by
  cases h <;> omega

theorem last_le
    (h : Shifts g c m d) :
    m.last ≤ d.pos := by
  cases h <;> omega

/-- The frames behind a step are those in front of it, without the top or with a new one. -/
theorem spots_cases
    (h : Shifts g c m d) :
    (g.Opens m ∧ d.state.spots = ⟨some c.pos, c.anchor⟩ :: c.state.spots) ∨
      d.state.spots = c.state.spots ∨ Uncovers c.state.spots d.state.spots := by
  cases h with
  | opened hm hpos hanchor hspots => exact .inl ⟨hm, hspots⟩
  | reopened hm hstay hpos hspots hanchor => exact .inr (.inl hspots)
  | closed hm hpos hentered hanchor hspots => exact .inr (.inr hspots)
  | kept hm hstay hpos hspots hanchor => exact .inr (.inl hspots)
  | passed hm hlabel hlast hpos hanchor hspots => exact .inr hspots

theorem depth_le
    (h : Shifts g c m d) :
    d.state.depth ≤ c.state.depth + 1 := by
  rw [← State.length_spots, ← State.length_spots]
  rcases h.spots_cases with ⟨-, hspots⟩ | hspots | hspots
  · simp [hspots]
  · simp [hspots]
  · rcases hspots.length with hlength | ⟨hone, hone'⟩ <;> omega

/-- The frames above a certain number of frames get a new one, at most. -/
theorem mem_take
    (h : Shifts g c m d)
    {n : Nat}
    (hc : n ≤ c.state.depth)
    (hd : n ≤ d.state.depth)
    {x : Spot}
    (hx : x ∈ d.state.spots.take (d.state.depth - n)) :
    x = ⟨some c.pos, c.anchor⟩ ∨ x ∈ c.state.spots.take (c.state.depth - n) := by
  rw [← State.length_spots] at hc hd hx
  rw [← State.length_spots]
  rcases h.spots_cases with ⟨-, hspots⟩ | hspots | hspots
  · rw [hspots, List.length_cons, Nat.sub_add_comm hc, List.take_succ_cons] at hx
    exact List.mem_cons.mp hx
  · rw [hspots] at hx
    exact .inr hx
  · exact .inr (hspots.take_subset hd hx)

end Shifts

section Step

variable {s : LineScanner} {rescan : Rescan} {text : String} {c d : Cursor} {m : PatternMatch}

@[simp] theorem Cursor.spots_kept
    (g : Grammar)
    (c : Cursor) :
    (c.kept g).state.spots = c.state.spots :=
  State.spots_mapTop (Frame.spot_keepInside g)

theorem State.spots_delimited
    (s : State) :
    s.delimited.spots = s.spots :=
  spots_mapTop fun f => Frame.spot_withContentScopes f _

theorem Cursor.spots_opened
    (id : RuleId)
    (rule : Rule)
    (closing : PatternSource) :
    (c.opened s text m id rule closing).spots = ⟨some c.pos, c.anchor⟩ :: c.state.spots := by
  have hentered : (c.entered s text m id rule).spots = ⟨some c.pos, c.anchor⟩ :: c.state.spots := by
    rfl
  unfold opened resolveClosing
  dsimp only
  split
  · rw [State.spots_mapTop fun f => Frame.spot_withClosing f _,
      State.spots_mapTop fun f => Frame.spot_withContentScopes f _, hentered]
  · rw [State.spots_mapTop fun f => Frame.spot_withContentScopes f _, hentered]

/-- The kinds of matches that are handled: an end, one that opens a frame, and any other one. -/
theorem Cursor.handling_kinds
    {k : Handling}
    (hk : c.handling s text m = some k) :
    (m.label = .closing ∧ k = c.closing s.grammar m) ∨
      (s.grammar.Opens m ∧ ∃ id rule captures closing,
        k = c.opening s text m id rule captures closing) ∨
      (¬ s.grammar.Opens m ∧ m.label ≠ .closing ∧ ∃ id rule, k = c.passing s text m id rule) := by
  unfold handling at hk
  cases hlabel : m.label with
  | closing =>
      left
      simp only [hlabel, Option.some.injEq] at hk
      exact ⟨rfl, hk.symm⟩
  | continuing =>
      simp [hlabel] at hk
  | rule id =>
      right
      simp only [hlabel] at hk
      cases hrule : s.grammar.rule? id with
      | none =>
          simp [hrule] at hk
      | some rule =>
          simp only [hrule] at hk
          cases hopening : openingOf? rule with
          | some p =>
              left
              simp only [hopening, Option.some.injEq] at hk
              exact ⟨⟨id, rule, hlabel, hrule, by simp [hopening]⟩, id, rule, p.1, p.2, hk.symm⟩
          | none =>
              right
              simp only [hopening, Option.some.injEq] at hk
              refine ⟨?_, nofun, id, rule, hk.symm⟩
              rintro ⟨id', rule', hlabel', hrule', hopening'⟩
              obtain rfl : id = id' := by simpa [hlabel] using hlabel'
              obtain rfl : rule = rule' := by simpa [hrule] using hrule'
              simp [hopening] at hopening'

/-- A scan that moves on is no longer at the start of a document. -/
theorem Cursor.advance_shifts
    (c : Cursor)
    (last : Nat) :
    (c.advance last).pos = max c.pos last ∧
      (c.advance last).anchor = c.anchor ∧
      (c.advance last).firstLine = (c.firstLine && (c.advance last).pos == c.pos) := by
  unfold advance
  split
  · rename_i hmoved
    refine ⟨(Nat.max_eq_right (Nat.le_of_lt hmoved)).symm, rfl, ?_⟩
    simp [Nat.ne_of_gt hmoved]
  · rename_i hstayed
    exact ⟨(Nat.max_eq_left (Nat.le_of_not_lt hstayed)).symm, rfl, by simp⟩

/-- A scan goes on behind the match, or it skips a character after a recovery. -/
theorem Cursor.resume_shifts
    {k : Handling}
    {coverage : Coverage}
    (h : c.resume text m k coverage = .onward d) :
    d.anchor = k.anchor ∧
      d.firstLine = (c.firstLine && d.pos == c.pos) ∧
      (k.recovery = none ∧ d.state = k.next ∧ d.pos = max c.pos m.last ∨
        k.recovery = some d.state ∧ c.pos < d.pos) := by
  unfold resume at h
  split at h
  · rename_i hnone
    obtain rfl := Progress.onward.inj h
    obtain ⟨hpos, hanchor, hfirst⟩ := advance_shifts
      { c with anchor := k.anchor, state := k.next, coverage := matched m k coverage } m.last
    refine ⟨hanchor, hfirst, .inl ⟨hnone, ?_, hpos⟩⟩
    unfold advance
    split <;> rfl
  · rename_i state hsome
    have hnext := Text.lt_nextOffset text c.pos
    dsimp only at h
    split at h
    · cases h
    · obtain rfl := Progress.onward.inj h
      refine ⟨rfl, ?_, .inr ⟨hsome, hnext⟩⟩
      simp [Nat.ne_of_gt hnext]

/-- The recovery of a match that may be stuck. -/
theorem recovery_eq_some
    {p : Prop}
    [Decidable p]
    {t r : State}
    (h : (if p then some t else none) = some r) :
    p ∧ r = t := by
  split at h
  · exact ⟨‹p›, (Option.some.inj h).symm⟩
  · cases h

theorem Cursor.closing_shifts
    (hm : m.label = .closing)
    {coverage : Coverage}
    (h : c.resume text m (c.closing s.grammar m) coverage = .onward d) :
    Shifts s.grammar c m d := by
  obtain ⟨hanchor, -, ⟨hnone, hstate, hpos⟩ | ⟨hsome, hpos⟩⟩ := resume_shifts h
  · refine .closed hm hpos ?_ hanchor ?_
    · intro hstay henter
      have hstuck : m.last ≤ c.pos ∧ c.state.top.enter = some c.pos := ⟨hstay, henter⟩
      simp [closing, hstuck] at hnone
    · rw [hstate, ← c.state.spots_delimited]
      exact c.state.delimited.uncovers_pop
  · obtain ⟨⟨hstay, -⟩, hstate⟩ := recovery_eq_some hsome
    refine .kept hm hstay hpos ?_ hanchor
    rw [hstate, State.spots_delimited]

theorem Cursor.opening_shifts
    (hm : s.grammar.Opens m)
    {id : RuleId}
    {rule : Rule}
    {captures : List (Option RuleId)}
    {closing : PatternSource}
    {coverage : Coverage}
    (h : c.resume text m (c.opening s text m id rule captures closing) coverage = .onward d) :
    Shifts s.grammar c m d := by
  have hspots : (c.opened s text m id rule closing).spots =
      ⟨some c.pos, c.anchor⟩ :: c.state.spots :=
    c.spots_opened id rule closing
  obtain ⟨hanchor, -, ⟨-, hstate, hpos⟩ | ⟨hsome, hpos⟩⟩ := resume_shifts h
  · refine .opened hm hpos hanchor ?_
    rw [hstate]
    exact hspots
  · obtain ⟨⟨hstay, -⟩, hstate⟩ := recovery_eq_some hsome
    refine .reopened hm hstay hpos ?_ hanchor
    rw [hstate]
    rcases (c.opened s text m id rule closing).spots_pop with hpop | ⟨hpop, -⟩
    · rw [hspots] at hpop
      exact (List.cons.inj hpop).2.symm
    · rw [hspots, State.spots_eq_cons] at hpop
      simp at hpop

theorem Cursor.passing_shifts
    (hm : ¬ s.grammar.Opens m)
    (hlabel : m.label ≠ .closing)
    {id : RuleId}
    {rule : Rule}
    {coverage : Coverage}
    (h : c.resume text m (c.passing s text m id rule) coverage = .onward d) :
    Shifts s.grammar c m d := by
  obtain ⟨hanchor, -, ⟨hnone, hstate, hpos⟩ | ⟨hsome, hpos⟩⟩ := resume_shifts h
  · have hmoved : c.pos < m.last := by
      simpa [passing] using hnone
    refine .passed hm hlabel (by omega) (by omega) hanchor (.inl ?_)
    rw [hstate]
    rfl
  · obtain ⟨hstay, hstate⟩ := recovery_eq_some hsome
    refine .passed hm hlabel (by omega) hpos hanchor (.inr ?_)
    rw [hstate]
    exact c.state.uncovers_pop

/-- That patterns are kept in the frame on top changes no place. -/
theorem Shifts.of_kept
    (h : Shifts s.grammar (c.kept s.grammar) m d) :
    Shifts s.grammar c m d := by
  have hspots := Cursor.spots_kept s.grammar c
  have htop : (c.kept s.grammar).state.top.spot = c.state.top.spot :=
    Frame.spot_keepInside s.grammar c.state.top
  have henter : (c.kept s.grammar).state.top.enter = c.state.top.enter :=
    congrArg Spot.enter htop
  have hplace : (c.kept s.grammar).state.top.anchor = c.state.top.anchor :=
    congrArg Spot.anchor htop
  cases h with
  | opened hm hpos hanchor h =>
      exact .opened hm hpos hanchor (by rw [h, hspots]; rfl)
  | reopened hm hstay hpos h hanchor =>
      exact .reopened hm hstay hpos (by rw [h, hspots]) hanchor
  | closed hm hpos hentered hanchor h =>
      exact .closed hm hpos (fun hstay => henter ▸ hentered hstay) (hanchor.trans hplace)
        (hspots ▸ h)
  | kept hm hstay hpos h hanchor =>
      exact .kept hm hstay hpos (by rw [h, hspots]) (hanchor.trans hplace)
  | passed hm hlabel hlast hpos hanchor h =>
      exact .passed hm hlabel hlast hpos hanchor (hspots ▸ h)

/-- What a step with a match does if the scan goes on. -/
theorem step_shifts
    (hnext : (nextMatch s.grammar ((c.kept s.grammar).point text)
      (c.kept s.grammar).state.top).outcome = .ok (some m))
    (h : (step s rescan text c).outcome = .ok (.onward d)) :
    Shifts s.grammar c m d ∧ d.firstLine = (c.firstLine && d.pos == c.pos) := by
  rcases step_eq_ok h with hfinished | ⟨m', k, coverage, hnext', hk, -, hresume⟩
  · cases hfinished
  · obtain rfl : m' = m := by simpa [hnext'] using hnext
    refine ⟨.of_kept ?_, (Cursor.resume_shifts hresume.symm).2.1⟩
    rcases Cursor.handling_kinds hk with ⟨hm, rfl⟩ | ⟨hm, id, rule, captures, closing, rfl⟩ |
      ⟨hm, hlabel, id, rule, rfl⟩
    · exact Cursor.closing_shifts hm hresume.symm
    · exact Cursor.opening_shifts hm hresume.symm
    · exact Cursor.passing_shifts hm hlabel hresume.symm

end Step

end LineScopes
