import LineScopes.Proofs.Scan.Run

/-!
# Painting scopes

The metadata of scopes is laid over their names when they are pushed, and it is kept in the frames.
Painting gives every scope of a frame, of a state or of a covered line the metadata it would have if
all scopes were pushed with one attribution.

**Main definitions.** `ScopeList.painted`, `State.painted`, `Coverage.painted`,
`Attribution.Agree`, `LineScanner.repaint`.

**Main statements.** `painted_push`: painting commutes with a push. `nextMatch_painted`: the choice
of a match looks at scope names alone.
-/

namespace LineScopes

namespace ScopeList

/-- The scopes with the metadata they would have if all of them were pushed with `b`. -/
def painted
    (b : Attribution)
    (l : ScopeList) : ScopeList :=
  l.names.foldl (push b) .empty

theorem path_foldl_push
    (b : Attribution)
    (l : ScopeList)
    (names : List String) :
    (names.foldl (push b) l).path = l.path.pushAll names := by
  induction names generalizing l with
  | nil =>
      rfl
  | cons name rest ih =>
      exact ih (l.push b name)

@[simp] theorem path_painted
    (b : Attribution)
    (l : ScopeList) :
    (l.painted b).path = l.path := by
  have hsegments : (l.painted b).path.segments = l.path.segments := by
    rw [painted, path_foldl_push, ScopePath.segments_pushAll]
    rfl
  have hinward := congrArg List.reverse hsegments
  simp only [ScopePath.segments, List.reverse_reverse] at hinward
  exact congrArg ScopePath.mk hinward

@[simp] theorem names_painted
    (b : Attribution)
    (l : ScopeList) :
    (l.painted b).names = l.names := by
  rw [names, path_painted]
  rfl

@[simp] theorem isEmpty_painted
    (b : Attribution)
    (l : ScopeList) :
    (l.painted b).isEmpty = l.isEmpty := by
  rw [isEmpty, path_painted]
  rfl

@[simp] theorem painted_push
    (a b : Attribution)
    (l : ScopeList)
    (name : String) :
    (l.push a name).painted b = (l.painted b).push b name := by
  rw [painted, names_push, List.foldl_append]
  rfl

@[simp] theorem painted_pushName
    (a b : Attribution)
    (l : ScopeList)
    (name : Option String) :
    (l.pushName a name).painted b = (l.painted b).pushName b name := by
  cases name with
  | none =>
      rfl
  | some name =>
      simp only [pushName]
      induction Text.splitAt ' ' name generalizing l with
      | nil =>
          rfl
      | cons word rest ih =>
          rw [List.foldl_cons, ih, painted_push, List.foldl_cons]

end ScopeList

namespace Frame

/-- A frame with painted scopes. -/
def painted
    (b : Attribution)
    (f : Frame) : Frame :=
  { f with nameScopes := f.nameScopes.painted b, contentScopes := f.contentScopes.painted b }

variable (b : Attribution)

theorem painted_withContentScopes
    (f : Frame)
    (scopes : ScopeList) :
    (f.withContentScopes scopes).painted b =
      (f.painted b).withContentScopes (scopes.painted b) := by
  simp [withContentScopes, painted]

theorem painted_withClosing
    (f : Frame)
    (text : String) :
    (f.withClosing text).painted b = (f.painted b).withClosing text := by
  have hclosing : (f.painted b).closing = f.closing := rfl
  unfold withClosing
  rw [hclosing]
  split <;> rfl

theorem painted_keepInside
    (g : Grammar)
    (f : Frame) :
    (g.keepInside f).painted b = g.keepInside (f.painted b) := by
  unfold Grammar.keepInside
  change _ = if f.closing.isSome && g.isRegion f.rule then _ else _
  split <;> rfl

theorem painted_keepOnward
    (g : Grammar)
    (f : Frame) :
    (g.keepOnward f).painted b = g.keepOnward (f.painted b) := by
  unfold Grammar.keepOnward
  change _ = if f.closing.isSome then _ else _
  split <;> rfl

end Frame

/-- Two attributions give the same metadata to the scopes of all frames. -/
def Attribution.Agree
    (a b : Attribution)
    (s : State) : Prop :=
  ∀ f ∈ s.frames, f.nameScopes.painted a = f.nameScopes.painted b ∧
    f.contentScopes.painted a = f.contentScopes.painted b

instance
    (a b : Attribution)
    (s : State) :
    Decidable (a.Agree b s) := by
  unfold Attribution.Agree
  infer_instance

namespace State

/-- A state with painted frames. -/
def painted
    (b : Attribution)
    (s : State) : State :=
  ⟨s.top.painted b, s.below.map (Frame.painted b)⟩

variable (b : Attribution)

@[simp] theorem frames_painted
    (s : State) :
    (s.painted b).frames = s.frames.map (Frame.painted b) := by
  rfl

@[simp] theorem depth_painted
    (s : State) :
    (s.painted b).depth = s.depth := by
  simp [painted, depth]

@[simp] theorem isInitial_painted
    (s : State) :
    (s.painted b).isInitial = s.isInitial := by
  simp [painted, isInitial, Frame.painted]

@[simp] theorem painted_initial :
    initial.painted b = initial := by
  rfl

theorem painted_eq_of_agree
    {a b : Attribution}
    {s : State}
    (h : a.Agree b s) :
    s.painted a = s.painted b := by
  have hframe : ∀ f ∈ s.frames, f.painted a = f.painted b := by
    intro f hf
    obtain ⟨hname, hcontent⟩ := h f hf
    rw [Frame.painted, hname, hcontent]
    rfl
  unfold painted
  rw [hframe s.top List.mem_cons_self,
    List.map_congr_left fun f hf => hframe f (List.mem_cons_of_mem _ hf)]

@[simp] theorem painted_push
    (s : State)
    (f : Frame) :
    (s.push f).painted b = (s.painted b).push (f.painted b) := by
  rfl

@[simp] theorem painted_pop
    (s : State) :
    s.pop.painted b = (s.painted b).pop := by
  obtain ⟨top, below⟩ := s
  cases below <;> rfl

theorem painted_mapTop
    {change change' : Frame → Frame}
    {s : State}
    (h : (change s.top).painted b = change' (s.top.painted b)) :
    (s.mapTop change).painted b = (s.painted b).mapTop change' :=
  congrArg (State.mk · _) h

@[simp] theorem painted_reset
    (s : State) :
    s.reset.painted b = (s.painted b).reset := by
  simp [painted, reset, Function.comp_def, Frame.painted, Frame.reset]

@[simp] theorem painted_delimited
    (s : State) :
    s.delimited.painted b = (s.painted b).delimited :=
  painted_mapTop b (Frame.painted_withContentScopes b _ _)

@[simp] theorem hasSameRuleAs_painted
    (s t : State) :
    (s.painted b).hasSameRuleAs (t.painted b) = s.hasSameRuleAs t := by
  simp only [hasSameRuleAs, frames_painted, List.takeWhile_map, List.any_map]
  rfl

@[simp] theorem painted_keepContinuations
    (g : Grammar)
    (s : State) :
    (keepContinuations g s).painted b = keepContinuations g (s.painted b) := by
  have hkeep : ∀ f : Frame,
      (if (g.linesRule? f.rule).isSome then g.keepOnward f else f).painted b =
        if (g.linesRule? (f.painted b).rule).isSome then g.keepOnward (f.painted b)
        else f.painted b := by
    intro f
    change _ = if (g.linesRule? f.rule).isSome then _ else _
    split
    · exact Frame.painted_keepOnward b g f
    · rfl
  unfold keepContinuations painted
  simp only [List.map_map, hkeep, Function.comp_def]

end State

/-- A segment with painted scopes. -/
def Segment.painted
    (b : Attribution)
    (s : Segment) : Segment :=
  { s with scopes := s.scopes.painted b }

namespace Coverage

/-- A covered line with painted segments. -/
def painted
    (b : Attribution)
    (c : Coverage) : Coverage :=
  ⟨c.newest.map (Segment.painted b), c.reached⟩

@[simp] theorem painted_extend
    (b : Attribution)
    (c : Coverage)
    (scopes : ScopeList)
    (last : Nat) :
    (c.extend scopes last).painted b = (c.painted b).extend (scopes.painted b) last := by
  unfold extend
  change _ = if c.reached < last then _ else _
  split <;> rfl

end Coverage

/-- A cursor with a painted state and painted segments. -/
def Cursor.painted
    (b : Attribution)
    (c : Cursor) : Cursor :=
  { c with state := c.state.painted b, coverage := c.coverage.painted b }

/-- What a match does, with painted states. -/
def Handling.painted
    (b : Attribution)
    (k : Handling) : Handling where
  state := k.state.painted b
  captures := k.captures
  anchor := k.anchor
  next := k.next.painted b
  recovery := k.recovery.map (State.painted b)

/-- What follows a step, painted. -/
def Progress.painted
    (b : Attribution) : Progress → Progress
  | .onward c => .onward (c.painted b)
  | .finished c => .finished (c.painted b)

/-- The end of a scan, painted. -/
def ScanEnd.painted
    (b : Attribution)
    (e : ScanEnd) : ScanEnd :=
  ⟨e.cursor.painted b, e.stopped⟩

/-- A scanned line, painted. -/
def ScannedLine.painted
    (b : Attribution)
    (l : ScannedLine) : ScannedLine :=
  { l with coverage := l.coverage.painted b, state := l.state.painted b }

/-- The scanner with another attribution. -/
def LineScanner.repaint
    (s : LineScanner)
    (b : Attribution) : LineScanner :=
  { s with attribution := b }

@[simp] theorem LineScanner.painted_pushTemplate
    (s : LineScanner)
    (b : Attribution)
    (scopes : ScopeList)
    (name : Option NameTemplate)
    (text : String)
    (groups : Groups) :
    (s.pushTemplate scopes name text groups).painted b =
      (s.repaint b).pushTemplate (scopes.painted b) name text groups :=
  ScopeList.painted_pushName _ _ _ _

/-- The choice of a match looks at scope names alone. -/
theorem nextMatch_painted
    (b : Attribution)
    (g : Grammar)
    (p : ScanPoint)
    (f : Frame) :
    nextMatch g p (f.painted b) = nextMatch g p f := by
  have hnames : (f.painted b).contentScopes.names = f.contentScopes.names :=
    ScopeList.names_painted b f.contentScopes
  unfold nextMatch injectionMatch
  rw [hnames]
  rfl

end LineScopes
