import LineScopes.Proofs.Scan.Chains
import LineScopes.Proofs.Scan.StackLaws

/-!
# Sharing makes no difference

Operations on stacks in memory keep cells where they can and compare addresses before they compare
frames. Every operation does to the state that a stack stands for what it does to states without
memory, and what is in memory already stays as it is.

**Main definitions.** `Heap.Stands`: what is true of every stack. `Heap.Yields`: what an operation
gives.

**Main statements.** `make_yields`: making a cell. `moveTop_cases`, `rebuild_yields`,
`rebuild_contents`: forgetting places. `equals_eq`, `hasSameRuleAs_eq`: comparisons.
-/

namespace LineScopes

namespace ScopeChain

variable {scopes : List ScopeChain} {c d : ScopeChain}

theorem list_eq_iff :
    c.list = d.list ↔ c.map Cell.content = d.map Cell.content := by
  have hpairs : c.list = d.list ↔
      (c.map Cell.content).unzip = (d.map Cell.content).unzip := by
    simp [list, List.unzip_eq_map, Function.comp_def]
  rw [hpairs]
  refine ⟨fun h => ?_, congrArg _⟩
  rw [← List.zip_unzip (c.map Cell.content), h, List.zip_unzip]

/-- The comparison of chains of scopes in memory is that of the lists they stand for. -/
theorem agree_eq
    (hc : c.Lives scopes)
    (hd : d.Lives scopes) :
    c.agree d = (c.list == d.list) := by
  rw [Bool.eq_iff_iff, beq_iff_eq, list_eq_iff]
  exact hc.agree_iff _ hd

end ScopeChain

namespace Heap

variable {h h' : Heap} {s t : Stack} {f : SharedFrame} {below : Chain SharedFrame}
  {scopes : ScopeChain}

/-- A frame fits on other ones if it says how many there are and its scopes are in memory. -/
structure Fits
    (h : Heap)
    (f : SharedFrame)
    (below : Chain SharedFrame) : Prop where
  depth : f.depth = below.length + 1
  nameScopes : f.nameScopes.Lives h.scopes
  contentScopes : f.contentScopes.Lives h.scopes

/-- Every cell of a stack is in memory, and its frame fits on those under it. -/
def Stands (h : Heap) : Chain SharedFrame → Prop
  | [] => True
  | cell :: rest =>
      h.frames[cell.address]? = some (cell :: rest) ∧ h.Fits cell.content rest ∧ h.Stands rest

/-- The state before any line is in memory. -/
def Started (h : Heap) : Prop :=
  h.frames[0]? = some Stack.initial.cells

/-- What is in memory stays there. -/
structure Grows (h h' : Heap) : Prop where
  frames : h.frames <+: h'.frames
  scopes : h.scopes <+: h'.scopes

/-- An operation leaves what is in memory, and gives a stack that stands for a state. -/
structure Yields
    (h : Heap)
    (r : Stack × Heap)
    (a : State) : Prop where
  grows : h.Grows r.2
  stands : r.2.Stands r.1.cells
  view : r.1.view = a

theorem Grows.refl
    (h : Heap) :
    h.Grows h :=
  ⟨List.prefix_rfl, List.prefix_rfl⟩

theorem Grows.trans
    {h'' : Heap}
    (hmore : h.Grows h')
    (hmore' : h'.Grows h'') :
    h.Grows h'' :=
  ⟨hmore.frames.trans hmore'.frames, hmore.scopes.trans hmore'.scopes⟩

theorem Started.mono
    (hstart : h.Started)
    (hmore : h.Grows h') :
    h'.Started :=
  Chain.getElem?_mono hmore.frames hstart

theorem Fits.mono
    (hf : h.Fits f below)
    (hmore : h.Grows h') :
    h'.Fits f below :=
  ⟨hf.depth, hf.nameScopes.mono hmore.scopes, hf.contentScopes.mono hmore.scopes⟩

theorem Stands.mono
    {cells : Chain SharedFrame}
    (hcells : h.Stands cells)
    (hmore : h.Grows h') :
    h'.Stands cells := by
  induction cells with
  | nil =>
      trivial
  | cons cell rest ih =>
      obtain ⟨hcell, hfits, hrest⟩ := hcells
      exact ⟨Chain.getElem?_mono hmore.frames hcell, hfits.mono hmore, ih hrest⟩

theorem Stands.lives
    {cells : Chain SharedFrame}
    (hcells : h.Stands cells) :
    cells.Lives h.frames := by
  induction cells with
  | nil =>
      trivial
  | cons cell rest ih =>
      exact ⟨hcells.1, ih hcells.2.2⟩

/-- The depths stored in the frames count them, from 1 at the lowest one. -/
theorem Stands.depths
    {cells : Chain SharedFrame}
    (hcells : h.Stands cells) :
    cells.map (fun c => c.content.depth) = (List.range' 1 cells.length).reverse := by
  induction cells with
  | nil =>
      rfl
  | cons cell rest ih =>
      obtain ⟨-, hfits, hrest⟩ := hcells
      rw [List.map_cons, ih hrest, hfits.depth, List.length_cons, List.range'_concat]
      simp [Nat.add_comm]

/-- Only the state before any line has its top frame at address 0. -/
theorem Stands.eq_initial
    (hs : h.Stands s.cells)
    (hstart : h.Started)
    (hzero : s.top.address = 0) :
    s = .initial := by
  have hcells : s.cells = Stack.initial.cells :=
    Option.some.inj (hs.1.symm.trans (hzero ▸ hstart))
  obtain ⟨htop, hbelow⟩ := List.cons.inj hcells
  exact Stack.mk.injEq .. ▸ ⟨htop, hbelow⟩

/-- A stack that is kept. -/
theorem Stands.yields
    {a : State}
    (hs : h.Stands s.cells)
    (hview : s.view = a) :
    h.Yields (s, h) a :=
  ⟨.refl h, hs, hview⟩

/-- Making a cell for a frame that fits. -/
theorem make_yields
    (hstart : h.Started)
    (hbelow : h.Stands below)
    (hf : h.Fits f below) :
    h.Yields (h.make f below) ⟨f.view false, below.map viewCell⟩ := by
  have hmore : h.Grows (h.make f below).2 :=
    ⟨List.prefix_append _ _, List.prefix_rfl⟩
  have hnew : (h.frames.length == 0) = false :=
    beq_eq_false_iff_ne.mpr (Nat.ne_of_gt (List.getElem?_eq_some_iff.mp hstart).1)
  refine ⟨hmore, ⟨?_, hf.mono hmore, hbelow.mono hmore⟩, ?_⟩
  · simp [make, Stack.cells]
  · simp [make, Stack.view, viewCell, hnew]

theorem root_yields
    (hstart : h.Started)
    (hscopes : scopes.Lives h.scopes) :
    h.Yields (h.root scopes) (.root scopes.list) :=
  make_yields hstart trivial ⟨rfl, hscopes, hscopes⟩

theorem push_yields
    (hstart : h.Started)
    (hs : h.Stands s.cells)
    (hname : f.nameScopes.Lives h.scopes)
    (hcontent : f.contentScopes.Lives h.scopes) :
    h.Yields (h.push s f) (s.view.push (f.view false)) :=
  make_yields hstart hs ⟨congrArg (· + 1) hs.2.1.depth, hname, hcontent⟩

theorem withClosing_yields
    (hstart : h.Started)
    (hs : h.Stands s.cells)
    (text : String) :
    h.Yields (h.withClosing s text) (s.view.mapTop fun f => f.withClosing text) := by
  unfold withClosing
  split
  · rename_i hsame
    have hkeep : (viewCell s.top).withClosing text = viewCell s.top :=
      if_pos hsame
    exact hs.yields (by rw [State.mapTop, Stack.view, hkeep])
  · rename_i hother
    have hchange : (viewCell s.top).withClosing text =
        ({ s.top.content with closing := some text, patterns := none } : SharedFrame).view false :=
      if_neg hother
    rw [State.mapTop, Stack.view, hchange]
    exact make_yields hstart hs.2.2 ⟨hs.2.1.depth, hs.2.1.nameScopes, hs.2.1.contentScopes⟩

theorem withContentScopes_yields
    (hstart : h.Started)
    (hs : h.Stands s.cells)
    (hscopes : scopes.Lives h.scopes) :
    h.Yields (h.withContentScopes s scopes)
      (s.view.mapTop fun f => f.withContentScopes scopes.list) := by
  unfold withContentScopes
  split
  · rename_i hsame
    have hcontent : s.top.content.contentScopes = scopes :=
      hs.2.1.contentScopes.eq_of_sameCell hscopes hsame
    have hkeep : (viewCell s.top).withContentScopes scopes.list = viewCell s.top := by
      by_cases hzero : s.top.address = 0
      · rw [← hcontent, hs.eq_initial hstart hzero]
        rfl
      · simp [Frame.withContentScopes, viewCell, SharedFrame.view, hzero, hcontent]
    exact hs.yields (by rw [State.mapTop, Stack.view, hkeep])
  · rename_i hother
    have hchange : (viewCell s.top).withContentScopes scopes.list =
        ({ s.top.content with contentScopes := scopes } : SharedFrame).view false := by
      by_cases hzero : s.top.address = 0
      · have hempty : scopes.list.isEmpty = false := by
          rw [hs.eq_initial hstart hzero] at hother
          cases scopes with
          | nil =>
              exact absurd rfl hother
          | cons =>
              rfl
        simp [Frame.withContentScopes, viewCell, SharedFrame.view, hempty]
      · simp [Frame.withContentScopes, viewCell, SharedFrame.view, hzero]
    rw [State.mapTop, Stack.view, hchange]
    exact make_yields hstart hs.2.2 ⟨hs.2.1.depth, hs.2.1.nameScopes, hscopes⟩

/-- A top frame without places on the line stays on its cells. -/
theorem moveTop_self
    (hclear : s.top.content.reset = s.top.content) :
    h.moveTop s s.below = (s, h) := by
  obtain ⟨henter, hanchor⟩ := SharedFrame.reset_eq_self_iff.mp hclear
  simp [moveTop, henter, hanchor]

/-- The top frame of a stack is kept if nothing changes, and is made again otherwise. -/
theorem moveTop_cases
    (hs : h.Stands s.cells)
    (hbelow : h.Stands below) :
    (below = s.below ∧ s.top.content.reset = s.top.content ∧ h.moveTop s below = (s, h)) ∨
      ((below = s.below → s.top.content.reset ≠ s.top.content) ∧
        h.moveTop s below = h.make s.top.content.reset below) := by
  by_cases hkeep : Chain.sameCell below s.below = true ∧ s.top.content.reset = s.top.content
  · obtain ⟨hsame, hclear⟩ := hkeep
    have hbelow' : below = s.below :=
      hbelow.lives.eq_of_sameCell hs.2.2.lives hsame
    exact .inl ⟨hbelow', hclear, hbelow' ▸ moveTop_self hclear⟩
  · refine .inr ⟨fun hbelow' hclear => hkeep ⟨by simp [hbelow'], hclear⟩, ?_⟩
    rw [SharedFrame.reset_eq_self_iff] at hkeep
    unfold moveTop
    rw [if_neg]
    simpa [and_assoc] using hkeep

theorem moveTop_yields
    (hstart : h.Started)
    (hs : h.Stands s.cells)
    (hbelow : h.Stands below)
    (hview : below.map viewCell = (s.below.map viewCell).map Frame.reset) :
    h.Yields (h.moveTop s below) s.view.reset := by
  have hlength : below.length = s.below.length := by
    simpa using congrArg List.length hview
  have hreset : s.view.reset = ⟨(viewCell s.top).reset, below.map viewCell⟩ := by
    rw [State.reset, Stack.view, hview]
  rw [hreset]
  rcases moveTop_cases hs hbelow with ⟨hsame, hclear, hmove⟩ | ⟨hchange, hmove⟩
  · have htop : (viewCell s.top).reset = viewCell s.top :=
      congrArg (fun f : SharedFrame => f.view (s.top.address == 0)) hclear
    rw [hmove, htop, hsame]
    exact hs.yields rfl
  · -- the state before any line is kept, so the address of a frame that is made again is not 0
    have hzero : (s.top.address == 0) = false := by
      rw [beq_eq_false_iff_ne]
      intro hzero
      rw [hs.eq_initial hstart hzero] at hchange hlength
      exact hchange (List.length_eq_zero_iff.mp hlength) rfl
    have htop : (viewCell s.top).reset = s.top.content.reset.view false := by
      rw [viewCell, hzero]
      rfl
    rw [hmove, htop]
    exact make_yields hstart hbelow
      ⟨hlength ▸ hs.2.1.depth, hs.2.1.nameScopes, hs.2.1.contentScopes⟩

theorem rebuild_yields
    (hstart : h.Started)
    {top : Cell SharedFrame}
    {rest : Chain SharedFrame}
    (hs : h.Stands (top :: rest)) :
    h.Yields (h.rebuild top rest) (Stack.view ⟨top, rest⟩).reset := by
  induction rest generalizing top with
  | nil =>
      exact moveTop_yields (s := ⟨top, []⟩) hstart hs trivial rfl
  | cons cell rest ih =>
      have hrest := ih hs.2.2
      have hmove := moveTop_yields (s := ⟨top, cell :: rest⟩) (hstart.mono hrest.grows)
        (hs.mono hrest.grows) hrest.stands (congrArg State.frames hrest.view)
      exact ⟨hrest.grows.trans hmove.grows, hmove.stands, hmove.view⟩

theorem moveTop_contents
    (hs : h.Stands s.cells)
    (hbelow : h.Stands below)
    (hcontents : below.map Cell.content = s.below.map fun c => c.content.reset) :
    (h.moveTop s below).1.cells.map Cell.content = s.cells.map fun c => c.content.reset := by
  rcases moveTop_cases hs hbelow with ⟨hsame, hclear, hmove⟩ | ⟨-, hmove⟩
  · rw [hmove, Stack.cells, List.map_cons, List.map_cons, hclear, ← hcontents, hsame]
  · rw [hmove, Stack.cells, Stack.cells, List.map_cons, List.map_cons, ← hcontents]
    rfl

theorem rebuild_contents
    (hstart : h.Started)
    {top : Cell SharedFrame}
    {rest : Chain SharedFrame}
    (hs : h.Stands (top :: rest)) :
    (h.rebuild top rest).1.cells.map Cell.content =
      (top :: rest).map fun c => c.content.reset := by
  induction rest generalizing top with
  | nil =>
      exact moveTop_contents (s := ⟨top, []⟩) hs trivial rfl
  | cons cell rest ih =>
      have hrest := rebuild_yields hstart hs.2.2
      exact moveTop_contents (s := ⟨top, cell :: rest⟩) (hs.mono hrest.grows) hrest.stands
        (ih hs.2.2)

/-- If there are no places on the line to forget, every cell is kept. -/
theorem rebuild_of_reset
    {top : Cell SharedFrame}
    {rest : Chain SharedFrame}
    (hclear : ∀ c ∈ top :: rest, c.content.reset = c.content) :
    h.rebuild top rest = (⟨top, rest⟩, h) := by
  induction rest generalizing top with
  | nil =>
      exact moveTop_self (hclear top List.mem_cons_self)
  | cons cell rest ih =>
      rw [rebuild, ih fun c hc => hclear c (List.mem_cons_of_mem _ hc)]
      exact moveTop_self (hclear top List.mem_cons_self)

theorem reset_yields
    (hstart : h.Started)
    (hs : h.Stands s.cells) :
    h.Yields (h.reset s) s.view.reset := by
  unfold reset
  split
  · rename_i hzero
    refine hs.yields ?_
    rw [hs.eq_initial hstart hzero]
    rfl
  · exact rebuild_yields hstart hs

/-- Forgetting places changes the places in every frame, and nothing else of any frame. -/
theorem reset_contents
    (hstart : h.Started)
    (hs : h.Stands s.cells) :
    (h.reset s).1.cells.map Cell.content = s.cells.map fun c => c.content.reset := by
  unfold reset
  split
  · rename_i hzero
    rw [hs.eq_initial hstart hzero]
    rfl
  · exact rebuild_contents hstart hs

/-- Forgetting places once more gives the same stack, and makes no cells. -/
theorem reset_reset
    (hstart : h.Started)
    (hs : h.Stands s.cells) :
    (h.reset s).2.reset (h.reset s).1 = h.reset s := by
  have hclear : ∀ c ∈ (h.reset s).1.cells, c.content.reset = c.content := by
    intro c hc
    have hcontent : c.content ∈ s.cells.map fun c => c.content.reset := by
      rw [← reset_contents hstart hs]
      exact List.mem_map_of_mem hc
    obtain ⟨d, -, hd⟩ := List.mem_map.mp hcontent
    rw [← hd]
    rfl
  generalize hr : h.reset s = r at hclear
  unfold reset
  split
  · rfl
  · exact rebuild_of_reset hclear

end Heap

namespace Stack

variable {h : Heap} {s t : Stack}

theorem pop?_view
    (s : Stack) :
    s.pop?.map view = s.view.pop? := by
  obtain ⟨top, below⟩ := s
  cases below <;> rfl

theorem pop_view
    (s : Stack) :
    s.pop.view = s.view.pop := by
  rw [pop, State.pop, ← pop?_view]
  cases s.pop? <;> rfl

/-- The depths in frames that fit need not be compared if rules and end patterns are. -/
theorem keys_eq_iff
    {cells cells' : Chain SharedFrame}
    (hs : h.Stands cells)
    (ht : h.Stands cells') :
    (cells.map (fun c => (c.content.depth, c.content.rule, c.content.closing)) =
        cells'.map fun c => (c.content.depth, c.content.rule, c.content.closing)) ↔
      (cells.map viewCell).map (fun f => (f.rule, f.closing)) =
        (cells'.map viewCell).map fun f => (f.rule, f.closing) := by
  induction cells generalizing cells' with
  | nil =>
      simp
  | cons cell cells ih =>
      cases cells' with
      | nil =>
          simp
      | cons cell' cells' =>
          have hdepth : (cells.map viewCell).map (fun f => (f.rule, f.closing)) =
              (cells'.map viewCell).map (fun f => (f.rule, f.closing)) →
                cell.content.depth = cell'.content.depth := by
            intro hrest
            have hlength : cells.length = cells'.length := by
              simpa using congrArg List.length hrest
            rw [hs.2.1.depth, ht.2.1.depth, hlength]
          simp only [List.map_cons, List.cons.injEq, Prod.mk.injEq, ih hs.2.2 ht.2.2]
          constructor
          · rintro ⟨⟨-, hkey⟩, hrest⟩
            exact ⟨hkey, hrest⟩
          · rintro ⟨hkey, hrest⟩
            exact ⟨⟨hdepth hrest, hkey⟩, hrest⟩

/-- The comparison of stacks is that of the states they stand for. -/
theorem equals_eq
    (hs : h.Stands s.cells)
    (ht : h.Stands t.cells) :
    s.equals t = s.view.equals t.view := by
  by_cases hsame : s.top.address = t.top.address
  · have hcells : s.cells = t.cells :=
      hs.lives.eq_of_sameCell ht.lives (by simp [Chain.sameCell, cells, hsame])
    obtain ⟨htop, hbelow⟩ := List.cons.inj hcells
    have hview : s.view = t.view := by
      rw [view, view, htop, hbelow]
    rw [hview, State.equals_refl, equals, beq_iff_eq.mpr hsame, Bool.true_or]
  · have hkeys :
        Chain.agree (fun f : SharedFrame => (f.depth, f.rule, f.closing)) s.cells t.cells =
          State.sameRules s.view.frames t.view.frames := by
      rw [Bool.eq_iff_iff, State.sameRules_iff, hs.lives.agree_iff _ ht.lives, keys_eq_iff hs ht]
      rfl
    rw [equals, beq_eq_false_iff_ne.mpr hsame, Bool.false_or, hkeys,
      ScopeChain.agree_eq hs.2.1.contentScopes ht.2.1.contentScopes]
    rfl

theorem findRule_eq
    (f : SharedFrame)
    (cells : Chain SharedFrame) :
    findRule f cells =
      ((cells.map viewCell).takeWhile fun g => g.enter == f.enter).any
        fun g => g.rule == f.rule := by
  induction cells with
  | nil =>
      rfl
  | cons cell rest ih =>
      rw [findRule, List.map_cons, List.takeWhile_cons, ih]
      change _ = List.any (if (cell.content.enter == f.enter) = true then _ else _) _
      cases cell.content.enter == f.enter <;> rfl

/-- The check for a rule in stacks is that in the states they stand for. -/
theorem hasSameRuleAs_eq
    (s t : Stack) :
    s.hasSameRuleAs t = s.view.hasSameRuleAs t.view :=
  findRule_eq t.top.content s.cells

end Stack

end LineScopes
