import LineScopes.Proofs.Scan.Sharing

/-!
# Histories of stacks

Stacks are made from the state before any line and from the lowest frames of documents, by pushing,
popping, forgetting places and replacing end patterns and scopes. Whatever is done, and on whatever
stack made before, the stacks behave as the states that the same operations give.

**Main definitions.** `Heap.Made`: all that operations make. `Heap.Lawful`: the laws of stacks.

**Main statements.** `Made.sound`: the stacks stand for the states. `stacks_of_made`: they keep the
laws.
-/

namespace LineScopes
namespace Heap

variable {h : Heap} {known : List (Stack × State)}

/-- What comes out of operations on stacks, next to what comes out of the same operations on
states. An operation can be carried out on every stack that has been made before. -/
inductive Made : Heap → List (Stack × State) → Prop
  | initial : Made .initial [(.initial, .initial)]
  | scope {h known outer} (name : String) (m : Metadata) (hmade : Made h known)
      (houter : outer.Lives h.scopes) :
    Made (h.scope name m outer).2 known
  | root {h known scopes} (hmade : Made h known) (hscopes : scopes.Lives h.scopes) :
    Made (h.root scopes).2 (((h.root scopes).1, .root scopes.list) :: known)
  | push {h known s a f} (hmade : Made h known) (hs : (s, a) ∈ known)
      (hname : f.nameScopes.Lives h.scopes) (hcontent : f.contentScopes.Lives h.scopes) :
    Made (h.push s f).2 (((h.push s f).1, a.push (f.view false)) :: known)
  | pop? {h known s a s' a'} (hmade : Made h known) (hs : (s, a) ∈ known)
      (hpop : s.pop? = some s') (hpop' : a.pop? = some a') :
    Made h ((s', a') :: known)
  | pop {h known s a} (hmade : Made h known) (hs : (s, a) ∈ known) :
    Made h ((s.pop, a.pop) :: known)
  | reset {h known s a} (hmade : Made h known) (hs : (s, a) ∈ known) :
    Made (h.reset s).2 (((h.reset s).1, a.reset) :: known)
  | withClosing {h known s a} (text : String) (hmade : Made h known) (hs : (s, a) ∈ known) :
    Made (h.withClosing s text).2
      (((h.withClosing s text).1, a.mapTop fun f => f.withClosing text) :: known)
  | withContentScopes {h known s a scopes} (hmade : Made h known) (hs : (s, a) ∈ known)
      (hscopes : scopes.Lives h.scopes) :
    Made (h.withContentScopes s scopes).2
      (((h.withContentScopes s scopes).1,
        a.mapTop fun f => f.withContentScopes scopes.list) :: known)

/-- The stacks are in memory, and stand for the states next to them. -/
structure Sound
    (h : Heap)
    (known : List (Stack × State)) : Prop where
  started : h.Started
  stands : ∀ {s a}, (s, a) ∈ known → h.Stands s.cells
  view : ∀ {s a}, (s, a) ∈ known → s.view = a

/-- An operation whose stack stands for the state next to it. -/
theorem Sound.cons
    (hsound : h.Sound known)
    {r : Stack × Heap}
    {a : State}
    (hr : h.Yields r a) :
    r.2.Sound ((r.1, a) :: known) := by
  refine ⟨hsound.started.mono hr.grows, fun hmem => ?_, fun hmem => ?_⟩
  · rcases List.mem_cons.mp hmem with hnew | hold
    · rw [(Prod.mk.inj hnew).1]
      exact hr.stands
    · exact (hsound.stands hold).mono hr.grows
  · rcases List.mem_cons.mp hmem with hnew | hold
    · obtain ⟨rfl, rfl⟩ := Prod.mk.inj hnew
      exact hr.view
    · exact hsound.view hold

theorem Stands.pop?
    {s t : Stack}
    (hs : h.Stands s.cells)
    (hpop : s.pop? = some t) :
    h.Stands t.cells := by
  obtain ⟨top, below⟩ := s
  cases below with
  | nil =>
      cases hpop
  | cons cell rest =>
      rw [← Option.some.inj hpop]
      exact hs.2.2

theorem Stands.pop
    {s : Stack}
    (hs : h.Stands s.cells) :
    h.Stands s.pop.cells := by
  unfold Stack.pop
  cases hpop : s.pop? with
  | none =>
      exact hs
  | some t =>
      exact hs.pop? hpop

/-- Whatever is done, the stacks stand for the states. -/
theorem Made.sound
    (hmade : Made h known) :
    h.Sound known := by
  induction hmade with
  | initial =>
      refine ⟨rfl, fun hmem => ?_, fun hmem => ?_⟩
      · rw [(Prod.mk.inj (List.mem_singleton.mp hmem)).1]
        exact ⟨rfl, ⟨rfl, trivial, trivial⟩, trivial⟩
      · obtain ⟨rfl, rfl⟩ := Prod.mk.inj (List.mem_singleton.mp hmem)
        rfl
  | @scope h known outer name m hmade houter ih =>
      have hmore : h.Grows (h.scope name m outer).2 :=
        ⟨List.prefix_rfl, List.prefix_append _ _⟩
      exact ⟨ih.started.mono hmore, fun hmem => (ih.stands hmem).mono hmore, ih.view⟩
  | root hmade hscopes ih =>
      exact ih.cons (root_yields ih.started hscopes)
  | push hmade hs hname hcontent ih =>
      obtain rfl := ih.view hs
      exact ih.cons (push_yields ih.started (ih.stands hs) hname hcontent)
  | pop? hmade hs hpop hpop' ih =>
      obtain rfl := ih.view hs
      have hview := Stack.pop?_view _ ▸ hpop'
      rw [hpop] at hview
      exact ih.cons (((ih.stands hs).pop? hpop).yields (Option.some.inj hview))
  | pop hmade hs ih =>
      obtain rfl := ih.view hs
      exact ih.cons ((ih.stands hs).pop.yields (Stack.pop_view _))
  | reset hmade hs ih =>
      obtain rfl := ih.view hs
      exact ih.cons (reset_yields ih.started (ih.stands hs))
  | withClosing text hmade hs ih =>
      obtain rfl := ih.view hs
      exact ih.cons (withClosing_yields ih.started (ih.stands hs) text)
  | withContentScopes hmade hs hscopes ih =>
      obtain rfl := ih.view hs
      exact ih.cons (withContentScopes_yields ih.started (ih.stands hs) hscopes)

section Sound

variable {s t : Stack} {a b : State}

theorem Sound.depths
    (hsound : h.Sound known)
    (hs : (s, a) ∈ known) :
    s.depth = a.depth ∧
      s.cells.map (fun c => c.content.depth) = (List.range' 1 a.depth).reverse := by
  obtain rfl := hsound.view hs
  have hlength : s.view.depth = s.cells.length := by
    simp [State.depth, Stack.view, Stack.cells]
  rw [hlength]
  exact ⟨(hsound.stands hs).2.1.depth, (hsound.stands hs).depths⟩

theorem Sound.reset
    (hsound : h.Sound known)
    (hs : (s, a) ∈ known) :
    h.Yields (h.reset s) a.reset := by
  rw [← hsound.view hs]
  exact reset_yields hsound.started (hsound.stands hs)

theorem Sound.equals
    (hsound : h.Sound known)
    (hs : (s, a) ∈ known)
    (ht : (t, b) ∈ known) :
    s.equals t = a.equals b := by
  rw [Stack.equals_eq (hsound.stands hs) (hsound.stands ht), hsound.view hs, hsound.view ht]

theorem Sound.equals_reset_left
    (hsound : h.Sound known)
    (hs : (s, a) ∈ known)
    (ht : (t, b) ∈ known) :
    (h.reset s).1.equals t = s.equals t := by
  have hr := hsound.reset hs
  rw [hsound.equals hs ht, Stack.equals_eq hr.stands ((hsound.stands ht).mono hr.grows), hr.view,
    hsound.view ht, State.equals_reset_left]

theorem Sound.equals_reset_right
    (hsound : h.Sound known)
    (hs : (s, a) ∈ known)
    (ht : (t, b) ∈ known) :
    s.equals (h.reset t).1 = s.equals t := by
  have hr := hsound.reset ht
  rw [hsound.equals hs ht, Stack.equals_eq ((hsound.stands hs).mono hr.grows) hr.stands, hr.view,
    hsound.view hs, State.equals_reset_right]

theorem Sound.hasSameRuleAs
    (hsound : h.Sound known)
    (hs : (s, a) ∈ known)
    (ht : (t, b) ∈ known) :
    s.hasSameRuleAs t = a.hasSameRuleAs b := by
  rw [Stack.hasSameRuleAs_eq, hsound.view hs, hsound.view ht]

end Sound

/-- The laws of stacks that have been made. -/
structure Lawful
    (h : Heap)
    (known : List (Stack × State)) : Prop where
  /-- A stack stands for the state next to it, and both can be popped or neither. -/
  view : ∀ {s a}, (s, a) ∈ known → s.view = a ∧ s.pop?.map Stack.view = a.pop?
  /-- The depth counts the frames, and so does the depth of every frame below. -/
  depths : ∀ {s a}, (s, a) ∈ known → s.depth = a.depth ∧ a.depth = a.frames.length ∧
    s.cells.map (fun c => c.content.depth) = (List.range' 1 a.depth).reverse
  /-- Forgetting places clears both places of every frame and changes nothing else of any frame. -/
  reset : ∀ {s a}, (s, a) ∈ known → (h.reset s).1.view = a.reset ∧
    (h.reset s).1.cells.map Cell.content =
      s.cells.map fun c => { c.content with enter := none, anchor := none }
  /-- Forgetting places once more does nothing, and makes no cells. -/
  reset_reset : ∀ {s a}, (s, a) ∈ known →
    (h.reset s).2.reset (h.reset s).1 = h.reset s ∧ a.reset.reset = a.reset
  reset_equals : ∀ {s a}, (s, a) ∈ known → (h.reset s).1.equals s = true
  /-- The comparison of stacks is that of the states. -/
  equals : ∀ {s a t b}, (s, a) ∈ known → (t, b) ∈ known → s.equals t = a.equals b
  equals_refl : ∀ {s a}, (s, a) ∈ known → s.equals s = true
  equals_symm : ∀ {s a t b}, (s, a) ∈ known → (t, b) ∈ known →
    s.equals t = true → t.equals s = true
  equals_trans : ∀ {s a t b u c}, (s, a) ∈ known → (t, b) ∈ known → (u, c) ∈ known →
    s.equals t = true → t.equals u = true → s.equals u = true
  /-- Forgetting places makes no difference to comparisons. -/
  equals_reset : ∀ {s a t b}, (s, a) ∈ known → (t, b) ∈ known →
    (h.reset s).1.equals t = s.equals t ∧ s.equals (h.reset t).1 = s.equals t
  /-- A rule is found if one of the frames on top has it, up to the first one that was entered
  elsewhere. -/
  hasSameRuleAs : ∀ {s a t b}, (s, a) ∈ known → (t, b) ∈ known →
    s.hasSameRuleAs t = a.hasSameRuleAs b ∧ (s.hasSameRuleAs t = true ↔ a.EnteredBefore b)

/-- Stacks made by any operations stand for the states that the same operations give, and keep the
laws of stacks. -/
theorem stacks_of_made
    (hmade : Made h known) :
    h.Lawful known := by
  have hsound := hmade.sound
  have hrefl : ∀ {s a}, (s, a) ∈ known → s.equals s = true := fun hs =>
    (hsound.equals hs hs).trans (State.equals_refl _)
  exact {
    view := fun hs => ⟨hsound.view hs, by rw [Stack.pop?_view, hsound.view hs]⟩
    depths := fun hs => ⟨(hsound.depths hs).1, rfl, (hsound.depths hs).2⟩
    reset := fun hs =>
      ⟨(hsound.reset hs).view, reset_contents hsound.started (hsound.stands hs)⟩
    reset_reset := fun hs =>
      ⟨reset_reset hsound.started (hsound.stands hs), State.reset_reset _⟩
    reset_equals := fun hs => (hsound.equals_reset_left hs hs).trans (hrefl hs)
    equals := hsound.equals
    equals_refl := hrefl
    equals_symm := fun hs ht h => by
      rw [hsound.equals ht hs, State.equals_comm, ← hsound.equals hs ht]
      exact h
    equals_trans := fun hs ht hu h h' => by
      rw [hsound.equals hs ht] at h
      rw [hsound.equals ht hu] at h'
      rw [hsound.equals hs hu]
      exact State.equals_trans h h'
    equals_reset := fun hs ht =>
      ⟨hsound.equals_reset_left hs ht, hsound.equals_reset_right hs ht⟩
    hasSameRuleAs := fun hs ht =>
      ⟨hsound.hasSameRuleAs hs ht, by
        rw [hsound.hasSameRuleAs hs ht, State.hasSameRuleAs_iff_enteredBefore]⟩ }

/-- The scope of a document. -/
def sourceScope : ScopeChain × Heap :=
  Heap.initial.scope "source.js" 1 []

/-- The lowest frame of the document. -/
def lowest : Stack × Heap :=
  sourceScope.2.root sourceScope.1

/-- A frame for a rule that is entered at offset 2. -/
def block : SharedFrame :=
  { SharedFrame.root sourceScope.1 with rule := 4, enter := some 2, anchor := some 3 }

/-- The rule has been entered. -/
def entered : Stack × Heap :=
  lowest.2.push lowest.1 block

/-- The rule has been entered again at the same place. -/
def reentered : Stack × Heap :=
  entered.2.push entered.1 block

/-- The stacks that have been made on the way, with their states. -/
def reentry : List (Stack × State) :=
  let outer := State.root sourceScope.1.list
  let inner := outer.push (block.view false)
  [(reentered.1, inner.push (block.view false)), (entered.1, inner), (lowest.1, outer),
    (.initial, .initial)]

/-- The rule is found when it is entered again. Without its places the stack is still equal to the
one before, although they have no cell in common but the lowest. -/
theorem stacks_of_made_reentered :
    Made reentered.2 reentry ∧ entered.1.hasSameRuleAs reentered.1 = true ∧
      (reentered.2.reset reentered.1).1.equals reentered.1 = true ∧
      (reentered.2.reset reentered.1).1.cells.map Cell.address = [5, 4, 1] ∧
      reentered.1.cells.map Cell.address = [3, 2, 1] := by
  have hscope : sourceScope.1.Lives sourceScope.2.scopes :=
    ⟨rfl, trivial⟩
  have hnothing : Chain.Lives Heap.initial.scopes [] :=
    trivial
  have hlowest : Made lowest.2 _ :=
    .root (.scope "source.js" 1 .initial hnothing) hscope
  have hentered : Made entered.2 _ :=
    hlowest.push List.mem_cons_self hscope hscope
  have hmade : Made reentered.2 reentry :=
    hentered.push List.mem_cons_self hscope hscope
  have hlawful := stacks_of_made hmade
  refine ⟨hmade, ?_, hlawful.reset_equals List.mem_cons_self, ?_, ?_⟩
  · rw [(hlawful.hasSameRuleAs (List.mem_cons_of_mem _ List.mem_cons_self)
      List.mem_cons_self).1]
    decide
  · decide
  · decide

end Heap
end LineScopes
