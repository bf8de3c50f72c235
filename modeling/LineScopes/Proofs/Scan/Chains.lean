import LineScopes.Scan.State
import Mathlib.Data.List.Basic

/-!
# Shared frames

In memory a state is a chain of frames, each linked to the one under it, and so is a list of scopes.
Cells are never changed: an operation makes the cells it needs in front of cells that are there
already, so many chains end in the same cells. A cell is known by its address. Where two chains have
a cell in common they are the same from there on, and comparing addresses saves the comparison of
what is behind them.

**Main definitions.** `Chain`, `Chain.Lives`, `Chain.sameCell`, `Chain.agree`: chains and their
shortcuts. `SharedFrame`, `Stack`, `Heap`: states in memory, with their operations.

**Main statements.** `Lives.eq_of_sameCell`, `Lives.agree_iff`: the shortcuts for chains in memory
make no difference.
-/

namespace LineScopes

/-- A place in memory, with what is stored there. -/
structure Cell (α : Type) where
  address : Nat
  content : α

/-- Cells that are linked to one another. -/
abbrev Chain (α : Type) :=
  List (Cell α)

namespace Chain

variable {α β : Type} {memory memory' : List (Chain α)} {s t : Chain α}

/-- Every cell of a chain is in memory, in front of the cells behind it. -/
def Lives (memory : List (Chain α)) : Chain α → Prop
  | [] => True
  | cell :: rest => memory[cell.address]? = some (cell :: rest) ∧ Lives memory rest

/-- Whether two chains start with the same cell. -/
def sameCell (s t : Chain α) : Bool :=
  s.head?.map Cell.address == t.head?.map Cell.address

/-- The comparison of chains from their starts to the first cell they have in common. -/
def agree
    [BEq β]
    (key : α → β) : Chain α → Chain α → Bool
  | [], [] => true
  | a :: s, b :: t =>
      a.address == b.address || (key a.content == key b.content && agree key s t)
  | _, _ => false

/-- What is in memory stays where it is. -/
theorem getElem?_mono
    {i : Nat}
    (hmore : memory <+: memory')
    (hi : memory[i]? = some s) :
    memory'[i]? = some s := by
  obtain ⟨more, rfl⟩ := hmore
  rw [List.getElem?_append_left (List.getElem?_eq_some_iff.mp hi).1, hi]

theorem Lives.mono
    (hs : Lives memory s)
    (hmore : memory <+: memory') :
    Lives memory' s := by
  induction s with
  | nil =>
      trivial
  | cons cell rest ih =>
      exact ⟨getElem?_mono hmore hs.1, ih hs.2⟩

@[simp] theorem sameCell_self
    (s : Chain α) :
    sameCell s s = true := by
  simp [sameCell]

/-- Chains in memory that start with the same cell are the same. -/
theorem Lives.eq_of_sameCell
    (hs : Lives memory s)
    (ht : Lives memory t)
    (h : sameCell s t = true) :
    s = t := by
  cases s with
  | nil =>
      cases t with
      | nil =>
          rfl
      | cons cell t =>
          cases h
  | cons cell s =>
      cases t with
      | nil =>
          cases h
      | cons cell' t =>
          have haddress : cell.address = cell'.address := by
            simpa [sameCell] using h
          exact Option.some.inj (hs.1.symm.trans (haddress ▸ ht.1))

/-- Stopping at a common cell does not change what a comparison says. -/
theorem Lives.agree_iff
    [BEq β] [LawfulBEq β]
    (key : α → β)
    (hs : Lives memory s)
    (ht : Lives memory t) :
    agree key s t = true ↔ s.map (fun c => key c.content) = t.map fun c => key c.content := by
  induction s generalizing t with
  | nil =>
      cases t <;> simp [agree]
  | cons cell s ih =>
      cases t with
      | nil =>
          simp [agree]
      | cons cell' t =>
          by_cases haddress : cell.address = cell'.address
          · have hsame : cell :: s = cell' :: t :=
              hs.eq_of_sameCell ht (by simp [sameCell, haddress])
            simp [agree, List.cons.inj hsame]
          · simp [agree, haddress, ih hs.2 ht.2]

end Chain

/-- A scope of a list, with the metadata of the path up to it. -/
abbrev ScopeChain :=
  Chain (String × Metadata)

namespace ScopeChain

/-- The scope list that a chain stands for. -/
def list (c : ScopeChain) : ScopeList :=
  ⟨⟨c.map fun cell => cell.content.1⟩, c.map fun cell => cell.content.2⟩

/-- The comparison of scope lists. -/
def agree (c d : ScopeChain) : Bool :=
  Chain.agree (fun scope => scope) c d

end ScopeChain

/-- A frame as it is stored. -/
structure SharedFrame where
  /-- The number of frames up to this one. -/
  depth : Nat
  rule : RuleId
  enter : Option Nat
  anchor : Option Nat
  reachesEnd : Bool
  closing : Option String
  patterns : Option PatternSet
  nameScopes : ScopeChain
  contentScopes : ScopeChain

namespace SharedFrame

/-- The lowest frame of a document. -/
def root (scopes : ScopeChain) : SharedFrame where
  depth := 1
  rule := rootRule
  enter := none
  anchor := none
  reachesEnd := false
  closing := none
  patterns := none
  nameScopes := scopes
  contentScopes := scopes

/-- Forgets the places on the line. -/
def reset (f : SharedFrame) : SharedFrame :=
  { f with enter := none, anchor := none }

theorem reset_eq_self_iff
    {f : SharedFrame} :
    f.reset = f ↔ f.enter = none ∧ f.anchor = none := by
  cases f
  simp [reset, eq_comm]

/-- The frame that a stored one stands for. -/
def view
    (f : SharedFrame)
    (untouched : Bool) : Frame where
  rule := f.rule
  enter := f.enter
  anchor := f.anchor
  reachesEnd := f.reachesEnd
  closing := f.closing
  patterns := f.patterns
  nameScopes := f.nameScopes.list
  contentScopes := f.contentScopes.list
  untouched := untouched

end SharedFrame

/-- The frame in a cell. The cell with address 0 holds the lowest frame before any line. -/
def viewCell (cell : Cell SharedFrame) : Frame :=
  cell.content.view (cell.address == 0)

/-- A state in memory. -/
structure Stack where
  top : Cell SharedFrame
  /-- The cells under the top, the highest first. -/
  below : Chain SharedFrame

namespace Stack

/-- The state before the first line of any document. -/
def initial : Stack :=
  ⟨⟨0, .root []⟩, []⟩

/-- All cells, the top first. -/
def cells (s : Stack) : Chain SharedFrame :=
  s.top :: s.below

/-- The state that a stack stands for. -/
def view (s : Stack) : State :=
  ⟨viewCell s.top, s.below.map viewCell⟩

/-- The depth stored in the top frame. -/
def depth (s : Stack) : Nat :=
  s.top.content.depth

/-- Removes the top frame; the lowest frame cannot be removed. -/
def pop? (s : Stack) : Option Stack :=
  match s.below with
  | [] => none
  | cell :: rest => some ⟨cell, rest⟩

/-- Removes the top frame unless it is the only one. -/
def pop (s : Stack) : Stack :=
  s.pop?.getD s

/-- The comparison of stacks. Stacks with the same top cell are equal; otherwise depths, rules and
end patterns are compared up to the first common cell, and then the content scopes of the tops. -/
def equals (s t : Stack) : Bool :=
  s.top.address == t.top.address ||
    (Chain.agree (fun f : SharedFrame => (f.depth, f.rule, f.closing)) s.cells t.cells &&
      s.top.content.contentScopes.agree t.top.content.contentScopes)

/-- Whether one of the first cells, as long as they were entered where `f` was, has its rule. -/
def findRule (f : SharedFrame) : Chain SharedFrame → Bool
  | [] => false
  | cell :: rest =>
      cell.content.enter == f.enter && (cell.content.rule == f.rule || findRule f rest)

/-- Whether a rule is the one on top of `t` and was entered at the same place. -/
def hasSameRuleAs (s t : Stack) : Bool :=
  findRule t.top.content s.cells

end Stack

/-- The memory: for every address the chain that starts there. Addresses are not given out again. -/
structure Heap where
  frames : List (Chain SharedFrame)
  scopes : List ScopeChain

namespace Heap

/-- The memory with the state before any line. -/
def initial : Heap :=
  ⟨[Stack.initial.cells], []⟩

/-- Makes a cell for a scope. -/
def scope
    (h : Heap)
    (name : String)
    (m : Metadata)
    (outer : ScopeChain) : ScopeChain × Heap :=
  let made := ⟨h.scopes.length, name, m⟩ :: outer
  (made, { h with scopes := h.scopes ++ [made] })

/-- Makes a cell for a frame. -/
def make
    (h : Heap)
    (f : SharedFrame)
    (below : Chain SharedFrame) : Stack × Heap :=
  let made : Stack := ⟨⟨h.frames.length, f⟩, below⟩
  (made, { h with frames := h.frames ++ [made.cells] })

/-- The state at the start of the first line. -/
def root
    (h : Heap)
    (scopes : ScopeChain) : Stack × Heap :=
  h.make (.root scopes) []

/-- Puts a frame on top. -/
def push
    (h : Heap)
    (s : Stack)
    (f : SharedFrame) : Stack × Heap :=
  h.make { f with depth := s.depth + 1 } s.cells

/-- Replaces the content scopes of the top frame, unless it has the same already. -/
def withContentScopes
    (h : Heap)
    (s : Stack)
    (scopes : ScopeChain) : Stack × Heap :=
  if Chain.sameCell s.top.content.contentScopes scopes then (s, h)
  else h.make { s.top.content with contentScopes := scopes } s.below

/-- Replaces the resolved end pattern of the top frame, unless it has the same already. -/
def withClosing
    (h : Heap)
    (s : Stack)
    (text : String) : Stack × Heap :=
  if s.top.content.closing = some text then (s, h)
  else h.make { s.top.content with closing := some text, patterns := none } s.below

/-- Puts the top frame of `s` on other cells, without its places on the line; if nothing changes,
the cell is kept. -/
def moveTop
    (h : Heap)
    (s : Stack)
    (below : Chain SharedFrame) : Stack × Heap :=
  if Chain.sameCell below s.below && s.top.content.enter.isNone &&
      s.top.content.anchor.isNone then (s, h)
  else h.make s.top.content.reset below

/-- Forgets the places on the line, from the lowest frame up. -/
def rebuild
    (h : Heap)
    (top : Cell SharedFrame) : Chain SharedFrame → Stack × Heap
  | [] => h.moveTop ⟨top, []⟩ []
  | cell :: rest =>
      let r := h.rebuild cell rest
      r.2.moveTop ⟨top, cell :: rest⟩ r.1.cells

/-- Forgets the places on the line in every frame. -/
def reset
    (h : Heap)
    (s : Stack) : Stack × Heap :=
  if s.top.address = 0 then (s, h)
  else h.rebuild s.top s.below

end Heap
end LineScopes
