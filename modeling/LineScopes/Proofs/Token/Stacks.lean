import LineScopes.Proofs.Scan.Inside
import LineScopes.Proofs.Token.Partition

/-!
# Stacks between lines

A line leaves a stack whose lowest frame is that of the root patterns, with nothing but the scopes of
the grammar, and whose other frames belong to rules that stay open. The scopes of the frames are
nested in each other, and every token stands inside those of the lowest frame.

**Main definitions.** `Between`, `State.WellFormed`.

**Main statements.** `tokenizeLine_wellFormed`: for every line of every document.
-/

namespace LineScopes

/-- The states between the lines of a document: the first one, and what a line leaves. The theme, the
time limit and the depth of nested scans may change from line to line. -/
inductive Between (g : Grammar) : State → Prop
  | initial : Between g .initial
  | line {s : State} (hs : Between g s) {nesting : Nat} {theme : Theme} {line : String}
    {limit : TimeLimit} {l : TokenizedLine}
    (h : (g.tokenizeLine nesting theme line s limit).outcome = .ok l) : Between g l.state

/-- A stack as it is between lines. -/
structure State.WellFormed
    (g : Grammar)
    (s : State) : Prop where
  bottom_rule : s.bottom.rule = rootRule
  bottom_scopes : s.bottom.contentScopes = s.bottom.nameScopes
  bottom_closing : s.bottom.closing = none
  /-- Every other frame was opened by a rule that stays open. -/
  opened : ∀ f ∈ s.frames.dropLast, f.Opened g
  depth : s.depth = s.frames.length
  content : ∀ f ∈ s.frames, f.contentScopes.Extends f.nameScopes
  chain : s.frames.IsChain fun f below => f.nameScopes.Extends below.contentScopes

/-- The stack of a line is well formed. -/
theorem State.Stacked.wellFormed
    {g : Grammar}
    {root : ScopeList}
    {s : State}
    (hs : s.Stacked g true root) :
    s.WellFormed g where
  bottom_rule := hs.bottom.rule
  bottom_scopes := hs.bottom.contentScopes.trans hs.bottom.nameScopes.symm
  bottom_closing := hs.bottom.closing
  opened := fun _ hf => hs.opened_of_mem_dropLast hf
  depth := rfl
  content := fun _ hf => hs.content_extends hf
  chain := hs.isChain

theorem Token.exists_of_mem_ofSegments
    {size : Nat}
    {newest : List Segment}
    {t : Token}
    (h : t ∈ ofSegments size newest) :
    ∃ s ∈ newest, t.scopes = s.scopes.names := by
  cases newest with
  | nil =>
      cases h
  | cons s rest =>
      rcases List.mem_cons.mp (List.mem_reverse.mp h) with rfl | h
      · refine ⟨s, List.mem_cons_self, ?_⟩
        unfold withoutNewline
        split <;> rfl
      · obtain ⟨older, holder, rfl⟩ := List.mem_map.mp h
        exact ⟨older, List.mem_cons_of_mem s holder, rfl⟩

/-- The stack after the first line stands on a root frame, and so does every later one. -/
theorem Between.stacked
    {g : Grammar}
    {s : State}
    (h : Between g s) :
    s.isInitial = false → ∃ root, s.Stacked g true root := by
  induction h with
  | initial =>
      intro hlater
      cases hlater
  | @line s hs nesting theme line limit l h ih =>
      intro _
      rw [Grammar.outcome_tokenizeLine] at h
      obtain ⟨scanned, hscan, rfl⟩ := exists_of_map_eq_ok h
      obtain ⟨root, hinside⟩ := scanLine_inside (s := g.scanner theme) ih hscan
      exact ⟨root, hinside.state⟩

/-- Every line of a document leaves a well-formed stack, and its tokens stand inside the scopes of
the lowest frame. -/
theorem Grammar.tokenizeLine_wellFormed
    {g : Grammar}
    {previous : State}
    (hprevious : Between g previous)
    {nesting : Nat}
    {theme : Theme}
    {line : String}
    {limit : TimeLimit}
    {l : TokenizedLine}
    (h : (g.tokenizeLine nesting theme line previous limit).outcome = .ok l) :
    l.state.WellFormed g ∧
      ∀ t ∈ l.tokens, l.state.bottom.contentScopes.names <+: t.scopes := by
  rw [outcome_tokenizeLine] at h
  obtain ⟨scanned, hscan, rfl⟩ := exists_of_map_eq_ok h
  obtain ⟨root, hinside⟩ := scanLine_inside (s := g.scanner theme) hprevious.stacked hscan
  refine ⟨hinside.state.wellFormed, fun t ht => ?_⟩
  obtain ⟨s, hs, hscopes⟩ := Token.exists_of_mem_ofSegments ht
  rw [hinside.state.bottom.contentScopes, hscopes]
  exact (hinside.segments s hs).names

/-- A grammar for lists with emphasis, which ends with the character it begins with. -/
def emphasis : CompileRequest where
  sources := {
    library := .empty
    base := {
      scopeName := "text"
      patterns := [
        { name := some "list"
          beginPattern := some "^-", whilePattern := some "^-"
          patterns := some [
            { name := some "strong $1", contentName := some "words"
              beginPattern := some "([*_])", endPattern := some "\\1" }] }] } }

/-- Emphasis that goes on over the end of a line. -/
theorem tokenizeLine_wellFormed_emphasis :
    ∃ g a l,
      (Grammar.compile emphasis).outcome = .ok g ∧
      (g.tokenizeLine 0 .plain "-*a" .initial none).outcome = .ok a ∧
      a.state.frames.map Frame.closing = [some "\\*", none, none] ∧
      (g.tokenizeLine 0 .plain "-b*" a.state none).outcome = .ok l ∧
      l.tokens = [⟨0, 1, ["text", "list"]⟩, ⟨1, 2, ["text", "list", "strong", "*", "words"]⟩,
        ⟨2, 3, ["text", "list", "strong", "*"]⟩] ∧
      l.state.WellFormed g ∧
      ∀ t ∈ l.tokens, l.state.bottom.contentScopes.names <+: t.scopes := by
  have hlines : (Grammar.compile emphasis).outcome.bind (fun g =>
      (g.tokenizeLine 0 .plain "-*a" .initial none).outcome.bind fun a =>
        (g.tokenizeLine 0 .plain "-b*" a.state none).outcome.map fun l =>
          (a.state.frames.map Frame.closing, l.tokens)) =
      .ok ([some "\\*", none, none],
        [⟨0, 1, ["text", "list"]⟩, ⟨1, 2, ["text", "list", "strong", "*", "words"]⟩,
          ⟨2, 3, ["text", "list", "strong", "*"]⟩]) := by
    decide +kernel
  obtain ⟨g, hg, hlines⟩ := exists_of_bind_eq_ok hlines
  obtain ⟨a, ha, hlines⟩ := exists_of_bind_eq_ok hlines
  obtain ⟨l, hl, hlines⟩ := exists_of_map_eq_ok hlines
  obtain ⟨hclosing, htokens⟩ := Prod.mk.inj hlines
  have hwellFormed := Grammar.tokenizeLine_wellFormed (.line .initial ha) hl
  exact ⟨g, a, l, hg, ha, hclosing, hl, htokens, hwellFormed⟩

end LineScopes
