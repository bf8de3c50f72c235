import LineScopes.Proofs.Engine.Literal
import LineScopes.Proofs.Outcome
import LineScopes.Proofs.Scan.Run
import LineScopes.Proofs.Scan.Segments

/-!
# Tokens partition the line

The tokens of a line are its segments, with the added newline taken away. With a lawful engine they
follow each other without a gap from the start of the line, and to its end unless time was over.

**Main definitions.** `Token.Partition`.

**Main statements.** `tokenizeLine_partition`: for every grammar, line, state and limit.
-/

namespace LineScopes

namespace Token

/-- The tokens divide a line into parts that are not empty; an empty line has one empty token. -/
structure Partition
    (line : String)
    (stopped : Bool)
    (tokens : List Token) : Prop where
  ne_nil : tokens ≠ []
  head_first : (tokens.head ne_nil).first = 0
  consecutive : tokens.IsChain fun t u => t.last = u.first
  nonempty : line ≠ "" → ∀ t ∈ tokens, t.first < t.last
  of_empty : line = "" → tokens.map (fun t => (t.first, t.last)) = [(0, 0)]
  last_le : ∀ t ∈ tokens, t.last ≤ line.utf8ByteSize
  boundary : ∀ t ∈ tokens, Text.IsBoundary line t.first ∧ Text.IsBoundary line t.last
  complete : stopped = false → (tokens.getLast ne_nil).last = line.utf8ByteSize

@[simp] theorem first_ofSegment
    (s : Segment) :
    (ofSegment s).first = s.first := by
  rfl

@[simp] theorem last_ofSegment
    (s : Segment) :
    (ofSegment s).last = s.last := by
  rfl

/-- A token is clipped where its segment is. -/
theorem withoutNewline_ofSegment
    (size : Nat)
    (s : Segment) :
    (ofSegment s).withoutNewline size = ofSegment (s.clipped size) := by
  unfold withoutNewline Segment.clipped
  rw [last_ofSegment]
  split <;> rfl

theorem ofSegments_cons
    (size : Nat)
    (s : Segment)
    (older : List Segment) :
    ofSegments size (s :: older) = ((s.clipped size :: older).map ofSegment).reverse := by
  rw [ofSegments, withoutNewline_ofSegment, List.map_cons]

/-- Segments that tile a line become tokens that partition it. -/
theorem partition_of_tiling
    {line : String}
    {stopped : Bool}
    {segments : List Segment}
    {n : Nat}
    (h : Tiling line segments n)
    (hn : 0 < n)
    (hcomplete : stopped = false → n = line.utf8ByteSize) :
    Partition line stopped (segments.map ofSegment).reverse := by
  have hle := h.boundary.le_utf8ByteSize
  have hne : segments ≠ [] := by
    rintro rfl
    obtain rfl : n = 0 := h
    exact Nat.lt_irrefl 0 hn
  have hmem : ∀ t ∈ (segments.map ofSegment).reverse, ∃ s ∈ segments, ofSegment s = t := by
    simp
  refine
    { ne_nil := by simpa using hne
      head_first := ?_
      consecutive := ?_
      nonempty := ?_
      of_empty := ?_
      last_le := ?_
      boundary := ?_
      complete := ?_ }
  · rw [List.head_reverse, List.getLast_map, first_ofSegment]
    exact h.getLast_first hne
  · rw [List.isChain_reverse, List.isChain_map]
    exact h.isChain
  · intro _ t ht
    obtain ⟨s, hs, rfl⟩ := hmem t ht
    exact (h.last_le s hs).1
  · rintro rfl
    exact absurd hn (Nat.not_lt.mpr hle)
  · intro t ht
    obtain ⟨s, hs, rfl⟩ := hmem t ht
    exact Nat.le_trans (h.last_le s hs).2 hle
  · intro t ht
    obtain ⟨s, hs, rfl⟩ := hmem t ht
    exact h.boundary_of_mem s hs
  · intro hstopped
    rw [List.getLast_reverse, List.head_map, last_ofSegment, ← hcomplete hstopped]
    cases segments with
    | nil =>
        exact absurd rfl hne
    | cons s rest =>
        exact h.1

/-- The one token of an empty line. -/
theorem partition_of_empty
    {stopped : Bool}
    {t : Token}
    (hfirst : t.first = 0)
    (hlast : t.last = 0) :
    Partition "" stopped [t] where
  ne_nil := List.cons_ne_nil t []
  head_first := hfirst
  consecutive := .singleton t
  nonempty := fun h => absurd rfl h
  of_empty := fun _ => by simp [hfirst, hlast]
  last_le := by simp [hlast]
  boundary := by simp [hfirst, hlast]
  complete := fun _ => by simp [hlast]

end Token

/-- The segments of a scanned line become tokens that partition it. -/
theorem ScannedLine.Sound.partition
    {line : String}
    {l : ScannedLine}
    (h : l.Sound line) :
    Token.Partition line l.stopped (Token.ofSegments l.size l.segments) := by
  have hreached := h.reached_le
  have hsize := h.size
  rw [hsize] at hreached
  obtain ⟨s, older, n, hsegments, hending, hn⟩ :=
    Coverage.finished_ending h.tiles hreached l.state.top.contentScopes
  rw [ScannedLine.segments, hsize, hsegments, Token.ofSegments_cons]
  rcases Nat.eq_zero_or_pos line.utf8ByteSize with hzero | hpos
  · obtain ⟨hfirst, hlast, rfl⟩ := hending.whole_of_empty hzero
    obtain rfl : line = "" := String.utf8ByteSize_eq_zero_iff.mp hzero
    exact Token.partition_of_empty (by simpa using hfirst) (by simp [Segment.clipped, hlast])
  · have htiling := hending.tiling_clipped hpos
    refine Token.partition_of_tiling htiling ?_ ?_
    · exact Nat.lt_of_le_of_lt (Nat.zero_le _) htiling.2.1
    · intro hstopped
      have hfull := h.complete hstopped
      omega

theorem State.lawful_initial :
    State.initial.Lawful := by
  intro f hf
  obtain rfl := List.mem_singleton.mp hf
  intro s hs
  cases hs

/-- A line fails or ends as its scan does. -/
theorem Grammar.outcome_tokenizeLine
    (g : Grammar)
    (nesting : Nat)
    (theme : Theme)
    (line : String)
    (previous : State)
    (limit : TimeLimit) :
    (g.tokenizeLine nesting theme line previous limit).outcome =
      (scanLine (g.scanner theme) nesting line previous limit).outcome.map fun l =>
        ⟨Token.ofSegments l.size l.segments, l.state, l.stopped⟩ := by
  refine Reported.outcome_bind_eq_map fun l => ?_
  rw [Reported.outcome_bind, Coverage.outcome_finish]
  rfl

/-- The state left by a line is lawful again, and its tokens partition the line. -/
theorem Grammar.tokenizeLine_partition
    {g : Grammar}
    (he : g.engine.Lawful)
    {previous : State}
    (hprevious : previous.Lawful)
    {nesting : Nat}
    {theme : Theme}
    {line : String}
    {limit : TimeLimit}
    {l : TokenizedLine}
    (h : (g.tokenizeLine nesting theme line previous limit).outcome = .ok l) :
    Token.Partition line l.stopped l.tokens ∧ l.state.Lawful := by
  rw [outcome_tokenizeLine] at h
  obtain ⟨scanned, hscan, rfl⟩ := exists_of_map_eq_ok h
  have hsound := scanLine_sound (s := g.scanner theme) he hprevious hscan
  exact ⟨hsound.partition, hsound.state⟩

/-- A grammar with one rule. -/
def accents : Grammar :=
  Literal.grammar #[.group ⟨none, none, [1], false⟩, .simple ⟨some ⟨"accent"⟩, ⟨"é"⟩, []⟩]

/-- A line with a character of two bytes. -/
theorem tokenizeLine_partition_accents :
    ∃ l : TokenizedLine,
      (accents.tokenizeLine 0 .plain "née" .initial none).outcome = .ok l ∧
      l.tokens = [⟨0, 1, ["source"]⟩, ⟨1, 3, ["source", "accent"]⟩, ⟨3, 4, ["source"]⟩] ∧
      Token.Partition "née" l.stopped l.tokens := by
  have htokens : (accents.tokenizeLine 0 .plain "née" .initial none).outcome.map (·.tokens) =
      .ok [⟨0, 1, ["source"]⟩, ⟨1, 3, ["source", "accent"]⟩, ⟨3, 4, ["source"]⟩] := by
    decide +kernel
  obtain ⟨l, hl, htokens⟩ := exists_of_map_eq_ok htokens
  exact ⟨l, hl, htokens,
    (Grammar.tokenizeLine_partition literalEngine_lawful State.lawful_initial hl).1⟩

end LineScopes
