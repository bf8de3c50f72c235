import LineScopes.Proofs.Scan.Growth
import Mathlib.Data.List.Chain

/-!
# The segments of a line

At the end of a scan the segment for the added newline is taken away. What is left tiles the line,
with at most the newline behind it.

**Main definitions.** `Segment.clipped`, `Ending`.

**Main statements.** `finished_ending`: how the segments of a covered line end. `tiling_clipped`:
without the newline they tile the line.
-/

namespace LineScopes

namespace Tiling

variable {text : String}

/-- The segments lie one behind the other. -/
theorem isChain
    {segments : List Segment}
    {n : Nat}
    (h : Tiling text segments n) :
    segments.IsChain fun s t => t.last = s.first := by
  induction segments generalizing n with
  | nil =>
      exact .nil
  | cons s rest ih =>
      obtain ⟨-, -, -, hrest⟩ := h
      cases rest with
      | nil =>
          exact .singleton s
      | cons t rest =>
          exact .cons_cons hrest.1 (ih hrest)

/-- The oldest segment is at the start of the text. -/
theorem getLast_first
    {segments : List Segment}
    {n : Nat}
    (h : Tiling text segments n)
    (hne : segments ≠ []) :
    (segments.getLast hne).first = 0 := by
  induction segments generalizing n with
  | nil =>
      exact absurd rfl hne
  | cons s rest ih =>
      obtain ⟨-, -, -, hrest⟩ := h
      cases rest with
      | nil =>
          exact hrest
      | cons t rest =>
          rw [List.getLast_cons (List.cons_ne_nil t rest)]
          exact ih hrest (List.cons_ne_nil t rest)

/-- Segments begin and end at boundaries. -/
theorem boundary_of_mem
    {segments : List Segment}
    {n : Nat}
    (h : Tiling text segments n) :
    ∀ s ∈ segments, Text.IsBoundary text s.first ∧ Text.IsBoundary text s.last := by
  induction segments generalizing n with
  | nil =>
      simp
  | cons s rest ih =>
      obtain ⟨hlast, -, hn, hrest⟩ := h
      intro t ht
      rcases List.mem_cons.mp ht with rfl | ht
      · exact ⟨hrest.boundary, hlast ▸ hn⟩
      · exact ih hrest t ht

/-- A tiling of a longer text that ends inside a text tiles that text. -/
theorem of_append
    {line rest : String}
    {segments : List Segment}
    {n : Nat}
    (h : Tiling (line ++ rest) segments n)
    (hn : n ≤ line.utf8ByteSize) :
    Tiling line segments n := by
  induction segments generalizing n with
  | nil =>
      exact h
  | cons s older ih =>
      obtain ⟨hlast, hlt, hboundary, holder⟩ := h
      exact ⟨hlast, hlt, (Text.isBoundary_append_iff hn).mp hboundary, ih holder (by omega)⟩

end Tiling

/-- The part of a segment that lies in the line; `size` counts the added newline. -/
def Segment.clipped
    (size : Nat)
    (s : Segment) : Segment :=
  if size ≤ s.last then { s with last := size - 1 } else s

@[simp] theorem Segment.first_clipped
    (size : Nat)
    (s : Segment) :
    (s.clipped size).first = s.first := by
  unfold clipped
  split <;> rfl

theorem Segment.last_clipped_le
    (size : Nat)
    (s : Segment) :
    (s.clipped size).last ≤ s.last := by
  unfold clipped
  split
  · dsimp only
    omega
  · exact Nat.le_refl _

/-- How the segments of a covered line end: the newest one begins inside of the line, or the line
is empty and there is only one. -/
structure Ending
    (line : String)
    (s : Segment)
    (older : List Segment)
    (n : Nat) : Prop where
  tiling : Tiling (line ++ "\n") (s :: older) n
  inside : s.first < line.utf8ByteSize ∨ line.utf8ByteSize = 0 ∧ older = []
  le : n ≤ line.utf8ByteSize + 1

namespace Coverage

variable {line : String}

/-- One segment for the whole line. -/
theorem ending_whole
    (scopes : ScopeList) :
    Ending line ⟨0, line.utf8ByteSize + 1, scopes⟩ [] (line.utf8ByteSize + 1) where
  tiling := by
    have h := Text.isBoundary_utf8ByteSize (line ++ "\n")
    rw [String.utf8ByteSize_append] at h
    exact ⟨rfl, Nat.succ_pos _, h, rfl⟩
  inside := by
    rcases Nat.eq_zero_or_pos line.utf8ByteSize with hzero | hpos
    · exact .inr ⟨hzero, rfl⟩
    · exact .inl hpos
  le := Nat.le_refl _

/-- What is left without the newline reaches as far as the coverage does, up to the newline. -/
theorem dropNewline_ending
    {c : Coverage}
    (hc : c.Tiles (line ++ "\n"))
    (hreached : c.reached ≤ line.utf8ByteSize + 1)
    {s : Segment}
    {older : List Segment}
    (h : dropNewline (line.utf8ByteSize + 1) c.newest = s :: older) :
    ∃ n, Ending line s older n ∧ min c.reached line.utf8ByteSize ≤ n := by
  obtain ⟨newest, reached⟩ := c
  cases newest with
  | nil =>
      simp [dropNewline] at h
  | cons t rest =>
      obtain ⟨hlast, hlt, hboundary, hrest⟩ := hc
      simp only [dropNewline, Nat.add_sub_cancel] at h
      split at h
      · -- the newest segment is the newline alone, so the one before ends where the line does
        rename_i hfirst
        subst h
        have hs := hrest.2.1
        exact ⟨t.first, ⟨hrest, by omega, by omega⟩, by omega⟩
      · rename_i hfirst
        obtain ⟨rfl, rfl⟩ := List.cons.inj h
        dsimp only at hlast hlt hreached
        exact ⟨reached, ⟨⟨hlast, hlt, hboundary, hrest⟩, by omega, hreached⟩,
          Nat.min_le_left _ _⟩

/-- The finished segments end inside of the line, or with its newline. They reach as far as the
coverage does, up to the newline. -/
theorem finished_ending
    {c : Coverage}
    (hc : c.Tiles (line ++ "\n"))
    (hreached : c.reached ≤ line.utf8ByteSize + 1)
    (scopes : ScopeList) :
    ∃ s older n,
      c.finished scopes (line.utf8ByteSize + 1) = s :: older ∧
      Ending line s older n ∧
      min c.reached line.utf8ByteSize ≤ n := by
  unfold finished
  cases h : dropNewline (line.utf8ByteSize + 1) c.newest with
  | nil =>
      refine ⟨_, _, _, rfl, ending_whole scopes, ?_⟩
      omega
  | cons s older =>
      obtain ⟨n, hending, hn⟩ := dropNewline_ending hc hreached h
      exact ⟨s, older, n, rfl, hending, hn⟩

end Coverage

namespace Ending

variable {line : String} {s : Segment} {older : List Segment} {n : Nat}

/-- Without the newline the segments of a line that is not empty tile it. -/
theorem tiling_clipped
    (h : Ending line s older n)
    (hline : 0 < line.utf8ByteSize) :
    Tiling line (s.clipped (line.utf8ByteSize + 1) :: older) (min n line.utf8ByteSize) := by
  obtain ⟨hlast, hlt, hboundary, holder⟩ := h.tiling
  have hinside : s.first < line.utf8ByteSize := by
    rcases h.inside with hinside | ⟨hzero, -⟩
    · exact hinside
    · omega
  have holder' := holder.of_append (Nat.le_of_lt hinside)
  unfold Segment.clipped
  split
  · rename_i hnewline
    rw [Nat.min_eq_right (by omega)]
    exact ⟨rfl, hinside, Text.isBoundary_utf8ByteSize line, holder'⟩
  · rename_i hnewline
    rw [Nat.min_eq_left (by omega)]
    have hn := (Text.isBoundary_append_iff (by omega)).mp hboundary
    exact ⟨hlast, hlt, hn, holder'⟩

/-- An empty line has one segment, which is the newline. -/
theorem whole_of_empty
    (h : Ending line s older n)
    (hline : line.utf8ByteSize = 0) :
    s.first = 0 ∧ s.last = 1 ∧ older = [] := by
  obtain ⟨hlast, hlt, -, holder⟩ := h.tiling
  have hle := h.le
  rcases h.inside with hinside | ⟨-, rfl⟩
  · omega
  · have hzero : s.first = 0 := holder
    exact ⟨hzero, by omega, rfl⟩

end Ending

end LineScopes
