import LineScopes.Proofs.Scan.Growth

/-!
# What a step keeps

With a lawful engine a scan stays at boundaries of the text, and a step lets the coverage grow as
long as nested scans do.

**Main definitions.** `Cursor.Sound`, `Progress.Sound`.

**Main statements.** `step_sound`: a step keeps what a scan relies on. `step_grows`: it only lets
the coverage grow.
-/

namespace LineScopes

/-- What a scan relies on: it stands at a boundary, and the patterns kept in frames are lawful. -/
structure Cursor.Sound
    (text : String)
    (c : Cursor) : Prop where
  pos : Text.IsBoundary text c.pos
  state : c.state.Lawful

/-- What a step leads to: the scan goes on at a boundary that is not further back, or the whole
text is covered. -/
def Progress.Sound
    (text : String)
    (c : Cursor) : Progress → Prop
  | .onward d => d.Sound text ∧ c.pos ≤ d.pos
  | .finished d => d.state.Lawful ∧ text.utf8ByteSize ≤ d.coverage.reached

section Sound

variable {s : LineScanner} {rescan : Rescan} {text : String} {c : Cursor}

theorem Cursor.Sound.kept
    (he : s.grammar.engine.Lawful)
    (hc : c.Sound text) :
    (c.kept s.grammar).Sound text :=
  ⟨hc.pos, Cursor.kept_all (lasting_lawful he) hc.state⟩

theorem Cursor.Sound.covered
    (hc : c.Sound text) :
    (Progress.finished (c.covered text)).Sound text c := by
  refine ⟨hc.state, ?_⟩
  rw [Cursor.covered, Coverage.reached_extend]
  exact Nat.le_max_right _ _

theorem Cursor.Sound.resume
    (hc : c.Sound text)
    {m : PatternMatch}
    (hm : m.Within text c.pos)
    {k : Handling}
    (hnext : k.next.Lawful)
    (hrecovery : ∀ r, k.recovery = some r → r.Lawful)
    (coverage : Coverage) :
    (c.resume text m k coverage).Sound text c := by
  unfold Cursor.resume
  cases hk : k.recovery with
  | none =>
      dsimp only [Cursor.advance]
      split
      · rename_i hadvance
        exact ⟨⟨hm.boundary_last, hnext⟩, Nat.le_of_lt hadvance⟩
      · exact ⟨⟨hc.pos, hnext⟩, Nat.le_refl _⟩
  | some r =>
      have hr := hrecovery r hk
      dsimp only
      split
      · rename_i hend
        rw [Nat.min_eq_right hend]
        refine ⟨hr, ?_⟩
        rw [Coverage.reached_extend]
        exact Nat.le_max_right _ _
      · rename_i hinside
        have hlt := Text.lt_nextOffset text c.pos
        exact ⟨⟨hc.pos.nextOffset (by omega), hr⟩, Nat.le_of_lt hlt⟩

theorem Cursor.Sound.resume_grows
    (hc : c.Sound text)
    {m : PatternMatch}
    (hm : m.Within text c.pos)
    (k : Handling)
    (coverage : Coverage) :
    coverage.Grows text (c.resume text m k coverage).coverage := by
  have hmatched : coverage.Grows text (Cursor.matched m k coverage) :=
    Coverage.grows_extend _ _ hm.boundary_last
  unfold Cursor.resume
  cases k.recovery with
  | none =>
      dsimp only [Cursor.advance]
      split <;> exact hmatched
  | some r =>
      dsimp only
      split
      · rename_i hend
        rw [Nat.min_eq_right hend]
        exact hmatched.trans (Coverage.grows_extend _ _ (Text.isBoundary_utf8ByteSize text))
      · rename_i hinside
        have hlt := Text.lt_nextOffset text c.pos
        have hskip : Text.IsBoundary text (Text.nextOffset text c.pos) :=
          hc.pos.nextOffset (by omega)
        rw [Nat.min_eq_left (by omega)]
        exact hmatched.trans (Coverage.grows_extend _ _ hskip)

/-- With a lawful engine a step keeps what the scan relies on, whatever nested scans do. -/
theorem step_sound
    (he : s.grammar.engine.Lawful)
    (hc : c.Sound text)
    {p : Progress}
    (h : (step s rescan text c).outcome = .ok p) :
    p.Sound text c := by
  have hkept := hc.kept he
  rcases step_eq_ok h with rfl | ⟨m, k, coverage, hnext, hk, -, rfl⟩
  · exact hkept.covered
  · have hm : m.Within text c.pos :=
      nextMatch_within he hkept.state.top hkept.pos hnext
    obtain ⟨-, hafter, hrecovery⟩ := Cursor.handling_all (lasting_lawful he) hkept.state hk
    exact hkept.resume hm hafter hrecovery coverage

/-- If nested scans only let the coverage grow, so does a step. -/
theorem step_grows
    (he : s.grammar.engine.Lawful)
    (hrescan : rescan.Sound)
    (hc : c.Sound text)
    {p : Progress}
    (h : (step s rescan text c).outcome = .ok p) :
    c.coverage.Grows text p.coverage := by
  have hkept := hc.kept he
  rcases step_eq_ok h with rfl | ⟨m, k, coverage, hnext, hk, hgroups, rfl⟩
  · exact Coverage.grows_extend _ _ (Text.isBoundary_utf8ByteSize text)
  · have hm : m.Within text c.pos :=
      nextMatch_within he hkept.state.top hkept.pos hnext
    obtain ⟨hstate, -, -⟩ := Cursor.handling_all (lasting_lawful he) hkept.state hk
    have hsite : ((c.kept s.grammar).site text m k.state).Sound := ⟨hstate, hm.groups⟩
    have hfront := Coverage.grows_extend c.coverage (c.kept s.grammar).state.top.contentScopes
      hm.boundary_first
    exact (hfront.trans (handleCaptures_grows hrescan hsite hgroups)).trans
      (hkept.resume_grows hm k coverage)

end Sound

end LineScopes
