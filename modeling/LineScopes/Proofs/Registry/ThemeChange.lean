import LineScopes.Proofs.Scan.Depth
import LineScopes.Proofs.Scan.Repaint
import LineScopes.Registry.Basic

/-!
# A change of the theme

A grammar asks its registry for the theme whenever it pushes a scope. What was pushed before the
theme changed keeps its metadata in the frames of the state, and the lines that follow go on with
it. So these lines look as if the whole document had been tokenized under the new theme only if both
themes give the same metadata to the scopes that are open when the theme changes.

**Main definitions.** `Grammar.encodeLines`, `Registry.attribution`.

**Main statements.** `painted_of_encodeLines`: what a frame holds. `encodeLines_setTheme`: the lines
behind a change of the theme. `encodeLines_setTheme_source`: a change that shows too late.
-/

namespace LineScopes

namespace Grammar

/-- Tokenizes lines into runs of metadata one after the other. The last state is kept. -/
def encodeLines
    (g : Grammar)
    (nesting : Nat)
    (theme : Theme) :
    List (String × TimeLimit) → State → Except Error (List EncodedLine × State)
  | [], state => .ok ([], state)
  | (line, limit) :: rest, state => do
    let l ← (g.encodeLine nesting theme line state limit).outcome
    let (ls, last) ← g.encodeLines nesting theme rest l.state
    return (l :: ls, last)

variable (g : Grammar) (nesting : Nat) (theme theme' : Theme)

theorem encodeLines_cons
    (line : String)
    (limit : TimeLimit)
    (rest : List (String × TimeLimit))
    (state : State) :
    g.encodeLines nesting theme ((line, limit) :: rest) state =
      (g.encodeLine nesting theme line state limit).outcome.bind fun l =>
        (g.encodeLines nesting theme rest l.state).map fun p => (l :: p.1, p.2) := by
  rfl

/-- Lines behind others go on with the state left by these. -/
theorem encodeLines_append
    (first rest : List (String × TimeLimit))
    (state : State) :
    g.encodeLines nesting theme (first ++ rest) state =
      (g.encodeLines nesting theme first state).bind fun p =>
        (g.encodeLines nesting theme rest p.2).map fun q => (p.1 ++ q.1, q.2) := by
  induction first generalizing state with
  | nil =>
      rw [List.nil_append, encodeLines]
      simp only [Except.bind]
      cases g.encodeLines nesting theme rest state <;> rfl
  | cons entry first ih =>
      obtain ⟨line, limit⟩ := entry
      rw [List.cons_append, encodeLines_cons, encodeLines_cons]
      cases (g.encodeLine nesting theme line state limit).outcome with
      | error e =>
          rfl
      | ok l =>
          simp only [Except.bind, ih]
          cases g.encodeLines nesting theme first l.state with
          | error e =>
              rfl
          | ok p =>
              simp only [Except.map]
              cases g.encodeLines nesting theme rest p.2 <;> rfl

/-- Lines come to the same at every greater depth, if the depth is enough for all of them. -/
theorem encodeLines_deepens
    {n m : Nat}
    (hle : n ≤ m)
    (lines : List (String × TimeLimit))
    (state : State) :
    Deepens (g.encodeLines n theme lines state) (g.encodeLines m theme lines state) := by
  induction lines generalizing state with
  | nil =>
      exact .refl _
  | cons entry rest ih =>
      obtain ⟨line, limit⟩ := entry
      rw [encodeLines_cons, encodeLines_cons]
      refine (g.encodeLine_deepens hle theme line state limit).bind fun l => ?_
      exact (ih l.state).map _

/-- A line under another theme leaves the same state with painted frames. -/
theorem encodeLine_painted
    (line : String)
    (state : State)
    (limit : TimeLimit) :
    SameOutcome (fun l l' => l'.state = l.state.painted (g.scanner theme').attribution)
      (g.encodeLine nesting theme line state limit).outcome
      (g.encodeLine nesting theme' line (state.painted (g.scanner theme').attribution)
        limit).outcome := by
  rw [outcome_encodeLine, outcome_encodeLine]
  refine (scanLine_painted (g.scanner theme) (g.scanner theme').attribution nesting line state
    limit).map ?_
  rintro l _ - - rfl
  rfl

/-- Lines under another theme leave the same state with painted frames. -/
theorem encodeLines_painted
    (lines : List (String × TimeLimit))
    (state : State) :
    SameOutcome
      (fun p q => q.1.length = p.1.length ∧ q.2 = p.2.painted (g.scanner theme').attribution)
      (g.encodeLines nesting theme lines state)
      (g.encodeLines nesting theme' lines (state.painted (g.scanner theme').attribution)) := by
  induction lines generalizing state with
  | nil =>
      exact .ok ⟨rfl, rfl⟩
  | cons entry rest ih =>
      obtain ⟨line, limit⟩ := entry
      rw [encodeLines_cons, encodeLines_cons]
      refine (g.encodeLine_painted nesting theme theme' line state limit).bind ?_
      intro l l' _ _ hstate
      rw [hstate]
      refine (ih l.state).map ?_
      rintro p q - - ⟨hlength, hlast⟩
      exact ⟨congrArg Nat.succ hlength, hlast⟩

/-- The frames between the lines of a document hold the metadata of the theme of these lines. -/
theorem painted_of_encodeLines
    {lines : List (String × TimeLimit)}
    {ls : List EncodedLine}
    {state : State}
    (h : g.encodeLines nesting theme lines .initial = .ok (ls, state)) :
    state.painted (g.scanner theme).attribution = state := by
  have hpainted := g.encodeLines_painted nesting theme theme lines .initial
  rw [State.painted_initial, h] at hpainted
  cases hpainted with
  | ok hstate =>
      exact hstate.2.symm

theorem length_of_encodeLines
    {lines : List (String × TimeLimit)}
    {state : State}
    {p : List EncodedLine × State}
    (h : g.encodeLines nesting theme lines state = .ok p) :
    p.1.length = lines.length := by
  induction lines generalizing state p with
  | nil =>
      obtain rfl := Except.ok.inj h
      rfl
  | cons entry rest ih =>
      obtain ⟨line, limit⟩ := entry
      rw [encodeLines_cons] at h
      obtain ⟨l, -, h⟩ := exists_of_bind_eq_ok h
      obtain ⟨q, hq, rfl⟩ := exists_of_map_eq_ok h
      exact congrArg Nat.succ (ih hq)

end Grammar

namespace Registry

/-- What decides about the metadata of scopes in a grammar of the registry. -/
def attribution
    (r : Registry)
    (g : Grammar) : Attribution :=
  (g.scanner r.theme).attribution

/-- The grammars stay when the theme changes. -/
theorem compiled_setTheme
    (r : Registry)
    (document : ThemeDocument)
    (colorMap : Option (List String)) :
    (r.setTheme document colorMap).1.compiled = r.compiled := by
  unfold setTheme
  split <;> rfl

/-- The lines behind a change of the theme, with scans nested to any depth that is enough for the
lines before it. If the whole document is tokenized under the new theme from the start, these lines
go on with the same state, but with frames that are painted by the new theme. They come out the same
with the state carried over if both themes give the same metadata to the scopes that are open when
the theme changes. -/
theorem encodeLines_setTheme
    {r : Registry}
    {scope : String}
    {g : Grammar}
    (hg : r.grammar? scope = some g)
    (document : ThemeDocument)
    (colorMap : Option (List String))
    {depth : Nat}
    {first : List (String × TimeLimit)}
    {ls : List EncodedLine}
    {state : State}
    (hfirst : g.encodeLines depth r.theme first .initial = .ok (ls, state))
    {nesting : Nat}
    (hdepth : depth ≤ nesting)
    (rest : List (String × TimeLimit)) :
    let changed := (r.setTheme document colorMap).1
    changed.grammar? scope = some g ∧
      (g.encodeLines nesting changed.theme (first ++ rest) .initial).map
          (fun p => p.1.drop first.length) =
        (g.encodeLines nesting changed.theme rest (state.painted (changed.attribution g))).map
          Prod.fst ∧
      ((changed.attribution g).Agree (r.attribution g) state →
        (g.encodeLines nesting changed.theme rest state).map Prod.fst =
          (g.encodeLines nesting changed.theme (first ++ rest) .initial).map fun p =>
            p.1.drop first.length) := by
  intro changed
  have hdeep : g.encodeLines nesting r.theme first .initial = .ok (ls, state) :=
    (g.encodeLines_deepens r.theme hdepth first .initial).eq_of_ok hfirst
  have hwhole : (g.encodeLines nesting changed.theme (first ++ rest) .initial).map
      (fun p => p.1.drop first.length) =
        (g.encodeLines nesting changed.theme rest (state.painted (changed.attribution g))).map
          Prod.fst := by
    have hpainted := g.encodeLines_painted nesting r.theme changed.theme first .initial
    rw [State.painted_initial, hdeep] at hpainted
    rw [g.encodeLines_append]
    cases hnew : g.encodeLines nesting changed.theme first .initial with
    | error e =>
        rw [hnew] at hpainted
        cases hpainted
    | ok p =>
        rw [hnew] at hpainted
        cases hpainted with
        | ok hstate =>
            have hlength := g.length_of_encodeLines nesting changed.theme hnew
            have hlast : p.2 = state.painted (changed.attribution g) := hstate.2
            simp only [Except.bind, hlast]
            cases g.encodeLines nesting changed.theme rest
              (state.painted (changed.attribution g)) with
            | error e =>
                rfl
            | ok q =>
                simp [Except.map, ← hlength]
  refine ⟨?_, hwhole, fun hagree => ?_⟩
  · rw [grammar?, compiled_setTheme]
    exact hg
  · have hkept : state.painted (changed.attribution g) = state :=
      (State.painted_eq_of_agree hagree).trans (g.painted_of_encodeLines depth r.theme hfirst)
    rw [hwhole, hkept]

/-- A registry that knows a grammar for accents. -/
def accented : Registry :=
  ((add {
    scopeName := "source"
    patterns := [{ name := some "accent", matchPattern := some "é" }] } []) {
      loader := none
      engine := regexEngine
      options := {}
      theme := .plain
      library := .empty
      injections := []
      compiled := []
      loads := []
      asked := [] }).1

/-- A theme that gives a color to one scope. -/
def highlight (scope : String) : ThemeDocument where
  entries := [{ scope := some (.single scope), style := some { foreground := some "#FF0000" } }]

/-- The new theme has a color for accents alone, so the lines behind the change are as they should
be. -/
theorem encodeLines_setTheme_accent :
    ∃ g ls state, accented.grammar? "source" = some g ∧
      g.encodeLines 0 accented.theme [("née", none)] .initial = .ok (ls, state) ∧
      let changed := (accented.setTheme (highlight "accent") none).1
      (changed.attribution g).Agree (accented.attribution g) state ∧
        changed.grammar? "source" = some g ∧
        (g.encodeLines 0 changed.theme [("é", none)] state).map Prod.fst =
          (g.encodeLines 0 changed.theme [("née", none), ("é", none)] .initial).map fun p =>
            p.1.drop 1 := by
  have hscan : (accented.grammar? "source").map (fun g =>
      (g.encodeLines 0 accented.theme [("née", none)] .initial).map fun p =>
        decide (((accented.setTheme (highlight "accent") none).1.attribution g).Agree
          (accented.attribution g) p.2)) = some (.ok true) := by
    decide +kernel
  obtain ⟨g, hg, hscan⟩ := Option.map_eq_some_iff.mp hscan
  obtain ⟨⟨ls, state⟩, hfirst, hagree⟩ := exists_of_map_eq_ok hscan
  obtain ⟨hstays, -, hsame⟩ :=
    encodeLines_setTheme hg (highlight "accent") none hfirst (Nat.zero_le 0) [("é", none)]
  have hagrees := of_decide_eq_true hagree
  exact ⟨g, ls, state, hg, hfirst, hagrees, hstays, hsame hagrees⟩

/-- A color for the scope of the grammar itself does not show on the next line: the frame at the
bottom keeps the metadata it has got on the first line. -/
theorem encodeLines_setTheme_source :
    ∃ g ls state, accented.grammar? "source" = some g ∧
      g.encodeLines 0 accented.theme [("née", none)] .initial = .ok (ls, state) ∧
      let changed := (accented.setTheme (highlight "source") none).1
      changed.grammar? "source" = some g ∧ ∃ kept whole,
        g.encodeLines 0 changed.theme [("née", none)] state = .ok kept ∧
        g.encodeLines 0 changed.theme [("née", none), ("née", none)] .initial = .ok whole ∧
        kept.1.map EncodedLine.runs ≠ (whole.1.drop 1).map EncodedLine.runs := by
  have hscan : (accented.grammar? "source").map (fun g =>
      (g.encodeLines 0 accented.theme [("née", none)] .initial).bind fun p =>
        let changed := (accented.setTheme (highlight "source") none).1
        (g.encodeLines 0 changed.theme [("née", none)] p.2).bind fun kept =>
          (g.encodeLines 0 changed.theme [("née", none), ("née", none)] .initial).map fun whole =>
            decide (kept.1.map EncodedLine.runs = (whole.1.drop 1).map EncodedLine.runs)) =
      some (.ok false) := by
    decide +kernel
  obtain ⟨g, hg, hscan⟩ := Option.map_eq_some_iff.mp hscan
  obtain ⟨⟨ls, state⟩, hfirst, hscan⟩ := exists_of_bind_eq_ok hscan
  obtain ⟨kept, hkept, hscan⟩ := exists_of_bind_eq_ok hscan
  obtain ⟨whole, hwhole, hdiffer⟩ := exists_of_map_eq_ok hscan
  refine ⟨g, ls, state, hg, hfirst, ?_, kept, whole, hkept, hwhole, of_decide_eq_false hdiffer⟩
  rw [grammar?, compiled_setTheme]
  exact hg

end Registry

end LineScopes
