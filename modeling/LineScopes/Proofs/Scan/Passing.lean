import LineScopes.Proofs.Engine.Literal
import LineScopes.Proofs.Scan.Closing

/-!
# Rules that do not stay open

A rule for a single match is entered and left by the same step, so the rules that are open should be
the same before and behind it. They are if the match ends behind the place of the scan. A match that
ends there is handled a second time as one that got stuck: the frame of the rule is gone by then,
and what is left is the region that the match lies in.

**Main definitions.** `Cursor.Passes`, `Passages`, `peekingEngine`.

**Main statements.** `state_of_passes`: the stack after a step. `Passages.state`: the stack after
many steps. `step_passes_iff`: when the open rules are the same. `step_of_parenthesis`: a
parenthesis that is left because of a match in it.
-/

namespace LineScopes

/-- The next match belongs to a rule for a single match. -/
structure Cursor.Passes
    (s : LineScanner)
    (text : String)
    (c : Cursor)
    (m : PatternMatch)
    (r : MatchRule) : Prop where
  next : (nextMatch s.grammar ((c.kept s.grammar).point text)
    (c.kept s.grammar).state.top).outcome = .ok (some m)
  rule : ∃ id, m.label = .rule id ∧ s.grammar.rule? id = some (.simple r)

section Step

variable {s : LineScanner} {rescan : Rescan} {text : String} {c : Cursor} {m : PatternMatch}
variable {r : MatchRule} {p : Progress}

/-- The rule is entered and left, and if the match does not end behind the place of the scan, so is
the frame on top. -/
theorem state_of_passes
    (hm : c.Passes s text m r)
    (h : (step s rescan text c).outcome = .ok p) :
    p.state.bare true = (if c.pos < m.last then c.state else c.state.pop).bare true := by
  obtain ⟨id, hlabel, hrule⟩ := hm.rule
  have hk : (c.kept s.grammar).handling s text m =
      some ((c.kept s.grammar).passing s text m id (.simple r)) := by
    simp [Cursor.handling, hlabel, hrule, openingOf?]
  rw [outcome_step, hm.next] at h
  simp only [Except.bind, Cursor.followed, Cursor.handled, hk] at h
  obtain ⟨coverage, -, rfl⟩ := exists_of_map_eq_ok h
  have hkept : (c.kept s.grammar).state.bare true = c.state.bare true :=
    State.bare_keepInside true s.grammar c.state
  have hpos : (c.kept s.grammar).pos = c.pos := rfl
  rw [Cursor.state_resume_eq]
  unfold Cursor.passing
  rw [hpos]
  by_cases hadvances : c.pos < m.last
  · rw [if_pos hadvances, if_neg (Nat.not_le.mpr hadvances)]
    exact hkept
  · rw [if_neg hadvances, if_pos (Nat.not_lt.mp hadvances)]
    simp only [Option.getD_some, State.bare_pop, hkept]

/-- A stack without its top frame is another one, unless it has no other frame. -/
theorem State.bare_pop_eq_iff
    (keep : Bool)
    (s : State) :
    s.pop.bare keep = s.bare keep ↔ s.below = [] := by
  obtain ⟨top, below⟩ := s
  cases below with
  | nil =>
      exact iff_of_true rfl rfl
  | cons f rest =>
      refine iff_of_false (fun h => ?_) (List.cons_ne_nil f rest)
      have hdepth := congrArg State.depth h
      simp [State.depth, State.bare, State.pop, State.pop?] at hdepth

/-- The open rules are the same after the step if the match ends behind the place of the scan, or if
no rule but the root patterns is open. Otherwise the top one is left, which the step did not
enter. -/
theorem step_passes_iff
    (hm : c.Passes s text m r)
    (h : (step s rescan text c).outcome = .ok p) :
    (p.state.bare true = c.state.bare true ↔ c.pos < m.last ∨ c.state.below = []) ∧
      (¬ c.pos < m.last → p.state.bare true = c.state.pop.bare true) := by
  have hstate := state_of_passes hm h
  by_cases hadvances : c.pos < m.last
  · rw [if_pos hadvances] at hstate
    exact ⟨iff_of_true hstate (.inl hadvances), fun hnot => absurd hadvances hnot⟩
  · rw [if_neg hadvances] at hstate
    refine ⟨?_, fun _ => hstate⟩
    rw [hstate, State.bare_pop_eq_iff]
    exact ⟨.inr, fun h => h.resolve_left hadvances⟩

end Step

/-- Steps that find matches of rules for a single match, with the number of those that do not end
behind the place of the scan. -/
inductive Passages (s : LineScanner) (rescan : Rescan) (text : String) (c : Cursor) :
    Nat → Cursor → Prop
  | start : Passages s rescan text c 0 c
  | further {stuck : Nat} {d e : Cursor} {m : PatternMatch} {r : MatchRule}
    (h : Passages s rescan text c stuck d)
    (hm : d.Passes s text m r)
    (hstep : (step s rescan text d).outcome = .ok (.onward e)) :
    Passages s rescan text c (if d.pos < m.last then stuck else stuck + 1) e

/-- Each match that does not end behind the place of the scan costs a frame. -/
theorem Passages.state
    {s : LineScanner}
    {rescan : Rescan}
    {text : String}
    {c d : Cursor}
    {stuck : Nat}
    (h : Passages s rescan text c stuck d) :
    d.state.bare true = State.pop^[stuck] (c.state.bare true) := by
  induction h with
  | start =>
      rfl
  | @further stuck d e m r h hm hstep ih =>
      have hstate : e.state.bare true = _ := state_of_passes hm hstep
      split
      · rw [hstate, if_pos ‹_›, ih]
      · rw [hstate, if_neg ‹_›, State.bare_pop, ih, Function.iterate_succ_apply']

/-- An engine that finds the places in front of plain texts. -/
def peekingEngine : Engine where
  name := "PeekingEngine"
  compile patterns :=
    (Literal.compile patterns).map fun scan text start =>
      (scan text start).map fun found => ⟨found.index, [some ⟨found.first, found.first⟩]⟩

theorem peekingEngine_lawful :
    peekingEngine.Lawful := by
  intro patterns scan hcompile text start found hstart hfound
  obtain ⟨literal, hliteral, rfl⟩ := exists_of_map_eq_ok hcompile
  obtain ⟨seen, hseen, rfl⟩ := Option.map_eq_some_iff.mp hfound
  have hlawful := literalEngine_lawful patterns literal hliteral
  obtain ⟨hboundary, -, -⟩ := hlawful.found_within hstart hseen
  refine ⟨(hlawful text start seen hstart hseen).1, fun n t ht => ?_⟩
  cases n with
  | zero =>
      obtain rfl : (⟨seen.first, seen.first⟩ : Span) = t := by simpa [Groups.span?] using ht
      exact ⟨hboundary, hboundary, Nat.le_refl _⟩
  | succ n =>
      simp [Groups.span?] at ht

/-- A grammar for a letter in parentheses. -/
def letter : CompileRequest where
  sources := {
    library := .empty
    base := {
      scopeName := "source"
      patterns := [
        { name := some "paren", beginPattern := some "(", endPattern := some ")",
          patterns := some [{ name := some "empty", matchPattern := some "b" }] }] } }
  engine := peekingEngine

/-- What a step does at some place. -/
structure Passage where
  pos : Nat
  /-- How many rules are open in front of the step. -/
  before : Nat
  found : Option PatternMatch
  /-- How many rules are open behind the step. -/
  after : Nat
deriving DecidableEq

/-- What a step does in a line with an open parenthesis, some steps after its start. The rule of the
letter has number 2. -/
def letterPassage? (n : Nat) : Except Error (Option (Bool × Passage)) := do
  let g ← (Grammar.compile letter).outcome
  let s := g.scanner .plain
  match ← s.place? "(ab" n with
  | none => return none
  | some c =>
    let found ← (nextMatch g ((c.kept g).point "(ab\n") (c.kept g).state.top).outcome
    let p ← (step s (rescanText s 0) "(ab\n" c).outcome
    let simple := (g.rule? 2).any fun | .simple _ => true | _ => false
    return some (simple, ⟨c.pos, c.state.depth, found, p.state.depth⟩)

theorem exists_visits_of_letterPassage?
    {n pos before after : Nat}
    {m : PatternMatch}
    (h : letterPassage? n = .ok (some (true, ⟨pos, before, some m, after⟩)))
    (hlabel : m.label = .rule 2) :
    ∃ s : LineScanner, (Grammar.compile letter).outcome = .ok s.grammar ∧
      s.grammar.engine.Lawful ∧
      ∃ c r p, Visits s true "(ab\n" c ∧ c.Passes s "(ab\n" m r ∧
        (step s (rescanText s 0) "(ab\n" c).outcome = .ok p ∧
        c.pos = pos ∧ c.state.depth = before ∧ p.state.depth = after := by
  unfold letterPassage? at h
  obtain ⟨g, hg, h⟩ := exists_of_bind_eq_ok h
  obtain ⟨found, hplace, h⟩ := exists_of_bind_eq_ok h
  cases found with
  | none =>
      cases h
  | some c =>
      obtain ⟨next, hnext, h⟩ := exists_of_bind_eq_ok h
      obtain ⟨p, hp, h⟩ := exists_of_bind_eq_ok h
      simp only [pure, Except.pure, Except.ok.injEq, Option.some.injEq, Prod.mk.injEq,
        Passage.mk.injEq] at h
      obtain ⟨hsimple, hpos, hbefore, rfl, hafter⟩ := h
      have hlawful : g.engine.Lawful := by
        rw [(Grammar.compile_eq_ok hg).1]
        exact peekingEngine_lawful
      obtain ⟨rule, hrule, hsimple⟩ := (Option.any_eq_true _ _).mp hsimple
      obtain ⟨r, rfl⟩ : ∃ r, rule = .simple r := by
        split at hsimple
        · exact ⟨_, rfl⟩
        · cases hsimple
      exact ⟨g.scanner .plain, hg, hlawful, c, r, p, .of_place? hplace,
        ⟨hnext, 2, hlabel, hrule⟩, hp, hpos, hbefore, hafter⟩

/-- The letter is found from the start of the parenthesis. -/
theorem step_passes_iff_letter :
    ∃ (s : LineScanner) (c : Cursor) (m : PatternMatch) (r : MatchRule) (p : Progress),
      (Grammar.compile letter).outcome = .ok s.grammar ∧
      Visits s true "(ab\n" c ∧ c.state.depth = 2 ∧ c.pos < m.last ∧
      c.Passes s "(ab\n" m r ∧ (step s (rescanText s 0) "(ab\n" c).outcome = .ok p ∧
      (p.state.bare true = c.state.bare true ↔ c.pos < m.last ∨ c.state.below = []) ∧
      (¬ c.pos < m.last → p.state.bare true = c.state.pop.bare true) := by
  have hscan : letterPassage? 1 =
      .ok (some (true, ⟨0, 2, some ⟨.rule 2, 2, 2, [some ⟨2, 2⟩]⟩, 2⟩)) := by
    decide +kernel
  obtain ⟨s, hg, -, c, r, p, hc, hm, hp, hpos, hbefore, -⟩ :=
    exists_visits_of_letterPassage? hscan rfl
  refine ⟨s, c, _, r, p, hg, hc, hbefore, ?_, hm, hp, step_passes_iff hm hp⟩
  rw [hpos]
  decide

/-- In front of the letter the match is empty, and the parenthesis is left. -/
theorem step_of_parenthesis :
    ∃ (s : LineScanner) (c : Cursor) (m : PatternMatch) (r : MatchRule) (p : Progress),
      (Grammar.compile letter).outcome = .ok s.grammar ∧ s.grammar.engine.Lawful ∧
      Visits s true "(ab\n" c ∧ c.Passes s "(ab\n" m r ∧
      (step s (rescanText s 0) "(ab\n" c).outcome = .ok p ∧
      c.state.depth = 2 ∧ p.state.depth = 1 ∧ p.state.bare true ≠ c.state.bare true := by
  have hscan : letterPassage? 2 =
      .ok (some (true, ⟨2, 2, some ⟨.rule 2, 2, 2, [some ⟨2, 2⟩]⟩, 1⟩)) := by
    decide +kernel
  obtain ⟨s, hg, hlawful, c, r, p, hc, hm, hp, -, hbefore, hafter⟩ :=
    exists_visits_of_letterPassage? hscan rfl
  refine ⟨s, c, _, r, p, hg, hlawful, hc, hm, hp, hbefore, hafter, fun hsame => ?_⟩
  have hdepth := congrArg State.depth hsame
  simp only [State.depth_bare, hbefore, hafter] at hdepth
  cases hdepth

end LineScopes
