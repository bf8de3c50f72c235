import LineScopes.Proofs.Scan.Frames
import LineScopes.Proofs.Scan.Groups
import LineScopes.Proofs.Token.Runs

/-!
# The depth of nested scans

A line is scanned with scans of groups that are nested up to a depth. If it fails for want of depth,
nothing is known about it; any other outcome is the same at every greater depth. So there is at most
one such outcome, and what is proved for every depth is proved of it.

**Main definitions.** `Deepens`, `Rescan.Deepens`.

**Main statements.** `step_deepens`, `run_deepens`: a step and a run pass a greater depth on.
`rescanText_deepens`: nested scans, by induction on the depth. `Grammar.tokenizeLine_deepens`,
`Grammar.encodeLine_deepens`: a line. `Grammar.tokenizeLine_unique`: the outcome of a line.
-/

namespace LineScopes

/-- The second outcome is the same as the first one, unless this one is for want of depth. -/
def Deepens
    {α : Type}
    (x y : Except Error α) : Prop :=
  x = .error .deepScan ∨ x = y

namespace Deepens

variable {α β : Type} {x y : Except Error α}

theorem refl
    (x : Except Error α) :
    Deepens x x :=
  .inr rfl

theorem bind
    (h : Deepens x y)
    {f k : α → Except Error β}
    (hfk : ∀ a, Deepens (f a) (k a)) :
    Deepens (x.bind f) (y.bind k) := by
  rcases h with rfl | rfl
  · exact .inl rfl
  · cases x with
    | error e =>
        exact .refl _
    | ok a =>
        exact hfk a

theorem map
    (h : Deepens x y)
    (f : α → β) :
    Deepens (x.map f) (y.map f) := by
  rcases h with rfl | rfl
  · exact .inl rfl
  · exact .refl _

theorem eq_of_ok
    {a : α}
    (h : Deepens x y)
    (hx : x = .ok a) :
    y = .ok a := by
  rcases h with rfl | rfl
  · cases hx
  · exact hx

end Deepens

/-- A second way of scanning groups does the same, and may go deeper. -/
def Rescan.Deepens
    (rescan rescan' : Rescan) : Prop :=
  ∀ text firstLine pos state coverage,
    LineScopes.Deepens (rescan text firstLine pos state coverage).outcome
      (rescan' text firstLine pos state coverage).outcome

section Step

variable {s : LineScanner} {rescan rescan' : Rescan} {text : String}
variable (h : Rescan.Deepens rescan rescan')
include h

theorem handleGroups_deepens
    (site : GroupSite)
    (captured : List (CaptureRule × Span))
    (groups : List OpenGroup)
    (c : Coverage) :
    Deepens (handleGroups s rescan site captured groups c)
      (handleGroups s rescan' site captured groups c) := by
  induction captured generalizing groups c with
  | nil =>
      exact .refl _
  | cons group rest ih =>
      obtain ⟨r, span⟩ := group
      unfold handleGroups
      split
      · exact .refl _
      · cases r.retokenize with
        | none =>
            exact ih _ _
        | some rule =>
            dsimp only
            refine Deepens.bind ?_ fun d => ih _ d
            simp only [rescanGroup, Reported.outcome_reportIf_bind]
            exact h _ _ _ _ _

theorem handleCaptures_deepens
    (site : GroupSite)
    (captures : List (Option RuleId))
    (c : Coverage) :
    Deepens (handleCaptures s rescan site captures c).outcome
      (handleCaptures s rescan' site captures c).outcome := by
  rw [outcome_handleCaptures, outcome_handleCaptures]
  exact handleGroups_deepens h site _ [] c

theorem followed_deepens
    (c : Cursor)
    (found : Option PatternMatch) :
    Deepens (c.followed s rescan text found) (c.followed s rescan' text found) := by
  cases found with
  | none =>
      exact .refl _
  | some m =>
      unfold Cursor.followed Cursor.handled
      dsimp only
      cases c.handling s text m with
      | none =>
          exact .refl _
      | some k =>
          exact (handleCaptures_deepens h _ _ _).map _

/-- Only the groups of a match are scanned deeper. -/
theorem step_deepens
    (c : Cursor) :
    Deepens (step s rescan text c).outcome (step s rescan' text c).outcome := by
  rw [outcome_step, outcome_step]
  exact (Deepens.refl _).bind fun found => followed_deepens h _ found

theorem run_deepens
    (bound : Nat)
    (limit : TimeLimit)
    (c : Cursor)
    (newest newest' : List Entry) :
    Deepens (run s rescan text bound limit c newest).outcome
      (run s rescan' text bound limit c newest').outcome := by
  induction bound generalizing limit c newest newest' with
  | zero =>
      exact .refl (.error .endlessScan)
  | succ bound ih =>
      rw [outcome_run_succ, outcome_run_succ]
      split
      · exact .refl _
      · refine (step_deepens h c).bind fun p => ?_
        cases p with
        | onward d =>
            exact ih _ _ _ _
        | finished d =>
            exact .refl (.ok (ScanEnd.mk d false))

theorem continueRules_deepens
    (rules : List (WhileRule × State))
    (c : Cursor) :
    Deepens (continueRules s rescan text rules c).outcome
      (continueRules s rescan' text rules c).outcome := by
  induction rules generalizing c with
  | nil =>
      exact .refl _
  | cons rule rest ih =>
      obtain ⟨r, state⟩ := rule
      simp only [continueRules, Reported.outcome_bind]
      refine (Deepens.refl _).bind fun found => ?_
      cases found with
      | none =>
          exact .refl _
      | some m =>
          dsimp only
          split
          · rw [Reported.outcome_bind, Reported.outcome_bind, outcome_handleContinuation,
              outcome_handleContinuation]
            exact ((handleCaptures_deepens h _ _ _).map _).bind ih
          · exact .refl _

end Step

section Line

variable {n m : Nat} (hle : n ≤ m)
include hle

/-- A scan at a greater depth does the same as long as this depth is not needed. -/
theorem rescanText_deepens
    (s : LineScanner) :
    (rescanText s n).Deepens (rescanText s m) := by
  induction n generalizing m with
  | zero =>
      intro text firstLine pos state coverage
      exact .inl rfl
  | succ n ih =>
      obtain ⟨m, rfl⟩ : ∃ k, m = k + 1 := ⟨m - 1, by omega⟩
      intro text firstLine pos state coverage
      simp only [rescanText, Reported.outcome_bind]
      exact (run_deepens (ih (Nat.le_of_succ_le_succ hle)) _ _ _ _ _).bind fun _ => .refl _

theorem scanLine_deepens
    (s : LineScanner)
    (line : String)
    (previous : State)
    (limit : TimeLimit) :
    Deepens (scanLine s n line previous limit).outcome
      (scanLine s m line previous limit).outcome := by
  have hrescan := rescanText_deepens hle s
  simp only [scanLine, scanText, Reported.outcome_bind]
  refine Deepens.bind ?_ fun _ => .refl _
  exact (continueRules_deepens hrescan _ _).bind fun start => run_deepens hrescan _ _ start _ _

namespace Grammar

variable (g : Grammar) (theme : Theme)

/-- The tokens of a line do not depend on the depth, if it is enough. -/
theorem tokenizeLine_deepens
    (line : String)
    (previous : State)
    (limit : TimeLimit) :
    Deepens (g.tokenizeLine n theme line previous limit).outcome
      (g.tokenizeLine m theme line previous limit).outcome := by
  rw [outcome_tokenizeLine, outcome_tokenizeLine]
  exact (scanLine_deepens hle _ line previous limit).map _

/-- The runs of a line do not depend on the depth, if it is enough. -/
theorem encodeLine_deepens
    (line : String)
    (previous : State)
    (limit : TimeLimit) :
    Deepens (g.encodeLine n theme line previous limit).outcome
      (g.encodeLine m theme line previous limit).outcome := by
  rw [outcome_encodeLine, outcome_encodeLine]
  exact (scanLine_deepens hle _ line previous limit).map _

end Grammar

end Line

/-- Whatever the depths are, a line that does not fail for want of depth comes to the same. -/
theorem Grammar.tokenizeLine_unique
    {g : Grammar}
    {theme : Theme}
    {line : String}
    {previous : State}
    {limit : TimeLimit}
    {n m : Nat}
    (hn : (g.tokenizeLine n theme line previous limit).outcome ≠ .error .deepScan)
    (hm : (g.tokenizeLine m theme line previous limit).outcome ≠ .error .deepScan) :
    (g.tokenizeLine n theme line previous limit).outcome =
      (g.tokenizeLine m theme line previous limit).outcome := by
  rcases Nat.le_total n m with hle | hle
  · exact (g.tokenizeLine_deepens hle theme line previous limit).resolve_left hn
  · exact ((g.tokenizeLine_deepens hle theme line previous limit).resolve_left hm).symm

end LineScopes
