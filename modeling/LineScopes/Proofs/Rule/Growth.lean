import LineScopes.Grammar.Compiled

/-!
# How a table of rules grows

A compilation only adds rules: a place that has been filled keeps its rule. The root patterns are
compiled first, so the first rule of a compiled grammar is a group.

**Main definitions.** `Build.Extends`, `Keeps`.

**Main statements.** `keeps_visit`: a visit leaves the rules in front of it alone.
`keeps_compileTarget`: by induction on how deep targets are nested. `exists_group_of_compile`: the
root rule is a group.
-/

namespace LineScopes

/-- Every rule of the first table has the same place in the second one. -/
structure Build.Extends (b c : Build) : Prop where
  size_le : b.rules.size ≤ c.rules.size
  kept : ∀ i < b.rules.size, c.rules[i]? = b.rules[i]?

namespace Build.Extends

theorem refl
    (b : Build) :
    b.Extends b :=
  ⟨Nat.le_refl _, fun _ _ => rfl⟩

theorem trans
    {b c d : Build}
    (hbc : b.Extends c)
    (hcd : c.Extends d) :
    b.Extends d := by
  refine ⟨Nat.le_trans hbc.size_le hcd.size_le, fun i hi => ?_⟩
  rw [hcd.kept i (Nat.lt_of_lt_of_le hi hbc.size_le), hbc.kept i hi]

end Build.Extends

/-- A step of a compilation that leaves all rules in place. -/
def Keeps
    {α : Type}
    (x : Compiling α) : Prop :=
  ∀ b : Build, b.Extends (x.run b).2

section Keeps

variable {α β : Type}

theorem keeps_pure
    (a : α) :
    Keeps (pure a) :=
  fun b => .refl b

theorem keeps_get :
    Keeps get :=
  fun b => .refl b

theorem keeps_modify
    {change : Build → Build}
    (h : ∀ b : Build, b.Extends (change b)) :
    Keeps (modify change) :=
  fun b => h b

theorem Keeps.bind
    {x : Compiling α}
    {f : α → Compiling β}
    (hx : Keeps x)
    (hf : ∀ a, Keeps (f a)) :
    Keeps (x >>= f) :=
  fun b => (hx b).trans (hf _ _)

theorem Keeps.map
    {x : Compiling α}
    (hx : Keeps x)
    (f : α → β) :
    Keeps (f <$> x) :=
  fun b => hx b

end Keeps

namespace Build

theorem extends_push
    (b : Build)
    (r : Rule) :
    b.Extends (b.push r) := by
  refine ⟨by simp [push], fun i hi => ?_⟩
  simp [push, Array.getElem?_push, Nat.ne_of_lt hi]

theorem extends_noteMissing
    (b : Build)
    (text scope : String) :
    b.Extends (b.noteMissing text scope) :=
  ⟨Nat.le_refl _, fun _ _ => rfl⟩

theorem extends_noteOverflow (b : Build) :
    b.Extends b.noteOverflow :=
  ⟨Nat.le_refl _, fun _ _ => rfl⟩

theorem rules_reserve
    (b : Build)
    (t : Target) :
    (b.reserve t).rules = b.rules.push .pending := by
  cases t <;> rfl

theorem extends_reserve
    (b : Build)
    (t : Target) :
    b.Extends (b.reserve t) := by
  refine ⟨by simp [rules_reserve], fun i hi => ?_⟩
  simp [rules_reserve, Array.getElem?_push, Nat.ne_of_lt hi]

/-- A place behind a table can be filled. -/
theorem Extends.fill
    {b c : Build}
    (h : b.Extends c)
    {id : RuleId}
    (hid : b.rules.size ≤ id)
    (r : Rule) :
    b.Extends (c.fill id r) := by
  refine ⟨by simpa [Build.fill] using h.size_le, fun i hi => ?_⟩
  have hne : id ≠ i := Nat.ne_of_gt (Nat.lt_of_lt_of_le hi hid)
  simp only [Build.fill, Array.getElem?_setIfInBounds_ne hne]
  exact h.kept i hi

end Build

section Visitor

variable {sources : Sources} {visitor : Visitor} (hvisitor : ∀ t, Keeps (visitor t))
include hvisitor

theorem keeps_compileReference
    (s : Surroundings)
    (text : String) :
    Keeps (compileReference sources visitor s text) := by
  unfold compileReference
  split
  · exact (hvisitor _).bind fun _ => keeps_pure _
  · exact (keeps_modify fun b => b.extends_noteMissing _ _).bind fun _ => keeps_pure _

theorem keeps_compilePattern
    (s : Surroundings)
    (p : PlacedRule) :
    Keeps (compilePattern sources visitor s p) := by
  unfold compilePattern
  split
  · exact keeps_compileReference hvisitor s _
  · exact (hvisitor _).map _

theorem keeps_compilePatterns
    (s : Surroundings)
    (patterns : List PlacedRule) :
    Keeps (compilePatterns sources visitor s patterns) := by
  induction patterns with
  | nil =>
      exact keeps_pure _
  | cons p rest ih =>
      unfold compilePatterns
      refine (keeps_compilePattern hvisitor s p).bind fun found => ?_
      cases found with
      | none =>
          exact ih.bind fun _ => keeps_pure _
      | some id =>
          exact keeps_get.bind fun _ => ih.bind fun _ => keeps_pure _

theorem keeps_compileCapture
    (s : Surroundings)
    (owner : RuleAddress)
    (role : CaptureRole)
    (slots : List (Option RuleId))
    (entry : Nat × String × RawRule) :
    Keeps (compileCapture visitor s owner role slots entry) := by
  have hagain : ∀ p, Keeps (compileRetokenized visitor s p) := by
    intro p
    unfold compileRetokenized
    split
    · exact (hvisitor _).map _
    · exact keeps_pure _
  unfold compileCapture
  refine (hagain _).bind fun retokenize => keeps_get.bind fun _ => ?_
  exact (keeps_modify fun b => b.extends_push _).bind fun _ => keeps_pure _

theorem keeps_compileCaptures
    (s : Surroundings)
    (owner : RuleAddress)
    (role : CaptureRole)
    (captures : Captures) :
    Keeps (compileCaptures visitor s owner role captures) := by
  have hfold : ∀ entries slots,
      Keeps (List.foldlM (compileCapture visitor s owner role) slots entries) := by
    intro entries
    induction entries with
    | nil =>
        exact fun slots => keeps_pure _
    | cons entry rest ih =>
        intro slots
        rw [List.foldlM_cons]
        exact (keeps_compileCapture hvisitor s owner role slots entry).bind ih
  unfold compileCaptures
  dsimp only
  split
  · exact (keeps_modify Build.extends_noteOverflow).bind fun _ => hfold _ _
  · exact hfold _ _

theorem keeps_compileDelimiterCaptures
    (s : Surroundings)
    (p : PlacedRule)
    (role : CaptureRole)
    (own : Option Captures) :
    Keeps (compileDelimiterCaptures visitor s p role own) := by
  unfold compileDelimiterCaptures
  split
  · exact keeps_compileCaptures hvisitor s _ _ _
  · exact keeps_compileCaptures hvisitor s _ _ _
  · exact keeps_pure _

theorem keeps_compileHeld
    (s : Surroundings)
    (p : PlacedRule) :
    Keeps (compileHeld sources visitor s p) := by
  unfold compileHeld
  split
  · refine (keeps_compileReference hvisitor _ _).bind fun found => ?_
    cases found <;> exact keeps_pure _
  · exact keeps_compilePatterns hvisitor _ _

theorem keeps_compileRule
    (s : Surroundings)
    (p : PlacedRule) :
    Keeps (compileRule sources visitor s p) := by
  have hcaptures := keeps_compileDelimiterCaptures hvisitor s p
  unfold compileRule
  dsimp only
  split
  · exact (hcaptures _ _).bind fun _ => keeps_pure _
  · refine (keeps_compilePatterns hvisitor _ _).bind fun _ => ?_
    split
    · exact (hcaptures _ _).bind fun _ => (hcaptures _ _).bind fun _ => keeps_pure _
    · exact (hcaptures _ _).bind fun _ => (hcaptures _ _).bind fun _ => keeps_pure _
  · exact (keeps_compileHeld hvisitor _ _).bind fun _ => keeps_pure _

theorem keeps_compileRoot
    (g : RawGrammar) :
    Keeps (compileRoot sources visitor g) :=
  (keeps_compilePatterns hvisitor _ _).bind fun _ => keeps_pure _

/-- What a new target is compiled to. -/
def compileBody
    (sources : Sources)
    (visitor : Visitor) : Target → Compiling Rule
  | .rule s p => compileRule sources visitor s p
  | .root g => compileRoot sources visitor g

omit hvisitor in
/-- A new target gets the next number, which is filled once its body is compiled. -/
theorem run_visit_of_new
    {b : Build}
    {t : Target}
    (h : b.idOf? t = none) :
    (visit sources visitor t).run b =
      let body := (compileBody sources visitor t).run (b.reserve t)
      (b.rules.size, body.2.fill b.rules.size body.1) := by
  cases t <;> simp [visit, compileBody, h] <;> rfl

omit hvisitor in
theorem run_visit_of_known
    {b : Build}
    {t : Target}
    {id : RuleId}
    (h : b.idOf? t = some id) :
    (visit sources visitor t).run b = (id, b) := by
  cases t <;> simp [visit, h] <;> rfl

theorem keeps_visit
    (t : Target) :
    Keeps (visit sources visitor t) := by
  intro b
  cases h : b.idOf? t with
  | some id =>
      rw [run_visit_of_known h]
      exact .refl b
  | none =>
      rw [run_visit_of_new h]
      have hbody : Keeps (compileBody sources visitor t) := by
        cases t with
        | rule s p =>
            exact keeps_compileRule hvisitor s p
        | root g =>
            exact keeps_compileRoot hvisitor g
      exact ((b.extends_reserve t).trans (hbody _)).fill (Nat.le_refl _) _

end Visitor

theorem keeps_compileTarget
    (sources : Sources)
    (bound : Nat)
    (t : Target) :
    Keeps (compileTarget sources bound t) := by
  induction bound generalizing t with
  | zero =>
      exact keeps_get.bind fun _ =>
        (keeps_modify fun b => b.extends_reserve t).bind fun _ => keeps_pure _
  | succ bound ih =>
      exact keeps_visit ih t

section Injections

variable {α β : Type}

/-- A step that may fail leaves all rules in place, whether it fails or not. -/
theorem Keeps.bind_run
    {x : Collecting α}
    {f : α → Collecting β}
    (hx : Keeps x.run)
    (hf : ∀ a, Keeps (f a).run) :
    Keeps (x >>= f).run := by
  rw [ExceptT.run_bind]
  refine hx.bind fun outcome => ?_
  cases outcome with
  | ok a =>
      exact hf a
  | error e =>
      exact keeps_pure _

theorem Keeps.run_lift
    {x : Compiling α}
    (hx : Keeps x) :
    Keeps (liftM x : Collecting α).run := by
  exact hx.map _

variable {sources : Sources} {visitor : Visitor} (hvisitor : ∀ t, Keeps (visitor t))
include hvisitor

theorem keeps_ownInjections
    (written : List (String × RawRule)) :
    Keeps (ownInjections sources visitor written).run := by
  induction written with
  | nil =>
      exact keeps_pure _
  | cons entry rest ih =>
      unfold ownInjections
      refine (hvisitor _).run_lift.bind_run fun id => ?_
      refine Keeps.bind_run (keeps_pure _) fun here => ?_
      exact ih.bind_run fun _ => keeps_pure _

theorem keeps_foreignInjections
    (scopes : List String) :
    Keeps (foreignInjections sources visitor scopes).run := by
  induction scopes with
  | nil =>
      exact keeps_pure _
  | cons scope rest ih =>
      unfold foreignInjections
      split
      · exact Keeps.bind_run (keeps_modify fun b => ⟨Nat.le_refl _, fun _ _ => rfl⟩) fun _ => ih
      · split
        · exact ih
        · refine (hvisitor _).run_lift.bind_run fun id => ?_
          refine Keeps.bind_run (keeps_pure _) fun here => ?_
          exact ih.bind_run fun _ => keeps_pure _

theorem keeps_collectInjections
    (injected : List String) :
    Keeps (collectInjections sources visitor injected).run :=
  (keeps_ownInjections hvisitor _).bind_run fun _ =>
    (keeps_foreignInjections hvisitor _).bind_run fun _ => keeps_pure _

end Injections

namespace Grammar

/-- The root patterns are compiled first. -/
theorem exists_group_of_compileRules
    (r : CompileRequest) :
    ∃ group, (compileRules r).2.rules[rootRule]? = some (.group group) := by
  obtain ⟨n, hn⟩ : ∃ n, compileBound r.sources = n + 1 := ⟨_, rfl⟩
  -- the body of the root comes out behind its reserved place
  let body := (compileRoot r.sources (compileTarget r.sources n) r.sources.base).run
    (Build.reserve {} (.root r.sources.base))
  obtain ⟨group, hgroup⟩ : ∃ group, body.1 = .group group := ⟨_, rfl⟩
  have hroot : (compileTarget r.sources (compileBound r.sources) (.root r.sources.base)).run {} =
      (0, body.2.fill 0 body.1) := by
    rw [hn]
    exact run_visit_of_new rfl
  have hbody : (Build.reserve {} (.root r.sources.base)).Extends body.2 :=
    keeps_compileRoot (keeps_compileTarget r.sources n) _ _
  have hsize : 0 < body.2.rules.size := hbody.size_le
  have hfilled : (body.2.fill 0 body.1).rules[rootRule]? = some (.group group) := by
    simp [Build.fill, hgroup, rootRule, hsize]
  refine ⟨group, ?_⟩
  have hinjections : Keeps (collectInjections r.sources
      (compileTarget r.sources (compileBound r.sources)) r.injected).run :=
    keeps_collectInjections (keeps_compileTarget r.sources _) r.injected
  have hlt : rootRule < (body.2.fill 0 body.1).rules.size := by
    simpa [Build.fill, rootRule] using hsize
  have hkept := (hinjections (body.2.fill 0 body.1)).kept rootRule hlt
  unfold compileRules compileWithin buildWithin
  dsimp only
  rw [hroot]
  exact hkept.trans hfilled

/-- What a compiled grammar takes over from its request. -/
theorem compile_eq_ok
    {r : CompileRequest}
    {g : Grammar}
    (h : (compile r).outcome = .ok g) :
    g.engine = r.engine ∧ g.rules = (compileRules r).2.rules := by
  unfold compile at h
  dsimp only at h
  simp only [Reported.outcome_bind_eq_ok, Reported.outcome_pure, Except.ok.injEq] at h
  obtain ⟨-, -, injections, -, -, -, -, -, overrides, -, brackets, -, rfl⟩ := h
  exact ⟨rfl, rfl⟩

/-- The root rule of a compiled grammar is a group. -/
theorem exists_group_of_compile
    {r : CompileRequest}
    {g : Grammar}
    (h : (compile r).outcome = .ok g) :
    ∃ group, g.rule? rootRule = some (.group group) := by
  obtain ⟨group, hgroup⟩ := exists_group_of_compileRules r
  obtain ⟨-, hrules⟩ := compile_eq_ok h
  exact ⟨group, by rwa [rule?, hrules]⟩

end Grammar

end LineScopes
