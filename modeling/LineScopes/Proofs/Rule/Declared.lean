import LineScopes.Proofs.Outcome
import LineScopes.Proofs.Rule.Closed

/-!
# Which grammars can be compiled

Rules are compiled whatever they are; an include that cannot be resolved is only reported. What can
fail is to make room for captures and to read a selector. So without settings a grammar is compiled
exactly if no captures need too long a list and the selectors of all that is declared to be injected
into it can be read, and then it has the injections that are declared and no others.

**Main definitions.** `Readable`, `EndsWell`, `Grammar.ofBuild`.

**Main statements.** `Grammar.outcome_compile`: what a compilation without settings comes to.
`Grammar.compileRules_ok_iff`. `Grammar.injections_of_compile`.
-/

namespace LineScopes

/-- A text is a selector. -/
def Readable (text : String) : Prop :=
  ∃ alternatives, parseSelector text = .ok alternatives

theorem Introduces.readable
    {b : Build}
    {declared : List (String × Target)}
    {injections : List Injection}
    (h : Introduces b declared injections) :
    ∀ d ∈ declared, Readable d.1 := by
  induction h with
  | nil =>
      exact List.forall_mem_nil _
  | cons hparse hid hrest ih =>
      exact List.forall_mem_cons.mpr ⟨⟨_, hparse⟩, ih⟩

section EndsWell

variable {α β : Type}

/-- A step of a compilation ends well, whatever has been compiled before. -/
def EndsWell (x : Collecting α) : Prop :=
  ∀ b, ∃ a, (x.run.run b).1 = .ok a

theorem endsWell_pure
    (a : α) :
    EndsWell (pure a) :=
  fun _ => ⟨a, rfl⟩

theorem endsWell_lift
    (x : Compiling α) :
    EndsWell (liftM x) :=
  fun _ => ⟨_, rfl⟩

theorem EndsWell.bind
    {x : Collecting α}
    {f : α → Collecting β}
    (hx : EndsWell x)
    (hf : ∀ a, EndsWell (f a)) :
    EndsWell (x >>= f) := by
  intro b
  obtain ⟨a, ha⟩ := hx b
  obtain ⟨a', ha'⟩ := hf a (x.run.run b).2
  refine ⟨a', ?_⟩
  have hrun : x.run.run b = (.ok a, (x.run.run b).2) := Prod.ext ha rfl
  rw [ExceptT.run_bind, StateT.run_bind, hrun]
  exact ha'

theorem endsWell_inject
    (visitor : Visitor)
    (t : Target)
    {text : String}
    (htext : Readable text)
    {others : Collecting (List Injection)}
    (hothers : EndsWell others) :
    EndsWell (do
      let id ← visitor t
      let here ← ExceptT.mk (pure (injectionsOf text id))
      return here ++ (← others)) := by
  obtain ⟨alternatives, hparse⟩ := htext
  refine (endsWell_lift _).bind fun id => EndsWell.bind (fun b => ?_) fun here =>
    hothers.bind fun _ => endsWell_pure _
  refine ⟨alternatives.map fun a => ⟨text, a.selector, a.priority, id⟩, ?_⟩
  change injectionsOf text id = _
  simp only [injectionsOf, hparse]
  rfl

variable (sources : Sources) (visitor : Visitor)

theorem endsWell_ownInjections
    {written : List (String × RawRule)}
    (h : ∀ e ∈ written, Readable e.1) :
    EndsWell (ownInjections sources visitor written) := by
  induction written with
  | nil =>
      exact endsWell_pure _
  | cons e rest ih =>
      obtain ⟨he, hrest⟩ := List.forall_mem_cons.mp h
      exact endsWell_inject visitor _ he (ih hrest)

theorem endsWell_foreignInjections
    {scopes : List String}
    (h : ∀ scope ∈ scopes, ∀ g, sources.grammar? scope = some g →
      ∀ text, g.injectionSelector = some text → Readable text) :
    EndsWell (foreignInjections sources visitor scopes) := by
  induction scopes with
  | nil =>
      exact endsWell_pure _
  | cons scope rest ih =>
      obtain ⟨hhere, hrest⟩ := List.forall_mem_cons.mp h
      unfold foreignInjections
      cases hg : sources.grammar? scope with
      | none =>
          exact EndsWell.bind (endsWell_lift _) fun _ => ih hrest
      | some g =>
          cases hselector : g.injectionSelector with
          | none =>
              simpa only [hselector] using ih hrest
          | some text =>
              simpa only [hselector] using
                endsWell_inject visitor _ (hhere g hg text hselector) (ih hrest)

/-- Injections are collected if all selectors that are declared can be read. -/
theorem endsWell_collectInjections
    {scopes : List String}
    (h : ∀ d ∈ sources.declared scopes, Readable d.1) :
    EndsWell (collectInjections sources visitor scopes) := by
  obtain ⟨hown, hforeign⟩ := List.forall_mem_append.mp h
  refine (endsWell_ownInjections sources visitor fun e he => ?_).bind fun own =>
    (endsWell_foreignInjections sources visitor fun scope hscope g hg text htext => ?_).bind
      fun foreign => endsWell_pure _
  · exact hown _ (List.mem_map.mpr ⟨e, he, rfl⟩)
  · refine hforeign (text, .root g) (List.mem_filterMap.mpr ⟨scope, hscope, ?_⟩)
    simp [hg, htext]

end EndsWell

/-- Reporting entries one after the other ends well. -/
theorem Reported.outcome_reports
    (entries : List Entry) :
    (entries.forM fun entry => report entry.level entry.text).outcome = .ok () := by
  induction entries with
  | nil =>
      rfl
  | cons entry rest ih =>
      simp only [List.forM, outcome_bind, outcome_report]
      exact ih

namespace Grammar

variable {r : CompileRequest}

/-- The rules of a grammar are compiled with its injections exactly if all captures have room and
all selectors that are declared can be read. -/
theorem compileRules_ok_iff :
    (∃ injections, (compileRules r).1 = .ok injections) ↔
      (compileRules r).2.overflowed = false ∧
        ∀ d ∈ r.sources.declared r.injected, Readable d.1 := by
  constructor
  · rintro ⟨injections, hok⟩
    obtain ⟨-, -, hdeclared⟩ := introduces_compileRules r
    obtain ⟨declared, hintroduces, -⟩ := hdeclared injections hok
    exact ⟨(compileRules_eq_ok_iff.mp hok).1, hintroduces.readable⟩
  · rintro ⟨hfits, hreadable⟩
    obtain ⟨injections, hok⟩ := endsWell_collectInjections r.sources _ hreadable _
    exact ⟨injections, compileRules_eq_ok_iff.mpr ⟨hfits, hok⟩⟩

/-- The grammar made of a table and injections, without settings. -/
def ofBuild
    (r : CompileRequest)
    (build : Build)
    (injections : List Injection) : Grammar where
  scope := r.sources.base.scopeName
  rules := build.rules
  injections := injections
  engine := r.engine
  sets := .ofTable r.engine build.rules
  languages := { initial := r.language, embedded := [] }
  overrides := []
  brackets := none
  options := r.options

/-- Without settings a grammar is compiled if its injections are collected. -/
theorem outcome_compile
    (hsettings : r.settings = none) :
    (compile r).outcome = (compileRules r).1.map (ofBuild r (compileRules r).2) := by
  unfold compile
  dsimp only
  rw [Reported.outcome_bind, Reported.outcome_reports, hsettings]
  cases (compileRules r).1 with
  | error e =>
      rfl
  | ok injections =>
      simp only [Reported.outcome_bind, Reported.outcome_ofExcept, Reported.outcome_reportIf,
        Reported.outcome_report]
      rfl

/-- A compiled grammar has the injections that are declared and no others, sorted by priority. -/
theorem injections_of_compile
    (hsettings : r.settings = none)
    {c : Grammar}
    (h : (compile r).outcome = .ok c) :
    ∃ declared, Introduces (compileRules r).2 (r.sources.declared r.injected) declared ∧
      c = ofBuild r (compileRules r).2 (Injection.sort declared) := by
  rw [outcome_compile hsettings] at h
  obtain ⟨injections, hok, rfl⟩ := exists_of_map_eq_ok h
  obtain ⟨-, -, hdeclared⟩ := introduces_compileRules r
  obtain ⟨declared, hintroduces, rfl⟩ := hdeclared injections hok
  exact ⟨declared, hintroduces, rfl⟩

/-- Without settings a grammar is compiled exactly if all captures have room and all selectors that
are declared can be read. -/
theorem compile_ok_iff
    (hsettings : r.settings = none) :
    (∃ c, (compile r).outcome = .ok c) ↔
      (compileRules r).2.overflowed = false ∧
        ∀ d ∈ r.sources.declared r.injected, Readable d.1 := by
  rw [← compileRules_ok_iff, outcome_compile hsettings]
  cases (compileRules r).1 with
  | error e =>
      simp [Except.map]
  | ok injections =>
      simp [Except.map]

end Grammar

end LineScopes
