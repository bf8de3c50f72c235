import LineScopes.Grammar.Compiled
import LineScopes.Proofs.Grammar.Traversal
import LineScopes.Proofs.Rule.Closed

/-!
# The grammars a compilation needs

A compilation looks at the grammar being tokenized, at those that are injected, and at those that
the rules of needed grammars refer to. It does not look at any other grammar, however the library
holds it and whatever else the library has.

**Main definitions.** `Sources.Needs`, `Sources.AgreeOnNeeds`.

**Main statements.** `Sources.AgreeOnNeeds.resolveAlike`: needed rules are resolved alike.
`Grammar.compile_agree`: a compilation comes to the same, and reports the same.
-/

namespace LineScopes

/-- The scopes that a compilation may look up. -/
inductive Sources.Needs
    (sources : Sources)
    (injected : List String) : String → Prop
  | base : Needs sources injected sources.base.scopeName
  | injected {scope : String} (h : scope ∈ injected) : Needs sources injected scope
  | mentioned {g : RawGrammar} {r : Request} (h : Needs sources injected g.scopeName)
      (hg : sources.Knows g) (hr : r ∈ g.requests) : Needs sources injected r.scope

/-- The same grammar is tokenized, and what a compilation of it needs is the same. -/
structure Sources.AgreeOnNeeds
    (A B : Sources)
    (injected : List String) : Prop where
  base : A.base = B.base
  grammar? : ∀ scope, A.Needs injected scope → A.grammar? scope = B.grammar? scope

/-- The grammar that a target is written in. -/
def Target.grammar : Target → RawGrammar
  | .rule s _ => s.grammar
  | .root g => g

variable {A B : Sources} {injected : List String}

theorem scopeName_of_grammar?
    {scope : String}
    {g : RawGrammar}
    (h : A.grammar? scope = some g) :
    g.scopeName = scope := by
  unfold Sources.grammar? at h
  split at h
  · rename_i g' hg
    cases h
    exact scopeName_of_get? hg
  · split at h
    · cases h
      assumption
    · cases h

/-- An include is resolved alike if the grammar that it asks for is the same. -/
theorem targetOf?_congr
    (hbase : A.base = B.base)
    {reference : Reference}
    (hgrammar : ∀ r, reference.request? = some r → A.grammar? r.scope = B.grammar? r.scope)
    (s : Surroundings) :
    targetOf? A s reference = targetOf? B s reference := by
  cases reference with
  | base =>
      simp only [targetOf?, hbase]
  | self =>
      rfl
  | named name =>
      unfold targetOf?
      split <;> simp_all
  | whole scope =>
      simp only [targetOf?]
      rw [show A.grammar? scope = B.grammar? scope from hgrammar _ rfl]
  | part scope name =>
      simp only [targetOf?]
      rw [show A.grammar? scope = B.grammar? scope from hgrammar _ rfl]

/-- What an include leads to is written where it stands, in the grammar being tokenized, or in the
grammar that it asks for. -/
theorem grammar_of_targetOf?
    {reference : Reference}
    {s : Surroundings}
    {t : Target}
    (h : targetOf? A s reference = some t) :
    t.grammar = s.grammar ∨ t.grammar = A.base ∨
      ∃ r, reference.request? = some r ∧ t.grammar.scopeName = r.scope := by
  unfold targetOf? at h
  split at h
  · cases h
    exact Or.inr (Or.inl rfl)
  · cases h
    exact Or.inl rfl
  · cases h
    exact Or.inr (Or.inl rfl)
  · cases h
    exact Or.inl rfl
  · obtain ⟨q, -, rfl⟩ := Option.map_eq_some_iff.mp h
    exact Or.inl rfl
  · obtain ⟨g, hg, rfl⟩ := Option.map_eq_some_iff.mp h
    exact Or.inr (Or.inr ⟨_, rfl, scopeName_of_grammar? hg⟩)
  · obtain ⟨g, hg, h⟩ := Option.bind_eq_some_iff.mp h
    obtain ⟨q, -, h⟩ := Option.bind_eq_some_iff.mp h
    cases h
    exact Or.inr (Or.inr ⟨_, rfl, scopeName_of_grammar? hg⟩)

namespace Sources.AgreeOnNeeds

variable (h : A.AgreeOnNeeds B injected)
include h

/-- A needed grammar that is known is known on the other side. -/
theorem knows
    {g : RawGrammar}
    (hg : A.Knows g)
    (hneeds : A.Needs injected g.scopeName) :
    B.Knows g := by
  rcases hg with rfl | hg
  · exact Or.inl h.base
  · have hother : B.grammar? g.scopeName = some g := by
      rw [← h.grammar? _ hneeds, Sources.grammar?, hg]
    exact knows_of_grammar? hother

/-- The rules of needed grammars are resolved alike, and only needed grammars are reached. -/
theorem resolveAlike :
    A.ResolveAlike B fun t => t.Within A ∧ A.Needs injected t.grammar.scopeName := by
  have hself := resolveAlike_self A
  refine ⟨fun {s p} ⟨hp, hneeds⟩ => ⟨hself.enter hp, ?_⟩,
    fun {s p q} ⟨hp, hneeds⟩ hq => ⟨hself.inner hp hq, ?_⟩,
    fun {g q} ⟨hg, hneeds⟩ hq => ⟨hself.root hg hq, hneeds⟩,
    fun {s p text} ⟨hp, hneeds⟩ htext => ?_⟩
  · simpa [Target.grammar] using hneeds
  · simpa [Target.grammar] using hneeds
  · obtain ⟨hknown, ⟨s₀, hwritten⟩, -⟩ := id hp
    have hasked : ∀ r, (Reference.ofText text).request? = some r → A.Needs injected r.scope :=
      fun r hr => .mentioned hneeds hknown (mem_requests hwritten htext hr)
    refine ⟨targetOf?_congr h.base (fun r hr => h.grammar? _ (hasked r hr)) s, fun t ht => ?_⟩
    refine ⟨(hself.resolve hp htext).2 t ht, ?_⟩
    rcases grammar_of_targetOf? ht with heq | heq | ⟨r, hr, hscope⟩
    · rw [heq]
      exact hneeds
    · rw [heq]
      exact .base
    · rw [hscope]
      exact hasked r hr

end Sources.AgreeOnNeeds

namespace Grammar

variable {r r' : CompileRequest}

/-- A compilation depends on the needed grammars only. -/
theorem compileRules_agree
    (h : r.sources.AgreeOnNeeds r'.sources r.injected)
    (hinjected : r.injected = r'.injected) :
    compileRules r = compileRules r' := by
  have hkeys : ∀ t : Target, t.Within r.sources ∧ r.sources.Needs r.injected t.grammar.scopeName →
      t.key ∈ r.sources.keys ∧ t.key ∈ r'.sources.keys := by
    rintro t ⟨ht, hneeds⟩
    have hother : t.Within r'.sources := by
      cases t with
      | rule s p =>
          exact ⟨h.knows ht.1 hneeds, ht.2⟩
      | root g =>
          exact h.knows ht hneeds
    exact ⟨ht.key_mem, hother.key_mem⟩
  have hvisitor := fun t ht => compileTarget_alike h.resolveAlike hkeys (compileBound r.sources)
    (compileBound r'.sources) (t := t) ht
  have hinjections := collectInjections_alike hvisitor h.base
    (fun e he => ⟨within_injection he, .base⟩)
    (fun scope hscope => h.grammar? scope (.injected hscope))
    (fun scope hscope g hg => ⟨knows_of_grammar? hg, by
      rw [Target.grammar, scopeName_of_grammar? hg]
      exact .injected hscope⟩)
    fun b entry hb => hb
  obtain ⟨hroot, hroom⟩ := hvisitor (.root r.sources.base) ⟨Or.inl rfl, .base⟩ {}
    ⟨unknown_keys_lt_compileBound r.sources, unknown_keys_lt_compileBound r'.sources⟩
  have hbuild : buildWithin (compileBound r.sources) r =
      buildWithin (compileBound r'.sources) r' := by
    unfold buildWithin
    dsimp only
    rw [← hinjected, ← h.base, ← hroot]
    exact (hinjections _ hroom).1
  unfold compileRules compileWithin
  rw [hbuild]

theorem compile_agree
    (h : r.sources.AgreeOnNeeds r'.sources r.injected)
    (hinjected : r.injected = r'.injected)
    (hlanguage : r.language = r'.language)
    (hsettings : r.settings = r'.settings)
    (hengine : r.engine = r'.engine)
    (hoptions : r.options = r'.options) :
    compile r = compile r' := by
  have hrules := compileRules_agree h hinjected
  have hbase := h.base
  obtain ⟨⟨library, base⟩, injected, language, settings, engine, options⟩ := r
  obtain ⟨⟨library', base'⟩, injected', language', settings', engine', options'⟩ := r'
  dsimp only at hbase hinjected hlanguage hsettings hengine hoptions
  subst hbase hinjected hlanguage hsettings hengine hoptions
  unfold compile
  rw [hrules]

end Grammar

end LineScopes
