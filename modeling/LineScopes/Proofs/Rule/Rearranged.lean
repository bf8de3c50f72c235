import LineScopes.Proofs.Rule.Meaning
import Mathlib.Logic.Equiv.Basic

/-!
# Rearranged root patterns

When the root patterns of a grammar are put in another order, the rules inside them get other
addresses, and nothing else changes: chains lead to the same rules, includes refer to the same
rules, and the same ones are dead.

**Main definitions.** `Rearrangement`, `Rearrangement.target`, `Rearrangement.Between`.

**Main statements.** `Rearrangement.symm`: the other way round. `Between.patternTarget?_eq`,
`Between.nests`, `Between.dead_iff`: what is rearranged corresponds.
`Between.consistent`, `Between.grounded`.
-/

namespace LineScopes

open Relation (ReflTransGen TransGen)

/-- The root patterns of a grammar in another order, with the place each of them moves to. -/
structure Rearrangement where
  before : RawGrammar
  patterns : List RawRule
  places : Equiv.Perm Nat
  moved : ∀ i, patterns[places i]? = before.patterns[i]?

/-- The steps to a rule, of which the outermost one may be a root pattern. -/
def renumberSteps (σ : Equiv.Perm Nat) : List Place → List Place
  | [] => []
  | step :: outer =>
    match outer with
    | [] =>
      match step with
      | .pattern i => [.pattern (σ i)]
      | step => [step]
    | _ :: _ => step :: renumberSteps σ outer

section Steps

variable (σ : Equiv.Perm Nat)

theorem renumberSteps_cons
    (step : Place)
    {outer : List Place}
    (h : outer ≠ []) :
    renumberSteps σ (step :: outer) = step :: renumberSteps σ outer := by
  cases outer with
  | nil =>
      exact absurd rfl h
  | cons =>
      rfl

theorem renumberSteps_named
    (name : String)
    (outer : List Place) :
    renumberSteps σ (.named name :: outer) = .named name :: renumberSteps σ outer := by
  cases outer <;> rfl

theorem renumberSteps_ne_nil
    {steps : List Place}
    (h : steps ≠ []) :
    renumberSteps σ steps ≠ [] := by
  cases steps with
  | nil =>
      exact absurd rfl h
  | cons step outer =>
      cases outer with
      | nil =>
          cases step <;> simp [renumberSteps]
      | cons =>
          simp [renumberSteps]

@[simp] theorem renumberSteps_symm
    (steps : List Place) :
    renumberSteps σ.symm (renumberSteps σ steps) = steps := by
  induction steps with
  | nil =>
      rfl
  | cons step outer ih =>
      cases outer with
      | nil =>
          cases step <;> simp [renumberSteps]
      | cons step' outer =>
          have hne := renumberSteps_ne_nil σ (List.cons_ne_nil step' outer)
          rw [renumberSteps_cons σ step (List.cons_ne_nil _ _),
            renumberSteps_cons σ.symm step hne, ih]

end Steps

theorem mem_placedPatterns
    {a : RuleAddress}
    {patterns : List RawRule}
    {q : PlacedRule} :
    q ∈ placedPatterns a patterns ↔
      ∃ i, patterns[i]? = some q.rule ∧ q.address = a.step (.pattern i) := by
  constructor
  · intro hq
    obtain ⟨i, hi, rfl⟩ := List.mem_mapIdx.mp hq
    exact ⟨i, List.getElem?_eq_getElem hi, rfl⟩
  · rintro ⟨i, hrule, haddress⟩
    obtain ⟨hi, hrule⟩ := List.getElem?_eq_some_iff.mp hrule
    refine List.mem_mapIdx.mpr ⟨i, hi, ?_⟩
    rw [hrule, ← haddress]

namespace Rearrangement

variable (m : Rearrangement)

/-- The grammar with its root patterns in the other order. -/
def after : RawGrammar :=
  { m.before with patterns := m.patterns }

/-- The way back. -/
def symm : Rearrangement where
  before := m.after
  patterns := m.before.patterns
  places := m.places.symm
  moved i := by
    have h := m.moved (m.places.symm i)
    rw [Equiv.apply_symm_apply] at h
    exact h.symm

/-- Where a rule stands afterwards. -/
def address (a : RuleAddress) : RuleAddress :=
  if a.scope = m.before.scopeName then { a with steps := renumberSteps m.places a.steps } else a

/-- A rule where it stands afterwards. -/
def placed (p : PlacedRule) : PlacedRule :=
  { p with address := m.address p.address }

/-- A repository of a rule where it stands afterwards. -/
def layer (l : Layer) : Layer :=
  { l with owner := m.address l.owner }

/-- The grammar of a scope afterwards. -/
def grammar (g : RawGrammar) : RawGrammar :=
  if g.scopeName = m.before.scopeName then m.after else g

/-- The surroundings of a rule where it stands afterwards. -/
def surroundings (s : Surroundings) : Surroundings :=
  ⟨m.grammar s.grammar, s.layers.map m.layer⟩

/-- A target afterwards. -/
def target : Target → Target
  | .rule s p => .rule (m.surroundings s) (m.placed p)
  | .root g => .root (m.grammar g)

/-- What a target is known by afterwards. -/
def key : RuleAddress ⊕ String → RuleAddress ⊕ String
  | .inl a => .inl (m.address a)
  | .inr scope => .inr scope

/-- A grammar that the rearrangement tells from the others: the one before, or one of another scope.
-/
def Tells (g : RawGrammar) : Prop :=
  g.scopeName = m.before.scopeName → g = m.before

section Addresses

theorem scope_address
    (a : RuleAddress) :
    (m.address a).scope = a.scope := by
  unfold address
  split <;> rfl

@[simp] theorem address_root
    (scope : String) :
    m.address ⟨scope, []⟩ = ⟨scope, []⟩ := by
  simp [address, renumberSteps]

@[simp] theorem address_named
    (a : RuleAddress)
    (name : String) :
    m.address (a.step (.named name)) = (m.address a).step (.named name) := by
  unfold address RuleAddress.step
  split <;> simp [renumberSteps_named]

theorem address_step
    {a : RuleAddress}
    (h : a.steps ≠ [])
    (step : Place) :
    m.address (a.step step) = (m.address a).step step := by
  unfold address RuleAddress.step
  split <;> simp [renumberSteps_cons m.places step h]

theorem address_of_scope_ne
    {a : RuleAddress}
    (h : a.scope ≠ m.before.scopeName) :
    m.address a = a :=
  if_neg h

@[simp] theorem symm_address
    (a : RuleAddress) :
    m.symm.address (m.address a) = a := by
  by_cases h : a.scope = m.before.scopeName
  · have hback : m.symm.address (m.address a) =
        ⟨(m.address a).scope, renumberSteps m.places.symm (m.address a).steps⟩ :=
      if_pos ((m.scope_address a).trans h)
    have hthere : m.address a = ⟨a.scope, renumberSteps m.places a.steps⟩ :=
      if_pos h
    rw [hback, hthere, renumberSteps_symm]
  · have h' : a.scope ≠ m.symm.before.scopeName := h
    rw [m.address_of_scope_ne h, m.symm.address_of_scope_ne h']

@[simp] theorem symm_key
    (key : RuleAddress ⊕ String) :
    m.symm.key (m.key key) = key := by
  cases key <;> simp [Rearrangement.key]

theorem key_injective
    {key key' : RuleAddress ⊕ String}
    (h : m.key key = m.key key') :
    key = key' := by
  rw [← m.symm_key key, h, m.symm_key]

@[simp] theorem scopeName_grammar
    (g : RawGrammar) :
    (m.grammar g).scopeName = g.scopeName := by
  unfold grammar
  split
  · rename_i h
    exact h.symm
  · rfl

@[simp] theorem grammar_before :
    m.grammar m.before = m.after :=
  if_pos rfl

theorem grammar_of_ne
    {g : RawGrammar}
    (h : g.scopeName ≠ m.before.scopeName) :
    m.grammar g = g :=
  if_neg h

theorem symm_grammar
    {g : RawGrammar}
    (h : m.Tells g) :
    m.symm.grammar (m.grammar g) = g := by
  by_cases hscope : g.scopeName = m.before.scopeName
  · obtain rfl := h hscope
    rw [grammar_before]
    exact m.symm.grammar_before
  · have hscope' : g.scopeName ≠ m.symm.before.scopeName := hscope
    rw [m.grammar_of_ne hscope, m.symm.grammar_of_ne hscope']

theorem key_target
    (t : Target) :
    (m.target t).key = m.key t.key := by
  cases t with
  | rule s p =>
      rfl
  | root g =>
      exact congrArg Sum.inr (m.scopeName_grammar g)

theorem symm_surroundings
    {s : Surroundings}
    (h : m.Tells s.grammar) :
    m.symm.surroundings (m.surroundings s) = s := by
  have hlayers : (s.layers.map m.layer).map m.symm.layer = s.layers := by
    rw [List.map_map]
    refine List.map_id'' (fun l => ?_) s.layers
    simp [layer]
  simp only [surroundings, hlayers, m.symm_grammar h]

end Addresses

section Scenes

/-- A repository has the same rules afterwards. -/
theorem rule?_layer
    (l : Layer)
    (name : String) :
    (m.layer l).rule? name = (l.rule? name).map m.placed := by
  simp only [Layer.rule?, layer, Option.map_map]
  congr 1
  funext r
  simp [placed]

theorem grammarLayer_surroundings
    {s : Surroundings}
    (h : m.Tells s.grammar) :
    (m.surroundings s).grammarLayer = m.layer s.grammarLayer := by
  by_cases hscope : s.grammar.scopeName = m.before.scopeName
  · simp only [Surroundings.grammarLayer, surroundings, layer, h hscope, grammar_before,
      address_root]
    rfl
  · simp only [Surroundings.grammarLayer, surroundings, layer, m.grammar_of_ne hscope, address_root]

/-- A name refers to the same rule afterwards. -/
theorem lookup_surroundings
    {s : Surroundings}
    (h : m.Tells s.grammar)
    (name : String) :
    (m.surroundings s).lookup name = (s.lookup name).map m.placed := by
  have hlayers : (m.surroundings s).layers ++ [(m.surroundings s).grammarLayer] =
      (s.layers ++ [s.grammarLayer]).map m.layer := by
    rw [m.grammarLayer_surroundings h, List.map_append]
    rfl
  rw [lookup_eq_findSome?, lookup_eq_findSome?, hlayers, List.findSome?_map,
    List.map_findSome?]
  congr 1
  funext l
  exact m.rule?_layer l name

theorem enter_surroundings
    (s : Surroundings)
    (p : PlacedRule) :
    m.surroundings (s.enter p) = (m.surroundings s).enter (m.placed p) := by
  rw [Surroundings.enter_eq, Surroundings.enter_eq]
  simp only [surroundings, placed]
  cases p.rule.repository <;> rfl

theorem within_surroundings
    (s : Surroundings)
    (p : PlacedRule) :
    m.surroundings (s.within p) = (m.surroundings s).within (m.placed p) := by
  have hgroup : (m.placed p).isGroup = p.isGroup := rfl
  unfold Surroundings.within
  rw [hgroup]
  split
  · exact m.enter_surroundings s p
  · rfl

theorem scene_target
    (t : Target) :
    (m.target t).scene = m.surroundings t.scene := by
  cases t with
  | rule s p =>
      exact (m.within_surroundings s p).symm
  | root g =>
      rfl

theorem placedPatterns_address
    {a : RuleAddress}
    (h : a.steps ≠ [])
    (patterns : List RawRule) :
    placedPatterns (m.address a) patterns = (placedPatterns a patterns).map m.placed := by
  apply List.ext_getElem <;> simp [placedPatterns, placed, m.address_step h]

/-- The patterns of a rule are the same afterwards. -/
theorem items_placed
    {p : PlacedRule}
    (h : p.address.steps ≠ []) :
    (m.placed p).items = p.items.map m.placed := by
  have hpatterns := m.placedPatterns_address h (p.rule.patterns.getD [])
  unfold PlacedRule.items
  have hrule : (m.placed p).rule = p.rule := rfl
  rw [hrule]
  split
  · rfl
  · rfl
  · exact hpatterns

/-- A root pattern of the rearranged grammar stands at its new place. -/
theorem placed_mem_items_root
    {q : PlacedRule}
    (hq : q ∈ (Target.root m.before).items) :
    m.placed q ∈ (Target.root m.after).items := by
  obtain ⟨i, hrule, haddress⟩ := mem_placedPatterns.mp hq
  refine mem_placedPatterns.mpr ⟨m.places i, (m.moved i).trans hrule, ?_⟩
  simp [placed, haddress, address, RuleAddress.step, renumberSteps, after]

/-- The root patterns of another grammar stay where they are. -/
theorem placed_of_mem_items_root
    {g : RawGrammar}
    (hscope : g.scopeName ≠ m.before.scopeName)
    {q : PlacedRule}
    (hq : q ∈ (Target.root g).items) :
    m.placed q = q := by
  obtain ⟨i, -, haddress⟩ := mem_placedPatterns.mp hq
  rw [placed, m.address_of_scope_ne (by rw [haddress]; exact hscope)]

theorem mem_items_target
    {t : Target}
    (hsteps : ∀ s p, t = .rule s p → p.address.steps ≠ [])
    (htells : ∀ g, t = .root g → m.Tells g)
    {q : PlacedRule}
    (hq : q ∈ t.items) :
    m.placed q ∈ (m.target t).items := by
  cases t with
  | rule s p =>
      have hitems : (m.target (.rule s p)).items = p.items.map m.placed :=
        m.items_placed (hsteps s p rfl)
      rw [hitems]
      exact List.mem_map_of_mem hq
  | root g =>
      by_cases hscope : g.scopeName = m.before.scopeName
      · obtain rfl := htells g rfl hscope
        simpa [target] using m.placed_mem_items_root hq
      · rw [m.placed_of_mem_items_root hscope hq, target, m.grammar_of_ne hscope]
        exact hq

end Scenes

/-- Sources before and after the root patterns of the grammar being tokenized are rearranged. -/
structure Between (A B : Sources) : Prop where
  base : A.base = m.before
  after : B.base = m.after
  known : A.grammar? m.before.scopeName = some m.before
  grammar? : ∀ scope, B.grammar? scope = (A.grammar? scope).map m.grammar

end Rearrangement

/-- A rule of a grammar stands somewhere inside it. -/
theorem RawGrammar.Writes.steps_ne_nil
    {g : RawGrammar}
    {s : Surroundings}
    {p : PlacedRule}
    (h : g.Writes s p) :
    p.address.steps ≠ [] := by
  cases h with
  | outermost hp =>
      rcases List.mem_append.mp hp with hp | hp
      · rcases List.mem_append.mp hp with hp | hp
        · obtain ⟨i, -, haddress⟩ := mem_placedPatterns.mp hp
          simp [haddress, RuleAddress.step]
        · obtain ⟨e, -, rfl⟩ := List.mem_map.mp hp
          exact List.cons_ne_nil _ _
      · obtain ⟨e, -, rfl⟩ := List.mem_map.mp hp
        exact List.cons_ne_nil _ _
  | inside _ hq =>
      rcases List.mem_append.mp hq with hq | hq
      · rcases List.mem_append.mp hq with hq | hq
        · obtain ⟨i, -, haddress⟩ := mem_placedPatterns.mp hq
          simp [haddress, RuleAddress.step]
        · obtain ⟨list, -, hq⟩ := List.mem_flatMap.mp hq
          obtain ⟨e, -, rfl⟩ := List.mem_map.mp hq
          exact List.cons_ne_nil _ _
      · obtain ⟨e, -, rfl⟩ := List.mem_map.mp hq
        exact List.cons_ne_nil _ _

theorem Target.Within.steps_ne_nil
    {sources : Sources}
    {s : Surroundings}
    {p : PlacedRule}
    (h : (Target.rule s p).Within sources) :
    p.address.steps ≠ [] := by
  obtain ⟨-, ⟨s₀, hwritten⟩, -⟩ := h
  exact hwritten.steps_ne_nil

theorem Target.Within.knows_scene
    {sources : Sources}
    {t : Target}
    (h : t.Within sources) :
    sources.Knows t.scene.grammar := by
  cases t with
  | rule s p =>
      exact h.scene.1
  | root g =>
      exact h

namespace Rearrangement.Between

variable {m : Rearrangement} {A B : Sources} (h : m.Between A B)
include h

theorem tells
    {g : RawGrammar}
    (hg : A.Knows g) :
    m.Tells g := by
  intro hscope
  have hbase : A.grammar? A.base.scopeName = some A.base := by
    rw [h.base]
    exact h.known
  rw [← h.base] at hscope ⊢
  exact eq_of_knows hbase hg (Or.inl rfl) hscope

theorem symm :
    m.symm.Between B A := by
  refine ⟨h.after, h.base, ?_, fun scope => ?_⟩
  · have hknown := h.grammar? m.before.scopeName
    rw [h.known, Option.map_some, grammar_before] at hknown
    exact hknown
  · rw [h.grammar? scope, Option.map_map]
    cases hg : A.grammar? scope with
    | none =>
        rfl
    | some g =>
        simp [m.symm_grammar (h.tells (knows_of_grammar? hg))]

/-- An include refers to the same afterwards. -/
theorem targetOf?_eq
    {s : Surroundings}
    (hs : A.Knows s.grammar)
    (r : Reference) :
    targetOf? B (m.surroundings s) r = (targetOf? A s r).map m.target := by
  have hbase : m.grammar A.base = B.base := by
    rw [h.base, grammar_before, h.after]
  unfold targetOf?
  split
  · simp [target, hbase]
  · rfl
  · simp [target, hbase]
  · rfl
  · rw [m.lookup_surroundings (h.tells hs), Option.map_map, Option.map_map]
    rfl
  · rw [h.grammar?, Option.map_map, Option.map_map]
    rfl
  · rename_i scope name
    rw [h.grammar?]
    cases hg : A.grammar? scope with
    | none =>
        rfl
    | some g =>
        have hlookup := m.lookup_surroundings (s := .root g) (h.tells (knows_of_grammar? hg)) name
        have hroot : m.surroundings (.root g) = .root (m.grammar g) := rfl
        rw [hroot] at hlookup
        simp only [Option.map_some, Option.bind_eq_bind, Option.bind_some, hlookup]
        cases (Surroundings.root g).lookup name <;> rfl

/-- A pattern stands for the same afterwards. -/
theorem patternTarget?_eq
    {s : Surroundings}
    (hs : A.Knows s.grammar)
    (q : PlacedRule) :
    patternTarget? B (m.surroundings s) (m.placed q) = (patternTarget? A s q).map m.target := by
  unfold patternTarget?
  have hrule : (m.placed q).rule = q.rule := rfl
  rw [hrule]
  cases q.rule.reference with
  | none =>
      rfl
  | some text =>
      exact h.targetOf?_eq hs _

section Within

variable {t u : Target} (ht : t.Within A)
include ht

theorem symm_target :
    m.symm.target (m.target t) = t := by
  cases t with
  | rule s p =>
      simp [target, m.symm_surroundings (h.tells ht.1), placed]
  | root g =>
      simp only [target, m.symm_grammar (h.tells ht)]

theorem mem_items
    {q : PlacedRule}
    (hq : q ∈ t.items) :
    m.placed q ∈ (m.target t).items := by
  refine m.mem_items_target (fun s p heq => ?_) (fun g heq => ?_) hq
  · subst heq
    exact ht.steps_ne_nil
  · subst heq
    exact h.tells ht

theorem item_eq
    (q : PlacedRule) :
    patternTarget? B (m.target t).scene (m.placed q) =
      (patternTarget? A t.scene q).map m.target := by
  rw [scene_target]
  exact h.patternTarget?_eq ht.knows_scene q

/-- What is inside a target is inside it afterwards. -/
theorem nests
    (hnests : A.Nests t u) :
    B.Nests (m.target t) (m.target u) := by
  cases hnests with
  | @pattern _ _ q hq hu =>
      refine .pattern (h.mem_items ht hq) ?_
      rw [h.item_eq ht q, hu]
      rfl
  | @capture s p role captures n key r hcaptures hr hpatterns =>
      have hcapture : B.Nests (.rule (m.surroundings s) (m.placed p))
          (.rule (m.surroundings s) ⟨(m.address p.address).step (.capture role key), r⟩) :=
        .capture hcaptures hr hpatterns
      have haddress := m.address_step ht.steps_ne_nil (.capture role key)
      simpa only [target, placed, haddress] using hcapture

theorem transGen
    (hnests : TransGen A.Nests t u) :
    u.Within A ∧ TransGen B.Nests (m.target t) (m.target u) := by
  induction hnests with
  | single hnests =>
      exact ⟨ht.of_nests hnests, .single (h.nests ht hnests)⟩
  | tail _ hnests ih =>
      obtain ⟨hwithin, hchain⟩ := ih
      exact ⟨hwithin.of_nests hnests, hchain.tail (h.nests hwithin hnests)⟩

end Within

/-- A chain leads to the same afterwards. -/
theorem inReach
    {t : Target}
    (ht : A.InReach t) :
    B.InReach (m.target t) := by
  induction ht with
  | refl =>
      have hroot : m.target (.root A.base) = .root B.base := by
        rw [target, h.base, grammar_before, h.after]
      rw [hroot]
      exact .refl
  | tail hreach hnests ih =>
      exact ih.tail (h.nests (Sources.InReach.within hreach) hnests)

theorem exists_target
    {t' : Target}
    (ht' : B.InReach t') :
    ∃ t, A.InReach t ∧ m.target t = t' :=
  ⟨m.symm.target t', h.symm.inReach ht', h.symm.symm_target ht'.within⟩

section InReach

variable {t : Target} (ht : A.InReach t)
include ht

theorem exists_item
    {q' : PlacedRule}
    (hq' : q' ∈ (m.target t).items) :
    ∃ q ∈ t.items, m.placed q = q' := by
  have hback := h.symm.mem_items (h.inReach ht).within hq'
  rw [h.symm_target ht.within] at hback
  have hsame : m.address (m.symm.address q'.address) = q'.address :=
    m.symm.symm_address q'.address
  exact ⟨_, hback, by simp only [placed, hsame]⟩

/-- What a pattern stands for afterwards is what it stood for, rearranged. -/
theorem exists_eq_some
    {q : PlacedRule}
    {u' : Target}
    (hu' : patternTarget? B (m.target t).scene (m.placed q) = some u') :
    ∃ u, patternTarget? A t.scene q = some u ∧ m.target u = u' := by
  rw [h.item_eq ht.within] at hu'
  exact Option.map_eq_some_iff.mp hu'

theorem eq_none_iff
    (q : PlacedRule) :
    patternTarget? B (m.target t).scene (m.placed q) = none ↔
      patternTarget? A t.scene q = none := by
  rw [h.item_eq ht.within, Option.map_eq_none_iff]

theorem dead
    (hdead : A.Dead t) :
    B.Dead (m.target t) := by
  induction hdead with
  | @intro t hmissing _ ih =>
      obtain ⟨q, hq, hnone⟩ := hmissing
      refine .intro ⟨m.placed q, h.mem_items ht.within hq, (h.eq_none_iff ht q).mpr hnone⟩
        fun q' hq' u' hu' => ?_
      obtain ⟨q, hq, rfl⟩ := h.exists_item ht hq'
      obtain ⟨u, hu, rfl⟩ := h.exists_eq_some ht hu'
      exact ih q hq u hu (ht.tail (.pattern hq hu))

theorem dead_iff :
    B.Dead (m.target t) ↔ A.Dead t := by
  refine ⟨fun hdead => ?_, h.dead ht⟩
  have hback := h.symm.dead (h.inReach ht) hdead
  rwa [h.symm_target ht.within] at hback

end InReach

/-- Targets with one key agree afterwards if they did before. -/
theorem consistent
    (hcons : A.Consistent) :
    B.Consistent := by
  intro t₁ t₂ ht₁ ht₂ hkey
  obtain ⟨t, ht, rfl⟩ := h.exists_target ht₁
  obtain ⟨t', ht', rfl⟩ := h.exists_target ht₂
  rw [m.key_target, m.key_target] at hkey
  have hagrees := hcons ht ht' (m.key_injective hkey)
  cases hagrees with
  | root g =>
      exact .root _
  | @rule s s' p hkeys =>
      refine .rule fun q' hq' => ?_
      obtain ⟨q, hq, rfl⟩ := h.exists_item ht hq'
      have hsame := congrArg (Option.map m.key) (hkeys q hq)
      simp only [Option.map_map] at hsame
      have hitem := h.item_eq ht.within q
      have hitem' := h.item_eq ht'.within q
      simp only [Target.scene, target] at hitem hitem'
      rw [hitem, hitem', Option.map_map, Option.map_map]
      simpa only [Function.comp_def, m.key_target] using hsame

theorem grounded
    (hgrounded : A.Grounded) :
    B.Grounded := by
  intro t' u' ht' hdead hchain hkey
  have hback := (h.symm.transGen ht'.within hchain).2
  refine hgrounded (h.symm.inReach ht') (h.symm.dead ht' hdead) hback ?_
  rw [key_target, key_target, hkey]

end Rearrangement.Between

end LineScopes
