import LineScopes.Proofs.Grammar.Written
import Mathlib.Data.List.Nodup

/-!
# What includes mean

In a regular grammar an include of a name means one rule, whatever other repositories of the grammar
are in force where it is resolved. Then what a rule leads to, and what it asks of other grammars, is
settled by the rule alone.

**Main definitions.** `RawGrammar.Regular`, `Surroundings.Serves`, `Leads`, `Asks`.

**Main statements.** `Serves.lookup_eq`: a name means the same in all surroundings that serve a
rule. `Serves.follow_eq`: so does every include. `Serves.of_followReference`: what an include leads
to is served again.
-/

namespace LineScopes

/-- A rule includes something. -/
def PlacedRule.RefersTo
    (p : PlacedRule)
    (r : Reference) : Prop :=
  p.rule.reference.map Reference.ofText = some r

namespace Layer

/-- The rule with a name in a repository. -/
def rule?
    (l : Layer)
    (name : String) : Option PlacedRule :=
  (l.entries.lookup name).map fun r => ⟨l.owner.step (.named name), r⟩

/-- A repository has a rule with a name. -/
def Has
    (l : Layer)
    (name : String) : Prop :=
  (l.rule? name).isSome

theorem exists_of_rule?_eq_some
    {l : Layer}
    {name : String}
    {q : PlacedRule}
    (h : l.rule? name = some q) :
    ∃ r, (name, r) ∈ l.entries ∧ q = ⟨l.owner.step (.named name), r⟩ := by
  obtain ⟨r, hr, rfl⟩ := Option.map_eq_some_iff.mp h
  obtain ⟨l₁, l₂, heq, -⟩ := List.lookup_eq_some_iff.mp hr
  exact ⟨r, by simp [heq], rfl⟩

end Layer

/-- Addresses tell the rules of a grammar apart, and a name that is included is the name of at most
one rule, which is in a repository around every include of it. -/
structure RawGrammar.Regular (g : RawGrammar) : Prop where
  keyed : ∀ {s s' : Surroundings} {p p' : PlacedRule}, g.Writes s p → g.Writes s' p' →
    p.address = p'.address → p = p'
  around : ∀ {s : Surroundings} {p : PlacedRule} {name : String} {l : Layer}, g.Writes s p →
    p.RefersTo (.named name) → g.Holds l → l.Has name → l ∈ s.layers ++ [s.grammarLayer]
  unique : ∀ {s : Surroundings} {p : PlacedRule} {name : String} {l l' : Layer}, g.Writes s p →
    p.RefersTo (.named name) → g.Holds l → l.Has name → g.Holds l' → l'.Has name → l' = l
  /-- The name `$self` has another meaning to the compiler. -/
  proper : ∀ {s : Surroundings} {p : PlacedRule}, g.Writes s p → ¬ p.RefersTo (.named "$self")

instance (l : Layer) (name : String) : Decidable (l.Has name) :=
  inferInstanceAs (Decidable (_ = true))

/-- The name that a rule includes. -/
def PlacedRule.includedName? (p : PlacedRule) : Option String :=
  match p.rule.reference.map Reference.ofText with
  | some (.named name) => some name
  | _ => none

/-- Whether a grammar is regular can be read off its lists of rules and repositories. -/
theorem regular_of_sites
    {g : RawGrammar}
    (hkeyed : (g.sites.map fun x => x.2.address).Nodup)
    (hnames : ∀ x ∈ g.sites, ∀ name ∈ x.2.includedName?, name ≠ "$self" ∧
      ((g.repositories.filter fun l => l.Has name).length ≤ 1) ∧
      ((∃ l ∈ g.repositories, l.Has name) → ∃ l ∈ x.1.layers ++ [x.1.grammarLayer], l.Has name)) :
    g.Regular := by
  have hname : ∀ {p : PlacedRule} {name}, p.RefersTo (.named name) →
      name ∈ p.includedName? := by
    intro p name hr
    simp only [PlacedRule.includedName?, show Option.map _ _ = _ from hr, Option.mem_def]
  have hunique : ∀ {s : Surroundings} {p : PlacedRule} {name} {l l' : Layer}, g.Writes s p →
      p.RefersTo (.named name) → g.Holds l → l.Has name → g.Holds l' → l'.Has name → l' = l := by
    intro s p name l l' hwritten hr hl hhas hl' hhas'
    obtain ⟨-, hone, -⟩ := hnames _ (mem_sites hwritten) name (hname hr)
    have hmem : l ∈ g.repositories.filter fun l => l.Has name :=
      List.mem_filter.mpr ⟨mem_repositories hl, by simpa using hhas⟩
    have hmem' : l' ∈ g.repositories.filter fun l => l.Has name :=
      List.mem_filter.mpr ⟨mem_repositories hl', by simpa using hhas'⟩
    generalize g.repositories.filter (fun l => l.Has name) = found at hone hmem hmem'
    match found, hone with
    | [only], _ =>
        rw [List.mem_singleton.mp hmem, List.mem_singleton.mp hmem']
  constructor
  · intro s s' p p' hwritten hwritten' haddress
    have heq := List.inj_on_of_nodup_map hkeyed (mem_sites hwritten) (mem_sites hwritten') haddress
    exact congrArg Prod.snd heq
  · intro s p name l hwritten hr hl hhas
    obtain ⟨-, -, haround⟩ := hnames _ (mem_sites hwritten) name (hname hr)
    obtain ⟨l', hl', hhas'⟩ := haround ⟨l, mem_repositories hl, hhas⟩
    rwa [← hunique hwritten hr hl hhas (hwritten.holds hl') hhas']
  · exact hunique
  · intro s p hwritten hr
    exact (hnames _ (mem_sites hwritten) _ (hname hr)).1 rfl

/-- All grammars of a library are regular. -/
def Library.Regular (l : Library) : Prop :=
  ∀ {scope : String} {g : RawGrammar}, l.get? scope = some g → g.Regular

theorem regular_of_grammars
    {l : Library}
    (h : ∀ g ∈ l.grammars, g.Regular) :
    l.Regular :=
  fun hg => h _ (List.mem_of_find?_eq_some hg)

/-- A grammar is found under its own scope. -/
theorem scopeName_of_get?
    {l : Library}
    {scope : String}
    {g : RawGrammar}
    (h : l.get? scope = some g) :
    g.scopeName = scope := by
  simpa using List.find?_some h

/-- The surroundings may be in force at a rule: they are of a grammar that is available, have all
repositories the rule is written in, and no repository of another grammar. -/
structure Surroundings.Serves
    (available : Library)
    (s : Surroundings)
    (p : PlacedRule) : Prop where
  known : available.get? s.grammar.scopeName = some s.grammar
  written : ∃ s₀, s.grammar.Writes s₀ p ∧ s₀.layers ⊆ s.layers
  holds : ∀ l ∈ s.layers, s.grammar.Holds l

/-- The walk goes from a rule to the rules inside it and to those it includes. -/
inductive Leads
    (available : Library)
    (base : RawGrammar)
    (p q : PlacedRule) : Prop
  | inner (hq : q ∈ innerRules p)
  | follow {s s' : Surroundings} {r : Reference} {rules : List PlacedRule}
    (hs : s.Serves available p) (hr : p.RefersTo r)
    (hrules : followReference base s r = .inl (s', rules)) (hq : q ∈ rules)

/-- A rule includes something of a grammar that has to be loaded. -/
def Asks
    (available : Library)
    (base : RawGrammar)
    (p : PlacedRule)
    (request : Request) : Prop :=
  ∃ s r, s.Serves available p ∧ p.RefersTo r ∧ followReference base s r = .inr request

theorem lookup_eq_findSome?
    (s : Surroundings)
    (name : String) :
    s.lookup name = (s.layers ++ [s.grammarLayer]).findSome? (·.rule? name) :=
  rfl

/-- A rule that is looked up is written in the grammar it is looked up in. -/
theorem writes_of_lookup
    {s : Surroundings}
    (hlayers : ∀ l ∈ s.layers, s.grammar.Holds l)
    {name : String}
    {q : PlacedRule}
    (hq : s.lookup name = some q) :
    ∃ s₀, s.grammar.Writes s₀ q := by
  rw [lookup_eq_findSome?] at hq
  obtain ⟨l, hl, hentry⟩ := List.exists_of_findSome?_eq_some hq
  obtain ⟨r, hr, rfl⟩ := Layer.exists_of_rule?_eq_some hentry
  rcases List.mem_append.mp hl with hl | hl
  · exact (hlayers l hl).writes hr
  · obtain rfl := List.mem_singleton.mp hl
    exact RawGrammar.Holds.own.writes hr

/-- A name is looked up in the one repository that has it. -/
theorem lookup_eq_of_unique
    {s : Surroundings}
    {name : String}
    {l : Layer}
    (hl : l ∈ s.layers ++ [s.grammarLayer])
    (hunique : ∀ l' ∈ s.layers ++ [s.grammarLayer], l'.Has name → l' = l) :
    s.lookup name = l.rule? name := by
  rw [lookup_eq_findSome?]
  cases h : (s.layers ++ [s.grammarLayer]).findSome? (·.rule? name) with
  | none =>
      exact (List.findSome?_eq_none_iff.mp h l hl).symm
  | some q =>
      obtain ⟨l', hl', hq⟩ := List.exists_of_findSome?_eq_some h
      have hhas : l'.Has name := by
        simp [Layer.Has, hq]
      rw [← hunique l' hl' hhas, hq]

theorem knownGrammar_eq_some
    {base self g : RawGrammar}
    {scope : String}
    (h : knownGrammar base self scope = some g) :
    (g = self ∨ g = base) ∧ g.scopeName = scope := by
  unfold knownGrammar at h
  split at h
  · cases h
    exact ⟨Or.inl rfl, by simp_all⟩
  · split at h
    · cases h
      exact ⟨Or.inr rfl, by simp_all⟩
    · cases h

/-- A rule that is looked up in a grammar is one of its outermost rules. -/
theorem mem_children_of_lookup_root
    {g : RawGrammar}
    {name : String}
    {q : PlacedRule}
    (h : (Surroundings.root g).lookup name = some q) :
    q ∈ g.children := by
  have hentry : (Surroundings.root g).grammarLayer.rule? name = some q := by
    rw [← h]
    exact (lookup_eq_of_unique (by simp [Surroundings.root])
      (by simp [Surroundings.root])).symm
  obtain ⟨r, hr, rfl⟩ := Layer.exists_of_rule?_eq_some hentry
  exact mem_children_of_mem_own hr

namespace Surroundings

theorem serves_root
    {available : Library}
    {g : RawGrammar}
    (hg : available.get? g.scopeName = some g)
    {q : PlacedRule}
    (hq : q ∈ g.children) :
    (root g).Serves available q :=
  ⟨hg, ⟨root g, .outermost hq, fun _ h => h⟩, by simp [root]⟩

namespace Serves

variable {available : Library} {s s' : Surroundings} {p p' q : PlacedRule}

theorem holds_of_mem
    (hs : s.Serves available p)
    {l : Layer}
    (hl : l ∈ s.layers ++ [s.grammarLayer]) :
    s.grammar.Holds l := by
  rcases List.mem_append.mp hl with hl | hl
  · exact hs.holds l hl
  · obtain rfl := List.mem_singleton.mp hl
    exact .own

/-- A rule brings its own repository into force. -/
theorem enter
    (hs : s.Serves available p) :
    (s.enter p).Serves available p := by
  obtain ⟨s₀, hwritten, hsubset⟩ := hs.written
  refine ⟨by simpa using hs.known, ⟨s₀, by simpa using hwritten, ?_⟩, ?_⟩
  · exact List.Subset.trans hsubset (subset_layers_enter s p)
  · simpa using holds_enter hwritten hs.holds

/-- What is inside a rule is served where the repository of the rule is in force. -/
theorem enter_child
    (hs : s.Serves available p)
    (hq : q ∈ p.children) :
    (s.enter p).Serves available q := by
  obtain ⟨s₀, hwritten, hsubset⟩ := hs.written
  refine ⟨hs.enter.known, ⟨s₀.within p, ?_, ?_⟩, hs.enter.holds⟩
  · simpa using RawGrammar.Writes.inside hwritten hq
  · intro l hl
    unfold within at hl
    split at hl
    · rcases mem_layers_enter hl with ⟨entries, hentries, rfl⟩ | hl
      · simp [enter_eq, hentries]
      · exact subset_layers_enter s p (hsubset hl)
    · exact subset_layers_enter s p (hsubset hl)

/-- The repository of a rule with a pattern of its own is not needed inside it. -/
theorem child
    (hs : s.Serves available p)
    (hgroup : p.isGroup = false)
    (hq : q ∈ p.children) :
    s.Serves available q := by
  obtain ⟨s₀, hwritten, hsubset⟩ := hs.written
  refine ⟨hs.known, ⟨s₀.within p, .inside hwritten hq, ?_⟩, hs.holds⟩
  simpa [within, hgroup] using hsubset

/-- A served rule stands in the grammar of its surroundings. -/
theorem scope_eq
    (hs : s.Serves available p) :
    p.address.scope = s.grammar.scopeName := by
  obtain ⟨s₀, hwritten, -⟩ := hs.written
  exact hwritten.scope_eq

theorem grammar_eq
    (hs : s.Serves available p)
    (hs' : s'.Serves available p')
    (haddress : p.address = p'.address) :
    s.grammar = s'.grammar := by
  have hscope : s.grammar.scopeName = s'.grammar.scopeName := by
    rw [← hs.scope_eq, ← hs'.scope_eq, haddress]
  have hknown := hs.known
  rw [hscope, hs'.known] at hknown
  exact (Option.some.inj hknown).symm

variable (hregular : available.Regular)
include hregular

/-- An address is the address of one served rule. -/
theorem eq_of_address
    (hs : s.Serves available p)
    (hs' : s'.Serves available p')
    (haddress : p.address = p'.address) :
    p = p' := by
  obtain ⟨s₀, hwritten, -⟩ := hs.written
  obtain ⟨s₁, hwritten', -⟩ := hs'.written
  rw [← hs.grammar_eq hs' haddress] at hwritten'
  exact (hregular hs.known).keyed hwritten hwritten' haddress

/-- The one repository that has a name is where the name is looked up. -/
theorem lookup_eq_rule?
    (hs : s.Serves available p)
    {name : String}
    (hname : p.RefersTo (.named name))
    {l : Layer}
    (hl : s.grammar.Holds l)
    (hhas : l.Has name) :
    s.lookup name = l.rule? name := by
  obtain ⟨s₀, hwritten, hsubset⟩ := hs.written
  have hmem := (hregular hs.known).around hwritten hname hl hhas
  refine lookup_eq_of_unique ?_ fun l' hl' hhas' =>
    (hregular hs.known).unique hwritten hname hl hhas (hs.holds_of_mem hl') hhas'
  rcases List.mem_append.mp hmem with hmem | hmem
  · exact List.mem_append_left _ (hsubset hmem)
  · refine List.mem_append_right _ ?_
    simpa [grammarLayer, hwritten.grammar_eq] using hmem

/-- A name means the same in all surroundings that serve a rule. -/
theorem lookup_eq
    (hs : s.Serves available p)
    (hs' : s'.Serves available p)
    {name : String}
    (hname : p.RefersTo (.named name)) :
    s.lookup name = s'.lookup name := by
  have hgrammar := hs.grammar_eq hs' rfl
  by_cases h : ∃ l, s.grammar.Holds l ∧ l.Has name
  · obtain ⟨l, hl, hhas⟩ := h
    rw [hs.lookup_eq_rule? hregular hname hl hhas,
      hs'.lookup_eq_rule? hregular hname (hgrammar ▸ hl) hhas]
  · have hnone : ∀ {t : Surroundings}, t.grammar = s.grammar → t.Serves available p →
        t.lookup name = none := by
      intro t ht hserves
      refine List.findSome?_eq_none_iff.mpr fun l hl => ?_
      exact Option.not_isSome_iff_eq_none.mp fun hhas =>
        h ⟨l, ht ▸ hserves.holds_of_mem hl, hhas⟩
    rw [hnone rfl hs, hnone hgrammar.symm hs']

/-- The rule that a name means is served where the name is looked up. -/
theorem of_lookup
    (hs : s.Serves available p)
    {name : String}
    (hname : p.RefersTo (.named name))
    (hq : s.lookup name = some q) :
    s.Serves available q := by
  obtain ⟨s₀, hwritten, hsubset⟩ := hs.written
  obtain ⟨l, hl, hentry⟩ := List.exists_of_findSome?_eq_some hq
  have hhas : l.Has name := by
    exact Option.isSome_iff_exists.mpr ⟨q, hentry⟩
  obtain ⟨r, hr, rfl⟩ := Layer.exists_of_rule?_eq_some hentry
  refine ⟨hs.known, ?_, hs.holds⟩
  rcases List.mem_append.mp ((hregular hs.known).around hwritten hname (hs.holds_of_mem hl) hhas)
    with hmem | hmem
  · obtain ⟨before, rest, hlayers⟩ := List.append_of_mem hmem
    refine ⟨⟨s.grammar, l :: rest⟩, hwritten.of_layer ⟨before, hlayers.symm⟩ hr, ?_⟩
    refine List.Subset.trans ?_ hsubset
    rw [hlayers]
    exact List.subset_append_right _ _
  · obtain rfl := List.mem_singleton.mp hmem
    have hchild := mem_children_of_mem_own hr
    rw [hwritten.grammar_eq] at hchild
    refine ⟨root s.grammar, ?_, by simp [root]⟩
    simpa [grammarLayer, hwritten.grammar_eq] using RawGrammar.Writes.outermost hchild

/-- An include means the same in all surroundings that serve a rule. -/
theorem follow_eq
    (base : RawGrammar)
    (hs : s.Serves available p)
    (hs' : s'.Serves available p)
    {r : Reference}
    (hr : p.RefersTo r) :
    (followReference base s r).map Prod.snd id = (followReference base s' r).map Prod.snd id := by
  have hgrammar := hs.grammar_eq hs' rfl
  cases r with
  | base =>
      rfl
  | self =>
      simp [followReference, hgrammar]
  | named name =>
      simp [followReference, hs.lookup_eq hregular hs' hr]
  | whole scope =>
      simp only [followReference, hgrammar]
  | part scope name =>
      simp only [followReference, hgrammar]

/-- What an include leads to is served in the surroundings it leads to. They are of the same grammar
or of the initial one. -/
theorem of_followReference
    {base : RawGrammar}
    (hbase : available.get? base.scopeName = some base)
    (hs : s.Serves available p)
    {r : Reference}
    (hr : p.RefersTo r)
    {rules : List PlacedRule}
    (hrules : followReference base s r = .inl (s', rules)) :
    (s'.grammar = s.grammar ∨ s'.grammar = base) ∧ ∀ q ∈ rules, s'.Serves available q := by
  have hknown : ∀ {scope g}, knownGrammar base s.grammar scope = some g →
      (g = s.grammar ∨ g = base) ∧ available.get? g.scopeName = some g := by
    intro scope g h
    obtain ⟨rfl | rfl, -⟩ := knownGrammar_eq_some h
    · exact ⟨Or.inl rfl, hs.known⟩
    · exact ⟨Or.inr rfl, hbase⟩
  cases r with
  | base =>
      cases hrules
      exact ⟨Or.inr rfl, fun q hq => serves_root hbase (mem_children_of_mem_rootRules hq)⟩
  | self =>
      cases hrules
      exact ⟨Or.inl rfl, fun q hq => serves_root hs.known (mem_children_of_mem_rootRules hq)⟩
  | named name =>
      cases hrules
      refine ⟨Or.inl rfl, fun q hq => hs.of_lookup hregular hr ?_⟩
      simpa using hq
  | whole scope =>
      simp only [followReference] at hrules
      cases hg : knownGrammar base s.grammar scope with
      | none =>
          simp [hg] at hrules
      | some g =>
          simp only [hg, Sum.inl.injEq, Prod.mk.injEq] at hrules
          obtain ⟨rfl, rfl⟩ := hrules
          obtain ⟨hgrammar, havailable⟩ := hknown hg
          exact ⟨hgrammar, fun q hq => serves_root havailable (mem_children_of_mem_rootRules hq)⟩
  | part scope name =>
      simp only [followReference] at hrules
      cases hg : knownGrammar base s.grammar scope with
      | none =>
          simp [hg] at hrules
      | some g =>
          simp only [hg, Sum.inl.injEq, Prod.mk.injEq] at hrules
          obtain ⟨rfl, rfl⟩ := hrules
          obtain ⟨hgrammar, havailable⟩ := hknown hg
          exact ⟨hgrammar, fun q hq => serves_root havailable (mem_children_of_lookup_root
            (Option.mem_toList.mp hq))⟩

end Serves

end Surroundings

/-- What a served rule leads to is served. -/
theorem Leads.serves
    {available : Library}
    {base : RawGrammar}
    {p q : PlacedRule}
    (h : Leads available base p q)
    (hregular : available.Regular)
    (hbase : available.get? base.scopeName = some base)
    {s : Surroundings}
    (hs : s.Serves available p) :
    ∃ s', Surroundings.Serves available s' q := by
  cases h with
  | inner hq =>
      exact ⟨s.enter p, hs.enter_child (mem_children_of_mem_innerRules hq)⟩
  | @follow s₁ s' r rules hs₁ hr hrules hq =>
      exact ⟨s', (hs₁.of_followReference hregular hbase hr hrules).2 q hq⟩

end LineScopes
