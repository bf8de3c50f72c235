import LineScopes.Grammar.Dependency
import LineScopes.Rule.Compile

/-!
# Where rules are written

Every rule of a grammar stands inside other rules, whose repositories are in force around it. A
repository comes into force where a rule has no pattern of its own. The rules of a grammar can be
listed, and there are as many as its size says.

**Main definitions.** `Surroundings.within`, `RawGrammar.Writes`, `RawGrammar.Holds`,
`RawGrammar.sites`.

**Main statements.** `RawGrammar.Writes.of_layer`: what a repository in force holds is written in
the surroundings that begin with it. `mem_sites`, `length_sites_le`: every written rule is listed,
and the list is no longer than the size of the grammar.
-/

namespace LineScopes

/-- Fewer elements satisfy a stronger predicate that one of them fails. -/
theorem countP_lt_countP
    {α : Type}
    {p q : α → Bool}
    {l : List α}
    (hpq : ∀ a ∈ l, p a → q a)
    {a : α}
    (ha : a ∈ l)
    (hp : ¬ p a)
    (hq : q a) :
    l.countP p < l.countP q := by
  obtain ⟨before, rest, rfl⟩ := List.append_of_mem ha
  have hbefore : before.countP p ≤ before.countP q :=
    List.countP_mono_left fun b hb => hpq b (by simp [hb])
  have hrest : rest.countP p ≤ rest.countP q :=
    List.countP_mono_left fun b hb => hpq b (by simp [hb])
  simp only [List.countP_append, List.countP_cons_of_pos hq, List.countP_cons_of_neg hp]
  omega

section Size

/-- Entries count as their rules. -/
theorem sizeOfEntries_eq
    (entries : List (String × RawRule)) :
    sizeOfEntries entries = sizeOfRules (entries.map Prod.snd) := by
  induction entries with
  | nil =>
      rfl
  | cons e rest ih =>
      rw [sizeOfEntries, ih]
      rfl

theorem sizeOfEntries?_eq
    (entries : Option (List (String × RawRule))) :
    sizeOfEntries? entries = sizeOfRules ((entries.getD []).map Prod.snd) := by
  cases entries with
  | none =>
      rfl
  | some entries =>
      exact sizeOfEntries_eq entries

theorem sizeOfRules?_eq
    (rules : Option (List RawRule)) :
    sizeOfRules? rules = sizeOfRules (rules.getD []) := by
  cases rules <;> rfl

theorem sizeOfRules_append
    (rules rules' : List RawRule) :
    sizeOfRules (rules ++ rules') = sizeOfRules rules + sizeOfRules rules' := by
  induction rules with
  | nil =>
      simp [sizeOfRules]
  | cons r rest ih =>
      rw [List.cons_append, sizeOfRules, sizeOfRules, ih]
      omega

theorem size_pos
    (r : RawRule) :
    0 < r.size := by
  cases r
  simp only [RawRule.size]
  omega

theorem size_le_of_mem
    {r : RawRule}
    {rules : List RawRule}
    (hr : r ∈ rules) :
    r.size ≤ sizeOfRules rules := by
  obtain ⟨before, rest, rfl⟩ := List.append_of_mem hr
  rw [sizeOfRules_append, sizeOfRules]
  omega

@[simp] theorem map_rule_placedPatterns
    (a : RuleAddress)
    (rules : List RawRule) :
    (placedPatterns a rules).map PlacedRule.rule = rules := by
  apply List.ext_getElem <;> simp [placedPatterns]

@[simp] theorem map_rule_entries
    (address : String × RawRule → RuleAddress)
    (entries : List (String × RawRule)) :
    (entries.map fun e => PlacedRule.mk (address e) e.2).map PlacedRule.rule =
      entries.map Prod.snd := by
  rw [List.map_map]
  rfl

/-- A rule counts itself and the rules inside it. -/
theorem sizeOfRules_children
    (p : PlacedRule) :
    sizeOfRules (p.children.map PlacedRule.rule) + 1 = p.rule.size := by
  obtain ⟨a, r⟩ := p
  cases r
  simp only [PlacedRule.children, RawRule.captureLists, List.flatMap_cons, List.flatMap_nil,
    List.map_append, List.append_nil, sizeOfRules_append, map_rule_placedPatterns,
    map_rule_entries, RawRule.size, sizeOfEntries?_eq, sizeOfRules?_eq]
  omega

theorem sizeOfRules_children_grammar
    (g : RawGrammar) :
    sizeOfRules (g.children.map PlacedRule.rule) = g.size := by
  simp only [RawGrammar.children, List.map_append, sizeOfRules_append, map_rule_placedPatterns,
    map_rule_entries, RawGrammar.size, sizeOfEntries?_eq]

theorem size_lt_of_mem_children
    {p q : PlacedRule}
    (hq : q ∈ p.children) :
    q.rule.size < p.rule.size := by
  have hle := size_le_of_mem (List.mem_map_of_mem (f := PlacedRule.rule) hq)
  have hsum := sizeOfRules_children p
  omega

theorem size_le_of_mem_children_grammar
    {g : RawGrammar}
    {q : PlacedRule}
    (hq : q ∈ g.children) :
    q.rule.size ≤ g.size := by
  rw [← sizeOfRules_children_grammar g]
  exact size_le_of_mem (List.mem_map_of_mem hq)

/-- Lists for some rules, each no longer than the size of its rule, are together no longer than the
size of all the rules. -/
theorem length_flatMap_le
    {α : Type}
    {f : PlacedRule → List α}
    (h : ∀ p, (f p).length ≤ p.rule.size)
    (rules : List PlacedRule) :
    (rules.flatMap f).length ≤ sizeOfRules (rules.map PlacedRule.rule) := by
  induction rules with
  | nil =>
      exact Nat.le_refl 0
  | cons p rest ih =>
      have hp := h p
      rw [List.flatMap_cons, List.length_append, List.map_cons, sizeOfRules]
      omega

end Size

/-- Whether a rule has no pattern of its own. -/
def PlacedRule.isGroup (p : PlacedRule) : Bool :=
  (nonEmpty p.rule.matchPattern).isNone && (nonEmpty p.rule.beginPattern).isNone

/-- The surroundings of the rules inside a rule. -/
def Surroundings.within
    (s : Surroundings)
    (p : PlacedRule) : Surroundings :=
  if p.isGroup then s.enter p else s

/-- A rule of a grammar, and the surroundings it is written in. -/
inductive RawGrammar.Writes (g : RawGrammar) : Surroundings → PlacedRule → Prop
  | outermost {p : PlacedRule} (hp : p ∈ g.children) : g.Writes (.root g) p
  | inside {s : Surroundings} {p q : PlacedRule} (h : g.Writes s p) (hq : q ∈ p.children) :
      g.Writes (s.within p) q

/-- The repositories of a grammar, its own one and those of its rules. -/
inductive RawGrammar.Holds (g : RawGrammar) : Layer → Prop
  | own : g.Holds (Surroundings.root g).grammarLayer
  | nested {s : Surroundings} {p : PlacedRule} {entries : Repository} (h : g.Writes s p)
      (hentries : p.rule.repository = some entries) : g.Holds ⟨p.address, entries⟩

namespace Surroundings

theorem enter_eq
    (s : Surroundings)
    (p : PlacedRule) :
    s.enter p =
      ⟨s.grammar, (p.rule.repository.map (Layer.mk p.address)).toList ++ s.layers⟩ := by
  unfold enter
  cases p.rule.repository <;> rfl

@[simp] theorem grammar_enter
    (s : Surroundings)
    (p : PlacedRule) :
    (s.enter p).grammar = s.grammar := by
  rw [enter_eq]

@[simp] theorem grammar_within
    (s : Surroundings)
    (p : PlacedRule) :
    (s.within p).grammar = s.grammar := by
  unfold within
  split <;> simp

theorem subset_layers_enter
    (s : Surroundings)
    (p : PlacedRule) :
    s.layers ⊆ (s.enter p).layers := by
  rw [enter_eq]
  exact List.subset_append_right _ _

theorem mem_layers_enter
    {s : Surroundings}
    {p : PlacedRule}
    {l : Layer}
    (h : l ∈ (s.enter p).layers) :
    (∃ entries, p.rule.repository = some entries ∧ l = ⟨p.address, entries⟩) ∨ l ∈ s.layers := by
  rw [enter_eq] at h
  cases hrepository : p.rule.repository with
  | none =>
      right
      simpa [hrepository] using h
  | some entries =>
      rcases (by simpa [hrepository] using h : l = ⟨p.address, entries⟩ ∨ l ∈ s.layers) with
        rfl | h
      · exact Or.inl ⟨entries, rfl, rfl⟩
      · exact Or.inr h

/-- The repositories in force inside a rule are of its grammar. -/
theorem holds_enter
    {g : RawGrammar}
    {s s₀ : Surroundings}
    {p : PlacedRule}
    (hp : g.Writes s₀ p)
    (hlayers : ∀ l ∈ s.layers, g.Holds l) :
    ∀ l ∈ (s.enter p).layers, g.Holds l := by
  intro l hl
  rcases mem_layers_enter hl with ⟨entries, hentries, rfl⟩ | hl
  · exact .nested hp hentries
  · exact hlayers l hl

end Surroundings

section Places

theorem mem_children_of_mem_repository
    {p : PlacedRule}
    {entries : Repository}
    (hentries : p.rule.repository = some entries)
    {name : String}
    {r : RawRule}
    (h : (name, r) ∈ entries) :
    ⟨p.address.step (.named name), r⟩ ∈ p.children := by
  refine List.mem_append_right _ (List.mem_map.mpr ⟨(name, r), ?_, rfl⟩)
  simpa [hentries] using h

theorem mem_children_of_mem_own
    {g : RawGrammar}
    {name : String}
    {r : RawRule}
    (h : (name, r) ∈ g.repository.getD []) :
    ⟨RuleAddress.step ⟨g.scopeName, []⟩ (.named name), r⟩ ∈ g.children :=
  List.mem_append_left _ (List.mem_append_right _ (List.mem_map.mpr ⟨(name, r), h, rfl⟩))

theorem mem_children_of_mem_innerRules
    {p q : PlacedRule}
    (hq : q ∈ innerRules p) :
    q ∈ p.children :=
  List.mem_append_left _ hq

theorem mem_children_of_mem_rootRules
    {g : RawGrammar}
    {q : PlacedRule}
    (hq : q ∈ rootRules g) :
    q ∈ g.children := by
  rcases List.mem_append.mp hq with h | h
  · exact List.mem_append_left _ (List.mem_append_left _ h)
  · exact List.mem_append_right _ h

/-- A rule inside another one is in the same grammar. -/
theorem scope_of_mem_children
    {p q : PlacedRule}
    (hq : q ∈ p.children) :
    q.address.scope = p.address.scope := by
  rcases List.mem_append.mp hq with hq | hq
  · rcases List.mem_append.mp hq with hq | hq
    · obtain ⟨i, -, rfl⟩ := List.mem_mapIdx.mp hq
      rfl
    · obtain ⟨⟨role, captures⟩, -, hq⟩ := List.mem_flatMap.mp hq
      obtain ⟨e, -, rfl⟩ := List.mem_map.mp hq
      rfl
  · obtain ⟨e, -, rfl⟩ := List.mem_map.mp hq
    rfl

theorem scope_of_mem_children_grammar
    {g : RawGrammar}
    {q : PlacedRule}
    (hq : q ∈ g.children) :
    q.address.scope = g.scopeName := by
  rcases List.mem_append.mp hq with hq | hq
  · rcases List.mem_append.mp hq with hq | hq
    · obtain ⟨i, -, rfl⟩ := List.mem_mapIdx.mp hq
      rfl
    · obtain ⟨e, -, rfl⟩ := List.mem_map.mp hq
      rfl
  · obtain ⟨e, -, rfl⟩ := List.mem_map.mp hq
    rfl

end Places

namespace RawGrammar.Writes

variable {g : RawGrammar} {s : Surroundings} {p : PlacedRule} (h : g.Writes s p)
include h

theorem grammar_eq :
    s.grammar = g := by
  induction h with
  | outermost hp =>
      rfl
  | inside h hq ih =>
      rw [Surroundings.grammar_within, ih]

theorem scope_eq :
    p.address.scope = g.scopeName := by
  induction h with
  | outermost hp =>
      exact scope_of_mem_children_grammar hp
  | inside h hq ih =>
      rw [scope_of_mem_children hq, ih]

theorem holds_of_mem_layers
    {l : Layer}
    (hl : l ∈ s.layers) :
    g.Holds l := by
  induction h generalizing l with
  | outermost hp =>
      cases hl
  | @inside s p q h hq ih =>
      unfold Surroundings.within at hl
      split at hl
      · exact Surroundings.holds_enter h (fun _ hl => ih hl) l hl
      · exact ih hl

/-- The repositories a rule is written in are of its grammar. -/
theorem holds
    {l : Layer}
    (hl : l ∈ s.layers ++ [s.grammarLayer]) :
    g.Holds l := by
  rcases List.mem_append.mp hl with hl | hl
  · exact h.holds_of_mem_layers hl
  · obtain rfl := List.mem_singleton.mp hl
    rw [Surroundings.grammarLayer, h.grammar_eq]
    exact .own

/-- The entries of a repository in force are written in the surroundings that begin with it. -/
theorem of_layer
    {l : Layer}
    {rest : List Layer}
    (hl : l :: rest <:+ s.layers)
    {name : String}
    {r : RawRule}
    (hr : (name, r) ∈ l.entries) :
    g.Writes ⟨g, l :: rest⟩ ⟨l.owner.step (.named name), r⟩ := by
  induction h with
  | outermost hp =>
      cases List.suffix_nil.mp hl
  | @inside s p q h hq ih =>
      cases hrepository : p.rule.repository with
      | none =>
          refine ih ?_
          simpa [Surroundings.within, Surroundings.enter_eq, hrepository] using hl
      | some entries =>
          by_cases hgroup : p.isGroup
          · have hlayers : (s.within p).layers = ⟨p.address, entries⟩ :: s.layers := by
              simp [Surroundings.within, Surroundings.enter_eq, hrepository, hgroup]
            rcases List.suffix_cons_iff.mp (hlayers ▸ hl) with heq | hl
            · obtain ⟨rfl, rfl⟩ := List.cons.inj heq
              have hinside := Writes.inside h (mem_children_of_mem_repository hrepository hr)
              have heq : s.within p = ⟨g, ⟨p.address, entries⟩ :: s.layers⟩ := by
                simp [Surroundings.within, Surroundings.enter_eq, hrepository, hgroup,
                  h.grammar_eq]
              rwa [heq] at hinside
            · exact ih hl
          · exact ih (by simpa [Surroundings.within, hgroup] using hl)

end RawGrammar.Writes

/-- What a repository holds is written in its grammar. -/
theorem RawGrammar.Holds.writes
    {g : RawGrammar}
    {l : Layer}
    (h : g.Holds l)
    {name : String}
    {r : RawRule}
    (hr : (name, r) ∈ l.entries) :
    ∃ s₀, g.Writes s₀ ⟨l.owner.step (.named name), r⟩ := by
  cases h with
  | own =>
      exact ⟨_, .outermost (mem_children_of_mem_own hr)⟩
  | nested hwritten hentries =>
      exact ⟨_, .inside hwritten (mem_children_of_mem_repository hentries hr)⟩

/-- A rule and the rules inside it, each with its surroundings; they are nested less than `depth`
deep. -/
def Surroundings.sites : (depth : Nat) → Surroundings → PlacedRule →
    List (Surroundings × PlacedRule)
  | 0, _, _ => []
  | depth + 1, s, p => (s, p) :: p.children.flatMap (sites depth (s.within p))

/-- The rules of a grammar, each with its surroundings. -/
def RawGrammar.sites (g : RawGrammar) : List (Surroundings × PlacedRule) :=
  g.children.flatMap ((Surroundings.root g).sites g.size)

section Sites

theorem mem_sites_self
    {s : Surroundings}
    {p : PlacedRule}
    {depth : Nat}
    (hdepth : p.rule.size ≤ depth) :
    (s, p) ∈ s.sites depth p := by
  cases depth with
  | zero =>
      have hpos := size_pos p.rule
      omega
  | succ depth =>
      exact List.mem_cons_self

theorem mem_sites_inside
    {depth : Nat}
    {s s₀ : Surroundings}
    {p p₀ q : PlacedRule}
    (hdepth : p₀.rule.size ≤ depth)
    (hp : (s, p) ∈ s₀.sites depth p₀)
    (hq : q ∈ p.children) :
    (s.within p, q) ∈ s₀.sites depth p₀ := by
  induction depth generalizing s₀ p₀ with
  | zero =>
      cases hp
  | succ depth ih =>
      right
      rcases List.mem_cons.mp hp with heq | hp
      · obtain ⟨rfl, rfl⟩ := Prod.mk.inj heq
        have hlt := size_lt_of_mem_children hq
        exact List.mem_flatMap.mpr ⟨q, hq, mem_sites_self (by omega)⟩
      · obtain ⟨c, hc, hp⟩ := List.mem_flatMap.mp hp
        have hlt := size_lt_of_mem_children hc
        exact List.mem_flatMap.mpr ⟨c, hc, ih (by omega) hp⟩

/-- Every rule of a grammar is listed. -/
theorem mem_sites
    {g : RawGrammar}
    {s : Surroundings}
    {p : PlacedRule}
    (h : g.Writes s p) :
    (s, p) ∈ g.sites := by
  induction h with
  | outermost hp =>
      exact List.mem_flatMap.mpr ⟨_, hp, mem_sites_self (size_le_of_mem_children_grammar hp)⟩
  | inside h hq ih =>
      obtain ⟨c, hc, hp⟩ := List.mem_flatMap.mp ih
      exact List.mem_flatMap.mpr ⟨c, hc, mem_sites_inside (size_le_of_mem_children_grammar hc) hp hq⟩

theorem length_sites_le_size
    (depth : Nat)
    (s : Surroundings)
    (p : PlacedRule) :
    (s.sites depth p).length ≤ p.rule.size := by
  induction depth generalizing s p with
  | zero =>
      exact Nat.zero_le _
  | succ depth ih =>
      have hinside := length_flatMap_le (ih (s.within p)) p.children
      have hsum := sizeOfRules_children p
      simp only [Surroundings.sites, List.length_cons]
      omega

theorem length_sites_le
    (g : RawGrammar) :
    g.sites.length ≤ g.size := by
  rw [← sizeOfRules_children_grammar g]
  exact length_flatMap_le (length_sites_le_size g.size (.root g)) g.children

/-- The repositories of a grammar. -/
def RawGrammar.repositories (g : RawGrammar) : List Layer :=
  (Surroundings.root g).grammarLayer ::
    g.sites.filterMap fun x => x.2.rule.repository.map (Layer.mk x.2.address)

theorem mem_repositories
    {g : RawGrammar}
    {l : Layer}
    (h : g.Holds l) :
    l ∈ g.repositories := by
  cases h with
  | own =>
      exact List.mem_cons_self
  | nested hwritten hentries =>
      refine List.mem_cons_of_mem _ (List.mem_filterMap.mpr ⟨_, mem_sites hwritten, ?_⟩)
      simp [hentries]

end Sites

end LineScopes
