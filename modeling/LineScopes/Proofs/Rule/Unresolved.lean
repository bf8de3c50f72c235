import LineScopes.Proofs.Rule.Permuted

/-!
# Rules whose includes are all missing

A rule is barren if it has patterns, and all of them are includes that cannot be resolved or barren
rules written in place. A barren rule is left out where its body has been compiled by then and says
so: an include is missing in its own list, and no pattern is left. So it is listed all the same if
some list on the way down has no include of its own, if a rule stands for it without patterns, or if
it is asked for while it waits.

**Main definitions.** `CompileRequest.Reaches`, `CompileRequest.Barren`, `CompileRequest.Circular`,
`RawRule.Evident`, `Target.IsAlias`.

**Main statements.** `isInert_iff_evident`: the body of a barren rule is inert if the rule is
evidently barren. `Grammar.mem_patterns_iff_of_barren`: which patterns list a barren rule.
`Grammar.exists_listed_barren`: barren rules that are listed.
-/

namespace LineScopes

open Relation (ReflTransGen TransGen)

/-- A barren rule is evidently so if an include stands in its own list, and all rules written in
place there are evidently barren. -/
inductive RawRule.Evident : RawRule → Prop
  | intro {r : RawRule} (hinclude : ∃ q ∈ r.patterns.getD [], q.reference.isSome)
    (hrest : ∀ q ∈ r.patterns.getD [], q.reference = none → q.Evident) : r.Evident

/-- The patterns that are written in a rule. -/
def PlacedRule.written (p : PlacedRule) : List PlacedRule :=
  placedPatterns p.address (p.rule.patterns.getD [])

/-- A rule that has no patterns and stands for what it includes. -/
def Target.IsAlias : Target → Prop
  | .rule _ p => ∃ text, p.rule.kind = .group (some text)
  | .root _ => False

namespace CompileRequest

/-- A compilation starts with the root patterns and goes on with what is injected. -/
def Starts
    (r : CompileRequest)
    (t : Target) : Prop :=
  t = .root r.sources.base ∨ ∃ e ∈ r.sources.declared r.injected, t = e.2

/-- A chain of rules and includes leads to a target. -/
def Reaches
    (r : CompileRequest)
    (t : Target) : Prop :=
  ∃ start, r.Starts start ∧ ReflTransGen r.sources.Nests start t

/-- A rule without a match that has patterns, each of which is an include that cannot be resolved,
whatever chain leads to the rule, or a barren rule written in place. -/
inductive Barren (r : CompileRequest) : PlacedRule → Prop
  | intro {p : PlacedRule} (hmatch : nonEmpty p.rule.matchPattern = none)
    (hpatterns : p.written ≠ [])
    (hmissing : ∀ q ∈ p.written, q.rule.reference.isSome → ∀ s, r.Reaches (.rule s p) →
      patternTarget? r.sources (s.within p) q = none)
    (hrest : ∀ q ∈ p.written, q.rule.reference = none → r.Barren q) : r.Barren p

/-- A chain leads from a rule back to it. -/
def Circular
    (r : CompileRequest)
    (p : PlacedRule) : Prop :=
  ∃ s s', r.Reaches (.rule s p) ∧ TransGen r.sources.Nests (.rule s p) (.rule s' p)

end CompileRequest

section Written

variable {sources : Sources} {p q : PlacedRule}

theorem evident_iff
    {r : RawRule} :
    r.Evident ↔ (∃ q ∈ r.patterns.getD [], q.reference.isSome) ∧
      ∀ q ∈ r.patterns.getD [], q.reference = none → q.Evident :=
  ⟨fun ⟨hinclude, hrest⟩ => ⟨hinclude, hrest⟩, fun ⟨hinclude, hrest⟩ => .intro hinclude hrest⟩

/-- Being evident can be read off the rules where they stand. -/
theorem evident_iff_written :
    p.rule.Evident ↔ (∃ q ∈ p.written, q.rule.reference.isSome) ∧
      ∀ q ∈ p.written, q.rule.reference = none → q.rule.Evident := by
  have hrules : p.rule.patterns.getD [] = p.written.map PlacedRule.rule :=
    (map_rule_placedPatterns _ _).symm
  rw [evident_iff, hrules, List.forall_mem_map]
  simp only [List.mem_map, exists_exists_and_eq_and]

/-- A rule without a match has its patterns compiled, if there are any. -/
theorem items_eq_written
    (hmatch : nonEmpty p.rule.matchPattern = none)
    (hpatterns : p.written ≠ []) :
    p.items = p.written ∧ (∀ pattern, p.rule.kind ≠ .simple pattern) ∧
      ∀ text, p.rule.kind ≠ .group (some text) := by
  have hkind : ∀ pattern, p.rule.kind ≠ .simple pattern := by
    intro pattern hkind
    unfold RawRule.kind at hkind
    rw [hmatch] at hkind
    split at hkind
    · rename_i hnone
      cases hnone
    · split at hkind <;> cases hkind
    · cases hkind
  have halias : ∀ text, p.rule.kind ≠ .group (some text) := by
    intro text hheld
    apply hpatterns
    simp [PlacedRule.written, (reference_of_held hheld).1, placedPatterns]
  refine ⟨?_, hkind, halias⟩
  unfold PlacedRule.items
  split
  · rename_i pattern h
    exact absurd h (hkind pattern)
  · rename_i text h
    exact absurd h (halias text)
  · rfl

/-- A rule that an include refers to stands in a repository. -/
theorem exists_named_of_targetOf?
    {s s' : Surroundings}
    {reference : Reference}
    (h : targetOf? sources s reference = some (.rule s' q)) :
    ∃ (a : RuleAddress) (name : String), q.address = a.step (.named name) := by
  have hlookup : ∀ {s₀ : Surroundings} {name : String} {found : PlacedRule},
      s₀.lookup name = some found → ∃ a : RuleAddress, found.address = a.step (.named name) := by
    intro s₀ name found hfound
    rw [lookup_eq_findSome?] at hfound
    obtain ⟨l, -, hl⟩ := List.exists_of_findSome?_eq_some hfound
    obtain ⟨rule, -, rfl⟩ := Option.map_eq_some_iff.mp hl
    exact ⟨l.owner, rfl⟩
  unfold targetOf? at h
  split at h
  case h_5 =>
    obtain ⟨found, hfound, heq⟩ := Option.map_eq_some_iff.mp h
    cases heq
    obtain ⟨a, ha⟩ := hlookup hfound
    exact ⟨a, _, ha⟩
  case h_6 =>
    obtain ⟨g, -, heq⟩ := Option.map_eq_some_iff.mp h
    cases heq
  case h_7 =>
    obtain ⟨g, -, h⟩ := Option.bind_eq_some_iff.mp h
    obtain ⟨found, hfound, heq⟩ := Option.bind_eq_some_iff.mp h
    cases heq
    obtain ⟨a, ha⟩ := hlookup hfound
    exact ⟨a, _, ha⟩
  all_goals cases h

/-- A rule written in place is only nested in the rule it is written in. -/
theorem exists_rule_of_nests
    (hq : q ∈ p.written)
    (hsteps : p.address.steps ≠ [])
    {t : Target}
    {s : Surroundings}
    (h : sources.Nests t (.rule s q)) :
    ∃ s' p', t = .rule s' p' ∧ p'.address = p.address := by
  obtain ⟨i, -, haddress⟩ := mem_placedPatterns.mp hq
  cases h with
  | @pattern t _ q' hq' hu =>
      unfold patternTarget? at hu
      split at hu
      · obtain ⟨a, name, hnamed⟩ := exists_named_of_targetOf? hu
        simp [haddress, RuleAddress.step] at hnamed
      · rename_i hreference
        cases hu
        cases t with
        | root g =>
            obtain ⟨j, -, haddress'⟩ := mem_placedPatterns.mp hq'
            have hsame := congrArg RuleAddress.steps (haddress.symm.trans haddress')
            exact absurd (List.cons.inj hsame).2 hsteps
        | rule s' p' =>
            rcases mem_items hq' with ⟨rfl, text, hkind⟩ | hq'
            · rw [(reference_of_held hkind).2] at hreference
              cases hreference
            · obtain ⟨j, -, haddress'⟩ := mem_placedPatterns.mp hq'
              obtain ⟨hscope, hsame⟩ := RuleAddress.mk.inj (haddress'.symm.trans haddress)
              exact ⟨s', p', rfl, congrArg₂ RuleAddress.mk hscope (List.cons.inj hsame).2⟩
  | capture =>
      simp [RuleAddress.step] at haddress

end Written

section Survey

variable {r : CompileRequest}

namespace CompileRequest

theorem Reaches.tail
    {t u : Target}
    (h : r.Reaches t)
    (hnests : r.sources.Nests t u) :
    r.Reaches u := by
  obtain ⟨start, hstart, hchain⟩ := h
  exact ⟨start, hstart, hchain.tail hnests⟩

theorem Reaches.within
    {t : Target}
    (h : r.Reaches t) :
    t.Within r.sources := by
  obtain ⟨start, hstart, hchain⟩ := h
  induction hchain with
  | refl =>
      rcases hstart with rfl | ⟨e, he, rfl⟩
      · exact Or.inl rfl
      · exact within_declared he
  | tail _ hnests ih =>
      exact ih.of_nests hnests

/-- A compilation does not start with a rule written in place. -/
theorem Starts.ne_written
    {t : Target}
    (h : r.Starts t)
    {s : Surroundings}
    {p q : PlacedRule}
    (hq : q ∈ p.written) :
    t ≠ .rule s q := by
  rintro rfl
  obtain ⟨i, -, haddress⟩ := mem_placedPatterns.mp hq
  rcases h with h | ⟨e, he, h⟩
  · cases h
  · rcases List.mem_append.mp he with he | he
    · obtain ⟨written, -, rfl⟩ := List.mem_map.mp he
      cases h
      simp [RuleAddress.step] at haddress
    · obtain ⟨scope, -, hscope⟩ := List.mem_filterMap.mp he
      obtain ⟨g, -, hselector⟩ := Option.bind_eq_some_iff.mp hscope
      obtain ⟨text, -, rfl⟩ := Option.map_eq_some_iff.mp hselector
      cases h

end CompileRequest

namespace CompileRequest.Barren

/-- A pattern of a barren rule stands for itself or for nothing. -/
theorem patternTarget?_eq
    {p : PlacedRule}
    (h : r.Barren p)
    {s : Surroundings}
    (hp : r.Reaches (.rule s p))
    {q : PlacedRule}
    (hq : q ∈ p.written) :
    patternTarget? r.sources (s.within p) q =
      if q.rule.reference = none then some (.rule (s.within p) q) else none := by
  obtain ⟨-, -, hmissing, -⟩ := h
  cases hreference : q.rule.reference with
  | none =>
      simp [patternTarget?, hreference]
  | some text =>
      simpa using hmissing q hq (by simp [hreference]) s hp

/-- A barren rule is compiled to a list of its patterns. -/
theorem exists_lists
    {p : PlacedRule}
    (h : r.Barren p)
    {tested : Target → Bool → Prop}
    {b : Build}
    {s : Surroundings}
    {body : Rule}
    (hbody : Body r.sources tested b (.rule s p) body) :
    Lists r.sources tested b (s.within p) p.written body.patterns body.missing := by
  obtain ⟨hmatch, hpatterns, -, -⟩ := h
  obtain ⟨hitems, hsimple, halias⟩ := items_eq_written hmatch hpatterns
  rw [← hitems]
  cases hbody with
  | simple hkind =>
      exact absurd hkind (hsimple _)
  | region _ hlists =>
      exact hlists
  | lines _ hlists =>
      exact hlists
  | held hkind =>
      exact absurd hkind (halias _)
  | unresolved hkind =>
      exact absurd hkind (halias _)
  | group _ hlists =>
      exact hlists

end CompileRequest.Barren

/-- What is found out by testing the place of a barren rule that no chain leads back to. -/
def CompileRequest.Finds
    (r : CompileRequest)
    (t : Target)
    (inert : Bool) : Prop :=
  ∀ s p, t = .rule s p → r.Barren p → ¬ r.Circular p → (inert = true ↔ p.rule.Evident)

variable (hbase : r.sources.grammar? r.sources.base.scopeName = some r.sources.base)
  (hkeyed : ∀ g, r.sources.Knows g → g.Keyed)
include hbase hkeyed

/-- What is known by the address of a rule is the rule. -/
theorem CompileRequest.Reaches.eq_rule
    {t : Target}
    (ht : r.Reaches t)
    {s : Surroundings}
    {p : PlacedRule}
    (hp : r.Reaches (.rule s p))
    (hkey : t.key = .inl p.address) :
    ∃ s', t = .rule s' p := by
  cases t with
  | root g =>
      cases hkey
  | rule s' p' =>
      obtain ⟨-, rfl⟩ :=
        eq_of_address_of_within hbase hkeyed ht.within hp.within (Sum.inl.inj hkey)
      exact ⟨s', rfl⟩

/-- A chain that leads to a rule written in place leads through the rule it is written in. -/
theorem exists_outer_of_nests
    {s : Surroundings}
    {p q : PlacedRule}
    (hp : r.Reaches (.rule s p))
    (hq : q ∈ p.written)
    {t : Target}
    (ht : r.Reaches t)
    {s' : Surroundings}
    (hnests : r.sources.Nests t (.rule s' q)) :
    ∃ s₀, t = .rule s₀ p := by
  obtain ⟨s₀, p', rfl, haddress⟩ := exists_rule_of_nests hq hp.within.steps_ne_nil hnests
  exact ht.eq_rule hbase hkeyed hp (congrArg Sum.inl haddress)

/-- If a chain leads from a rule written in place back to it, it leads from the rule that it is
written in back to that rule. -/
theorem CompileRequest.Circular.outer
    {s : Surroundings}
    {p q : PlacedRule}
    (hp : r.Reaches (.rule s p))
    (hq : q ∈ p.written)
    (h : r.Circular q) :
    r.Circular p := by
  obtain ⟨s₁, s₂, hfirst, hback⟩ := h
  obtain ⟨start, hstart, hchain⟩ := hfirst
  rcases ReflTransGen.cases_tail hchain with heq | ⟨t, hto, hnests⟩
  · exact absurd heq.symm (hstart.ne_written hq)
  have ht : r.Reaches t := ⟨start, hstart, hto⟩
  obtain ⟨s₃, rfl⟩ := exists_outer_of_nests hbase hkeyed hp hq ht hnests
  obtain ⟨u, hthere, hnests'⟩ := TransGen.tail'_iff.mp hback
  have hreturn := TransGen.head' hnests hthere
  have hu : r.Reaches u := ⟨start, hstart, hto.trans hreturn.to_reflTransGen⟩
  obtain ⟨s₄, rfl⟩ := exists_outer_of_nests hbase hkeyed hp hq hu hnests'
  exact ⟨s₃, s₄, ht, hreturn⟩

/-- The body of a barren rule is inert if the rule is evidently barren. -/
theorem isInert_iff_evident
    {s : Surroundings}
    {p : PlacedRule}
    (hp : r.Reaches (.rule s p))
    (hbarren : r.Barren p)
    (hcircular : ¬ r.Circular p)
    {b : Build}
    {body : Rule}
    (hbody : Body r.sources r.Finds b (.rule s p) body) :
    body.isInert = true ↔ p.rule.Evident := by
  have hlists := hbarren.exists_lists hbody
  have htarget : ∀ q ∈ p.written, patternTarget? r.sources (s.within p) q = _ :=
    fun q hq => hbarren.patternTarget?_eq hp hq
  -- the rules written in place are barren, and no chain leads back to them
  have hfinds : ∀ q ∈ p.written, ∀ u inert, patternTarget? r.sources (s.within p) q = some u →
      r.Finds u inert → (inert = true ↔ ∀ s' q', u = .rule s' q' → q'.rule.Evident) := by
    intro q hq u inert hu htested
    obtain ⟨-, -, -, hrest⟩ := hbarren
    rw [htarget q hq] at hu
    split at hu
    · rename_i hreference
      cases hu
      have hinner : ¬ r.Circular q := fun h => hcircular (h.outer hbase hkeyed hp hq)
      have htest := htested _ q rfl (hrest q hq hreference) hinner
      rw [htest]
      refine ⟨fun h s' q' heq => ?_, fun h => h _ q rfl⟩
      cases heq
      exact h
    · cases hu
  rw [Rule.isInert, Bool.and_eq_true, hlists.missing_iff, hlists.isEmpty_iff hfinds,
    evident_iff_written]
  refine and_congr (exists_congr fun q => and_congr_right fun hq => ?_)
    (forall_congr' fun q => forall_congr' fun hq => ?_)
  · rw [htarget q hq, Option.isSome_iff_ne_none]
    split <;> simp_all
  · rw [htarget q hq]
    refine ⟨fun h hreference => h _ (if_pos hreference) _ q rfl, fun h u hu s' q' heq => ?_⟩
    split at hu
    · rename_i hreference
      cases hu
      cases heq
      exact h hreference
    · cases hu

/-- A place that is tested while it waits is that of a rule with a chain back to it. -/
theorem surveys_finds :
    Surveys r.sources r.Reaches r.Finds := by
  refine ⟨fun h => h.within, fun h hnests => h.tail hnests, ?_⟩
  rintro room b t u id ht hnests hid s p rfl hbarren hcircular
  have hp := ht.inReach.tail hnests
  obtain ⟨body, hbody, hne⟩ := ht.sound.placed hid
  have hinert : b.isInert id = body.isInert := by
    simp [Build.isInert, hbody]
  rw [hinert]
  cases ht.sound.explained hbody with
  | waits =>
      obtain ⟨w, hw, hwid, hchain⟩ := ht.waiting hbody
      obtain ⟨s', rfl⟩ := hw.eq_rule hbase hkeyed hp (ht.sound.unique hwid hid)
      exact absurd ⟨s', s, hw, TransGen.tail' hchain hnests⟩ hcircular
  | body hw hwid hsays =>
      obtain ⟨s', rfl⟩ := hw.eq_rule hbase hkeyed hp (ht.sound.unique hwid hid)
      exact isInert_iff_evident hbase hkeyed hw hbarren hcircular hsays
  | capture =>
      exact absurd rfl (hne _)

end Survey

section Listed

variable {sources : Sources} {tested : Target → Bool → Prop} {b : Build}

/-- Whatever is listed is what a pattern stands for, and was not left out. -/
theorem Lists.exists_pattern
    {s : Surroundings}
    {items : List PlacedRule}
    {ids : List RuleId}
    {m : Bool}
    (h : Lists sources tested b s items ids m)
    {i : RuleId}
    (hi : i ∈ ids) :
    ∃ q ∈ items, ∃ u, patternTarget? sources s q = some u ∧ b.number? u.key = some i ∧
      tested u false := by
  induction h with
  | nil =>
      cases hi
  | missing _ _ ih =>
      obtain ⟨q, hq, hfound⟩ := ih hi
      exact ⟨q, List.mem_cons_of_mem _ hq, hfound⟩
  | left _ _ _ _ ih =>
      obtain ⟨q, hq, hfound⟩ := ih hi
      exact ⟨q, List.mem_cons_of_mem _ hq, hfound⟩
  | listed hu hid htested _ ih =>
      rcases List.mem_cons.mp hi with rfl | hi
      · exact ⟨_, List.mem_cons_self, _, hu, hid, htested⟩
      · obtain ⟨q, hq, hfound⟩ := ih hi
        exact ⟨q, List.mem_cons_of_mem _ hq, hfound⟩

/-- A rule that stands for what it includes keeps it whatever the test says. -/
theorem Body.exists_pattern
    {t : Target}
    {body : Rule}
    (h : Body sources tested b t body)
    {i : RuleId}
    (hi : i ∈ body.patterns) :
    ∃ q ∈ t.items, ∃ u, patternTarget? sources t.scene q = some u ∧ b.number? u.key = some i ∧
      (tested u false ∨ t.IsAlias) := by
  have hlists : ∀ {ids m}, Lists sources tested b t.scene t.items ids m → i ∈ ids →
      ∃ q ∈ t.items, ∃ u, patternTarget? sources t.scene q = some u ∧ b.number? u.key = some i ∧
        (tested u false ∨ t.IsAlias) := by
    intro ids m hlists hi
    obtain ⟨q, hq, u, hu, hid, htested⟩ := hlists.exists_pattern hi
    exact ⟨q, hq, u, hu, hid, Or.inl htested⟩
  cases h with
  | root hpatterns =>
      exact hlists hpatterns hi
  | simple =>
      cases hi
  | region _ hpatterns =>
      exact hlists hpatterns hi
  | lines _ hpatterns =>
      exact hlists hpatterns hi
  | held hkind hu hid =>
      obtain rfl := List.mem_singleton.mp hi
      exact ⟨_, mem_items_of_held hkind, _, hu, hid, Or.inr ⟨_, hkind⟩⟩
  | unresolved =>
      cases hi
  | group _ hpatterns =>
      exact hlists hpatterns hi

/-- What a rule stands for is listed. -/
theorem Body.mem_patterns_of_isAlias
    {t : Target}
    {body : Rule}
    (h : Body sources tested b t body)
    (halias : t.IsAlias)
    {q : PlacedRule}
    (hq : q ∈ t.items)
    {u : Target}
    (hu : patternTarget? sources t.scene q = some u)
    {i : RuleId}
    (hi : b.number? u.key = some i) :
    i ∈ body.patterns := by
  cases t with
  | root g =>
      cases halias
  | rule s p =>
      obtain ⟨text, hkind⟩ := halias
      have hitems := items_of_held hkind
      cases h with
      | held _ hu' hid =>
          rw [Target.items, hitems] at hq
          obtain rfl := List.mem_singleton.mp hq
          obtain rfl := Option.some.inj (hu'.symm.trans hu)
          obtain rfl := Option.some.inj (hid.symm.trans hi)
          exact List.mem_cons_self
      | unresolved _ hu' =>
          rw [Target.items, hitems] at hq
          obtain rfl := List.mem_singleton.mp hq
          cases hu'.symm.trans hu
      | simple hkind' =>
          cases hkind.symm.trans hkind'
      | region hkind' =>
          cases hkind.symm.trans hkind'
      | lines hkind' =>
          cases hkind.symm.trans hkind'
      | group hkind' =>
          cases hkind.symm.trans hkind'

end Listed

section Targets

variable {r : CompileRequest} {targets : List Target}
variable (hinjections : r.sources.declared r.injected = [])
  (hroot : .root r.sources.base ∈ targets)
  (hclosed : ∀ t ∈ targets, ∀ u ∈ r.sources.inside t, u ∈ targets)
include hinjections hroot hclosed

namespace CompileRequest

/-- If nothing is injected, a list with the root and everything inside its members has all targets
that chains lead to. -/
theorem Reaches.mem_of_closed
    {t : Target}
    (h : r.Reaches t) :
    t ∈ targets := by
  obtain ⟨start, hstart, hchain⟩ := h
  rcases hstart with rfl | ⟨e, he, -⟩
  · exact Sources.InReach.mem_of_closed hroot hclosed hchain
  · rw [hinjections] at he
    cases he

/-- No chain leads from a rule back to it if all that is inside the rule leads nowhere. -/
theorem not_circular_of_targets
    {p : PlacedRule}
    (h : ∀ t ∈ targets, t.key = .inl p.address → ∀ u ∈ r.sources.inside t,
      u.key ≠ .inl p.address ∧ (r.sources.inside u).isEmpty) :
    ¬ r.Circular p := by
  rintro ⟨s, s', hs, hback⟩
  have hmem := hs.mem_of_closed hinjections hroot hclosed
  obtain ⟨u, hnests, hchain⟩ := TransGen.head'_iff.mp hback
  obtain ⟨hne, hempty⟩ := h _ hmem rfl u hnests.mem_inside
  rcases ReflTransGen.cases_head hchain with rfl | ⟨v, hnests', -⟩
  · exact hne rfl
  · have hinside := hnests'.mem_inside
    rw [List.isEmpty_iff.mp hempty] at hinside
    cases hinside

end CompileRequest

end Targets

namespace Grammar

/-- Which patterns list a barren rule that no chain leads back to. A place belongs to a target, and
the rule is listed there if some pattern of the target stands for it, and either the rule is not
evidently barren or the target is a rule that stands for what it includes. -/
theorem mem_patterns_iff_of_barren
    {r : CompileRequest}
    (hbase : r.sources.grammar? r.sources.base.scopeName = some r.sources.base)
    (hkeyed : ∀ g, r.sources.Knows g → g.Keyed) :
    let b := (compileRules r).2
    ∀ i rule, b.rules[i]? = some rule → rule.isBody →
      ∃ t, r.Reaches t ∧ b.number? t.key = some i ∧
        ∀ s p id, r.Reaches (.rule s p) → r.Barren p → ¬ r.Circular p →
          b.number? (.inl p.address) = some id →
          (id ∈ rule.patterns ↔
            (∃ q ∈ t.items, ∃ s', patternTarget? r.sources t.scene q = some (.rule s' p)) ∧
              (¬ p.rule.Evident ∨ t.IsAlias)) := by
  intro b i rule hrule hisBody
  have hroot : r.Reaches (.root r.sources.base) := ⟨_, Or.inl rfl, .refl⟩
  have hdeclared : ∀ e ∈ r.sources.declared r.injected, r.Reaches e.2 :=
    fun e he => ⟨e.2, Or.inr ⟨e, he, rfl⟩, .refl⟩
  obtain ⟨-, hsettled, -⟩ :=
    compileRules_goes r (surveys_finds hbase hkeyed) hroot hdeclared
  cases hsettled.sound.explained hrule with
  | waits =>
      exact absurd hrule (hsettled.filled i)
  | capture =>
      cases hisBody
  | @body t _ ht hid hbody =>
      refine ⟨t, ht, hid, fun s p id hp hbarren hcircular hnumber => ⟨fun hlisted => ?_, ?_⟩⟩
      · obtain ⟨q, hq, u, hu, hnumber', htested⟩ := hbody.exists_pattern hlisted
        have hkey := hsettled.sound.unique hnumber' hnumber
        obtain ⟨s', rfl⟩ := (ht.tail (.pattern hq hu)).eq_rule hbase hkeyed hp hkey
        refine ⟨⟨q, hq, s', hu⟩, htested.imp_left fun htest hevident => ?_⟩
        exact Bool.false_ne_true ((htest s' p rfl hbarren hcircular).mpr hevident)
      · rintro ⟨⟨q, hq, s', hu⟩, hkept⟩
        rcases hkept with hevident | halias
        · obtain ⟨j, hj, hlisted⟩ := hbody.exists_listed hq hu
          obtain rfl := Option.some.inj (hj.symm.trans hnumber)
          refine hlisted.resolve_left fun htest => hevident ?_
          exact (htest s' p rfl hbarren hcircular).mp rfl
        · exact hbody.mem_patterns_of_isAlias halias hq hu hnumber

/-- A region between two delimiters. -/
def regionOf
    (opening closing : String)
    (patterns : List RawRule) : RawRule :=
  { beginPattern := some opening, endPattern := some closing, patterns := some patterns }

/-- A region for which nothing is found, and that includes itself in its captured text. -/
def captionRule : RawRule :=
  { regionOf "|" "|" [{ reference := some "#none" }] with
    beginCaptures := some [("0", { patterns := some [{ reference := some "#caption" }] })] }

/-- Two regions for which nothing is found, one of which has the include in a group; a rule that
stands for a third one; and one that includes itself in its captured text. -/
def bracketsRequest : CompileRequest where
  sources :=
    { base :=
        { scopeName := "source"
          patterns := [
            regionOf "(" ")" [{ reference := some "#none" }],
            regionOf "(" ")" [{ patterns := some [{ reference := some "#none" }] }],
            { reference := some "#alias" },
            { reference := some "#caption" }]
          repository := some [
            ("alias", { reference := some "#held" }),
            ("caption", captionRule),
            ("held", regionOf "<" ">" [{ reference := some "#none" }])] }
      library := ⟨[]⟩ }

/-- What the root patterns stand for, and what is inside that. -/
def bracketsTargets : List Target :=
  let base := bracketsRequest.sources.base
  let outer := bracketsRequest.sources.inside (.root base)
  .root base :: outer ++ (outer.drop 1).flatMap bracketsRequest.sources.inside

theorem closed_brackets :
    ∀ t ∈ bracketsTargets, ∀ u ∈ bracketsRequest.sources.inside t, u ∈ bracketsTargets :=
  Sources.closed_of_places [[1, 2, 3, 4], [], [5], [6], [7], [], [], [4]] rfl

theorem mem_brackets_of_reaches
    {t : Target}
    (h : bracketsRequest.Reaches t) :
    t ∈ bracketsTargets :=
  h.mem_of_closed rfl List.mem_cons_self closed_brackets

/-- Whatever chain leads there, the missing include refers to nothing. -/
theorem barren_brackets
    {p : PlacedRule}
    (hmatch : nonEmpty p.rule.matchPattern = none)
    (hpatterns : p.rule.patterns = some [{ reference := some "#none" }]) :
    bracketsRequest.Barren p := by
  have hwritten : p.written = [⟨p.address.step (.pattern 0), { reference := some "#none" }⟩] := by
    rw [PlacedRule.written, hpatterns]
    rfl
  have hmissing : ∀ t ∈ bracketsTargets,
      (targetOf? bracketsRequest.sources t.scene (.ofText "#none")).isNone := by
    decide +kernel
  refine .intro hmatch (by simp [hwritten]) (fun q hq _ s hs => ?_) fun q hq hreference => ?_
  · obtain rfl := List.mem_singleton.mp (hwritten ▸ hq)
    exact Option.isNone_iff_eq_none.mp (hmissing _ (mem_brackets_of_reaches hs))
  · obtain rfl := List.mem_singleton.mp (hwritten ▸ hq)
    cases hreference

/-- The region in which the include stands on its own. -/
def plainRegion : PlacedRule :=
  ⟨⟨"source", [.pattern 0]⟩, regionOf "(" ")" [{ reference := some "#none" }]⟩

/-- The region in which the include stands in a group. -/
def wrappedRegion : PlacedRule :=
  ⟨⟨"source", [.pattern 1]⟩,
    regionOf "(" ")" [{ patterns := some [{ reference := some "#none" }] }]⟩

theorem barren_wrappedRegion :
    bracketsRequest.Barren wrappedRegion := by
  have hwritten : wrappedRegion.written = [⟨⟨"source", [.pattern 0, .pattern 1]⟩,
      { patterns := some [{ reference := some "#none" }] }⟩] :=
    rfl
  refine .intro rfl (by simp [hwritten]) (fun q hq hreference => ?_) fun q hq _ => ?_
  · obtain rfl := List.mem_singleton.mp (hwritten ▸ hq)
    cases hreference
  · obtain rfl := List.mem_singleton.mp (hwritten ▸ hq)
    exact barren_brackets rfl rfl

/-- A root pattern that includes nothing stands for itself. -/
theorem exists_of_root_pattern
    {r : CompileRequest}
    {g : RawGrammar}
    (hg : r.Reaches (.root g))
    {i : Nat}
    {p : PlacedRule}
    (hp : (Target.root g).items[i]? = some p)
    (hreference : p.rule.reference = none) :
    (∃ q ∈ (Target.root g).items, ∃ s,
      patternTarget? r.sources (Target.root g).scene q = some (.rule s p)) ∧
      ∃ s, r.Reaches (.rule s p) := by
  have hmem := List.mem_of_getElem? hp
  have hu : patternTarget? r.sources (Target.root g).scene p = some (.rule (.root g) p) := by
    simp [patternTarget?, hreference, Target.scene]
  exact ⟨⟨p, hmem, _, hu⟩, _, hg.tail (.pattern hmem hu)⟩

/-- At the root, the region with the include in its own list is left out, and the one with the
include in a group is kept. -/
theorem mem_patterns_iff_of_barren_brackets :
    let r := bracketsRequest
    let b := (compileRules r).2
    r.sources.grammar? r.sources.base.scopeName = some r.sources.base ∧
      (∀ g, r.sources.Knows g → g.Keyed) ∧
      (r.Barren plainRegion ∧ ¬ r.Circular plainRegion ∧
        b.number? (.inl plainRegion.address) = some 1) ∧
      (r.Barren wrappedRegion ∧ ¬ r.Circular wrappedRegion ∧
        b.number? (.inl wrappedRegion.address) = some 2) ∧
      ∃ rule, b.rules[rootRule]? = some rule ∧ 1 ∉ rule.patterns ∧ 2 ∈ rule.patterns := by
  intro r b
  have hkeyed : ∀ g, r.sources.Knows g → g.Keyed := by
    rintro g (rfl | hg)
    · exact RawGrammar.keyed_of_sites (by decide +kernel)
    · cases hg
  have hplain : r.Barren plainRegion ∧ ¬ r.Circular plainRegion ∧
      b.number? (.inl plainRegion.address) = some 1 :=
    ⟨barren_brackets rfl rfl, CompileRequest.not_circular_of_targets rfl List.mem_cons_self
      closed_brackets (by decide +kernel), by decide +kernel⟩
  have hwrapped : r.Barren wrappedRegion ∧ ¬ r.Circular wrappedRegion ∧
      b.number? (.inl wrappedRegion.address) = some 2 :=
    ⟨barren_wrappedRegion, CompileRequest.not_circular_of_targets rfl List.mem_cons_self
      closed_brackets (by decide +kernel), by decide +kernel⟩
  refine ⟨rfl, hkeyed, hplain, hwrapped, ?_⟩
  obtain ⟨-, patterns, missing, hrule⟩ := (closed_compileRules r).root
  obtain ⟨t, ht, hid, hlisted⟩ :=
    mem_patterns_iff_of_barren (r := r) rfl hkeyed rootRule _ hrule rfl
  have hroot : t = .root r.sources.base := by
    have hkey := (goes_compileRules r).2.1.unique hid (number?_root r)
    cases t with
    | rule s p =>
        cases hkey
    | root g =>
        rw [eq_of_knows rfl ht.within (Or.inl rfl) (Sum.inr.inj hkey)]
  subst hroot
  obtain ⟨-, s, hs⟩ := exists_of_root_pattern ht (i := 0) (p := plainRegion) rfl rfl
  obtain ⟨hitem, s', hs'⟩ := exists_of_root_pattern ht (i := 1) (p := wrappedRegion) rfl rfl
  refine ⟨_, hrule, fun hmem => ?_, ?_⟩
  · obtain ⟨-, hhidden | halias⟩ := (hlisted s _ 1 hs hplain.1 hplain.2.1 hplain.2.2).mp hmem
    · refine hhidden (.intro ⟨_, List.mem_cons_self, rfl⟩ fun q hq hreference => ?_)
      obtain rfl := List.mem_singleton.mp hq
      cases hreference
    · cases halias
  · refine (hlisted s' _ 2 hs' hwrapped.1 hwrapped.2.1 hwrapped.2.2).mpr ⟨hitem, Or.inl ?_⟩
    rintro ⟨⟨q, hq, hreference⟩, -⟩
    obtain rfl := List.mem_singleton.mp hq
    cases hreference

/-- Barren rules are listed: at the root the region with the include in a group, and not the one
with the include in its own list; in the rule without patterns the region it stands for; in the
captured text of a region the region itself, which waits. -/
theorem exists_listed_barren :
    let r := bracketsRequest
    let b := (compileRules r).2
    let held : PlacedRule :=
      ⟨⟨"source", [.named "held"]⟩, regionOf "<" ">" [{ reference := some "#none" }]⟩
    let caption : PlacedRule := ⟨⟨"source", [.named "caption"]⟩, captionRule⟩
    (r.Barren plainRegion ∧ b.number? (.inl plainRegion.address) = some 1) ∧
      (r.Barren wrappedRegion ∧ b.number? (.inl wrappedRegion.address) = some 2) ∧
      b.rules[rootRule]?.map Rule.patterns = some [2, 4] ∧
      (r.Barren held ∧ b.number? (.inl held.address) = some 5) ∧
      b.rules[4]?.map Rule.patterns = some [5] ∧
      (r.Barren caption ∧ b.number? (.inl caption.address) = some 6) ∧
      b.rules[7]?.map Rule.patterns = some [6] := by
  refine ⟨⟨barren_brackets rfl rfl, ?_⟩, ⟨barren_wrappedRegion, ?_⟩, ?_,
    ⟨barren_brackets rfl rfl, ?_⟩, ?_, ⟨barren_brackets rfl rfl, ?_⟩, ?_⟩ <;> decide +kernel

end Grammar

end LineScopes
