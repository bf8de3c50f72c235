import LineScopes.Proofs.Scan.Contract

/-!
# What the patterns of a set stand for

The patterns that can start rules are labelled with rules of the table. Only the end pattern of a
region is labelled as an end, so an end can only match where a region is on top or was injected.

**Main statements.** `exists_rule_of_mem_flatten`: what can start a rule. `isRegion_of_closing`:
where an end can match.
-/

namespace LineScopes

/-- What can start a rule is labelled with a rule of the table. -/
theorem exists_rule_of_mem_flatten
    {rules : RuleTable}
    {bound : Nat}
    {path : List RuleId}
    {id : RuleId}
    {item : PatternItem}
    (h : item ∈ flatten rules bound path id) :
    ∃ id' rule, item.label = .rule id' ∧ rules[id']? = some rule := by
  have hstart : ∀ {id rule source}, rules[id]? = some rule →
      item ∈ [(⟨.rule id, source⟩ : PatternItem)] →
        ∃ id' rule, item.label = .rule id' ∧ rules[id']? = some rule := by
    intro id rule source hrule hitem
    obtain rfl := List.mem_singleton.mp hitem
    exact ⟨id, rule, rfl, hrule⟩
  induction bound generalizing path id with
  | zero =>
      unfold flatten at h
      split at h
      · exact hstart ‹_› h
      · exact hstart ‹_› h
      · exact hstart ‹_› h
      · split at h <;> cases h
      · cases h
  | succ bound ih =>
      unfold flatten at h
      split at h
      · exact hstart ‹_› h
      · exact hstart ‹_› h
      · exact hstart ‹_› h
      · split at h
        · cases h
        · obtain ⟨inner, -, hinner⟩ := List.mem_flatMap.mp h
          exact ih hinner
      · cases h

theorem exists_rule_of_mem_flattenAll
    {rules : RuleTable}
    {ids : List RuleId}
    {item : PatternItem}
    (h : item ∈ flattenAll rules ids) :
    ∃ id rule, item.label = .rule id ∧ rules[id]? = some rule := by
  obtain ⟨id, -, hitem⟩ := List.mem_flatMap.mp h
  exact exists_rule_of_mem_flatten hitem

/-- Among the patterns of a rule there is an end only if the rule is a region. -/
theorem exists_region_of_closing
    {rules : RuleTable}
    {id : RuleId}
    {resolved : Option String}
    {item : PatternItem}
    (h : item ∈ ruleItems rules id resolved)
    (hlabel : item.label = .closing) :
    ∃ r, rules[id]? = some (.region r) := by
  have hstart : (∃ id' rule, item.label = .rule id' ∧ rules[id']? = some rule) → False := by
    rintro ⟨id', rule, hrule, -⟩
    rw [hlabel] at hrule
    cases hrule
  unfold ruleItems at h
  split at h
  · rename_i r hrule
    exact ⟨r, hrule⟩
  · exact (hstart (exists_rule_of_mem_flattenAll h)).elim
  · exact (hstart (exists_rule_of_mem_flatten h)).elim

namespace Grammar

variable {g : Grammar}

theorem isRegion_of_mem_inside
    {id : RuleId}
    {item : PatternItem}
    (h : item ∈ (g.sets.inside id).items)
    (hlabel : item.label = .closing) :
    g.isRegion id = true := by
  rw [PatternSets.inside_eq] at h
  obtain ⟨r, hr⟩ := exists_region_of_closing h hlabel
  simp [isRegion, rule?, hr]

theorem isRegion_of_mem_setInside
    {f : Frame}
    {item : PatternItem}
    (h : item ∈ (g.setInside f).items)
    (hlabel : item.label = .closing) :
    g.isRegion f.rule = true := by
  unfold setInside at h
  split at h
  · split at h
    · -- whatever patterns are kept, they are only looked at for regions
      assumption
    · exact isRegion_of_mem_inside h hlabel
  · exact isRegion_of_mem_inside h hlabel

/-- An end matches only if a region is on top or is injected. -/
theorem isRegion_of_closing
    {p : ScanPoint}
    {f : Frame}
    {m : PatternMatch}
    (h : (nextMatch g p f).outcome = .ok (some m))
    (hlabel : m.label = .closing) :
    g.isRegion f.rule = true ∨ ∃ i ∈ g.injections, g.isRegion i.rule = true := by
  obtain ⟨s, a, hoffered, hfound⟩ := nextMatch_offered h
  obtain ⟨item, hitem, heq⟩ := PatternSet.exists_item_of_find hfound
  rw [hlabel] at heq
  cases hoffered with
  | own =>
      exact .inl (isRegion_of_mem_setInside hitem heq)
  | injected i hi =>
      exact .inr ⟨i, hi, isRegion_of_mem_inside hitem heq⟩

end Grammar

end LineScopes
