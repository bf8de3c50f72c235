import LineScopes.Proofs.Theme.Groups
import LineScopes.Proofs.Theme.Specificity

/-!
# Which group decides

Of the groups whose parents occur along the outer scopes, the one decides that is for the longest
scope, or of several such the one with the longest parent names.

**Main definitions.** `ThemeRule.rankOf`, `ThemeRule.Decides`, `ThemeRule.NoMarks`.

**Main statements.** `exists_decides`: one of the groups decides, and its style is found first.
-/

namespace LineScopes
namespace ThemeRule

/-- What groups are compared by: the number of dotted parts of the longest scope, followed by the
lengths of the parent names, innermost first. -/
def rankOf
    (rules : List ThemeRule)
    (parents : Option (List String)) : List Nat :=
  depthOf rules parents :: (parents.getD []).map String.utf8ByteSize

/-- The group that decides about a name inside other scopes: of the groups whose parents occur along
the outer scopes it has the greatest rank, and of several such it is the one met first. -/
def Decides
    (rules : List ThemeRule)
    (outer : List String)
    (parents : Option (List String)) : Prop :=
  ∃ front back, groups rules = front ++ parents :: back ∧ OccursIn (parents.getD []) outer ∧
    (∀ other ∈ front, OccursIn (other.getD []) outer → rankOf rules other < rankOf rules parents) ∧
    ∀ other ∈ back, OccursIn (other.getD []) outer → ¬ rankOf rules parents < rankOf rules other

/-- No parent is a mark of a direct parent. -/
def NoMarks (rules : List ThemeRule) : Prop :=
  ∀ r ∈ rules, ∀ names, r.parents = some names → ">" ∉ names

theorem NoMarks.of_mem_groups
    {rules : List ThemeRule}
    (h : NoMarks rules)
    {parents : Option (List String)}
    (hparents : parents ∈ groups rules) :
    ">" ∉ parents.getD [] := by
  cases parents with
  | none =>
      simp
  | some names =>
      have hmet : names ∈ qualifiers rules := by
        simpa [groups] using hparents
      obtain ⟨r, hr⟩ := List.exists_mem_of_ne_nil _ (mem_qualifiers.mp hmet)
      obtain ⟨hmem, hsame⟩ := mem_group.mp hr
      exact h r hmem names hsame

/-- One of the groups decides, and its style is the first one that matches. -/
theorem exists_decides
    (number : String → Nat)
    {rules : List ThemeRule}
    (h : NoMarks rules)
    (outer : List String) :
    ∃ parents, Decides rules outer parents ∧
      (TrieRule.sort ((groups rules).map (groupRule number rules))).find?
        (parentsMatch outer ·.parents) = some (groupRule number rules parents) := by
  have hmatches : ∀ parents ∈ groups rules,
      (parentsMatch outer (groupRule number rules parents).parents = true ↔
        OccursIn (parents.getD []) outer) := fun parents hparents =>
    parentsMatch_iff (h.of_mem_groups hparents)
  have hunmarked : ∀ r ∈ (groups rules).map (groupRule number rules), r.Unmarked := by
    intro r hr
    obtain ⟨parents, hparents, rfl⟩ := List.mem_map.mp hr
    exact h.of_mem_groups hparents
  have hsome : ∃ r ∈ (groups rules).map (groupRule number rules),
      parentsMatch outer r.parents = true := by
    refine ⟨groupRule number rules none, List.mem_map_of_mem (by simp [groups]), ?_⟩
    simp [groupRule, parentsMatch]
  obtain ⟨r, hleads⟩ := TrieRule.exists_leads (p := fun r => parentsMatch outer r.parents) hsome
  have hfirst := TrieRule.find?_sort hunmarked hleads
  obtain ⟨front, back, hsplit, hmatch, hfront, hback⟩ := hleads
  obtain ⟨front, rest, hgroups, rfl, hrest⟩ := List.map_eq_append_iff.mp hsplit
  obtain ⟨parents, back, rfl, rfl, rfl⟩ := List.map_eq_cons_iff.mp hrest
  refine ⟨parents, ⟨front, back, hgroups, ?_, ?_, ?_⟩, hfirst⟩
  · exact (hmatches parents (by simp [hgroups])).mp hmatch
  · intro other hother hoccurs
    exact hfront _ (List.mem_map_of_mem hother)
      ((hmatches other (by simp [hgroups, hother])).mpr hoccurs)
  · intro other hother hoccurs
    exact hback _ (List.mem_map_of_mem hother)
      ((hmatches other (by simp [hgroups, hother])).mpr hoccurs)

end ThemeRule
end LineScopes
