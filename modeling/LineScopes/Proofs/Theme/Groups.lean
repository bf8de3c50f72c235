import LineScopes.Theme.Rule
import LineScopes.Theme.Trie
import Mathlib.Data.List.Induction

/-!
# What rules say about a name

The rules that apply to a name are grouped by their parents. A group sets what the last of its rules
says, and where none of them says anything, what the last rule without parents says that is not for a
longer scope. This is what putting the rules at one node of the tree amounts to.

**Main definitions.** `ThemeRule.group`, `ThemeRule.declared`, `ThemeRule.depthOf`,
`ThemeRule.groups`, `ThemeRule.Ordered`.

**Main statements.** `foldl_insertHere`: the styles at a node are those of the groups.
-/

namespace LineScopes
namespace ThemeRule

section Declared

variable {α : Type}

/-- What the last rule says that says anything. -/
def lastSet
    (field : ThemeRule → Option α)
    (rules : List ThemeRule) : Option α :=
  (rules.filterMap field).getLast?

/-- The rules with the same parents. -/
def group
    (rules : List ThemeRule)
    (parents : Option (List String)) : List ThemeRule :=
  rules.filter (·.parents = parents)

/-- The rules without parents whose scopes are no longer than those of a group. -/
def inherited
    (rules : List ThemeRule)
    (parents : Option (List String)) : List ThemeRule :=
  (group rules none).filter fun r =>
    (group rules parents).all fun q => r.scope.length ≤ q.scope.length

/-- What a group says, or what it inherits. -/
def declared
    (field : ThemeRule → Option α)
    (rules : List ThemeRule)
    (parents : Option (List String)) : Option α :=
  lastSet field (group rules parents) <|> lastSet field (inherited rules parents)

/-- The number of dotted parts of a scope. -/
def depth (r : ThemeRule) : Nat :=
  (Scope.dottedParts r.scope).length

/-- The number of dotted parts of the longest scope of a group. -/
def depthOf
    (rules : List ThemeRule)
    (parents : Option (List String)) : Nat :=
  ((group rules parents).map depth).foldl max 0

/-- The lists of parents in the order they are met. -/
def qualifiers (rules : List ThemeRule) : List (List String) :=
  (rules.filterMap parents).eraseDups

/-- The parents of all groups; the group without parents is last. -/
def groups (rules : List ThemeRule) : List (Option (List String)) :=
  (qualifiers rules).map some ++ [none]

/-- Longer scopes come later, and of the rules for one scope those without parents come first. -/
structure Follows (a b : ThemeRule) : Prop where
  length_le : a.scope.length ≤ b.scope.length
  length_lt : a.parents ≠ none → b.parents = none → a.scope.length < b.scope.length

/-- Rules that apply to a name, in order. -/
def Ordered (rules : List ThemeRule) : Prop :=
  rules.Pairwise Follows

end Declared

section Append

variable {α : Type} {field : ThemeRule → Option α} {rules : List ThemeRule} {r : ThemeRule}
variable {P : Option (List String)}

theorem lastSet_append_singleton
    (field : ThemeRule → Option α)
    (rules : List ThemeRule)
    (r : ThemeRule) :
    lastSet field (rules ++ [r]) = (field r <|> lastSet field rules) := by
  unfold lastSet
  rw [List.filterMap_append]
  cases hr : field r with
  | none =>
      simp [hr]
  | some a =>
      simp [hr]

theorem lastSet_eq_none_iff :
    lastSet field rules = none ↔ ∀ q ∈ rules, field q = none := by
  rw [lastSet, List.getLast?_eq_none_iff, List.filterMap_eq_nil_iff]

theorem group_append_of_eq
    (h : r.parents = P) :
    group (rules ++ [r]) P = group rules P ++ [r] := by
  simp [group, List.filter_append, h]

theorem group_append_of_ne
    (h : r.parents ≠ P) :
    group (rules ++ [r]) P = group rules P := by
  simp [group, List.filter_append, h]

theorem mem_group :
    r ∈ group rules P ↔ r ∈ rules ∧ r.parents = P := by
  simp [group]

/-- The group without parents inherits nothing but what it says itself. -/
theorem declared_none
    (field : ThemeRule → Option α)
    (rules : List ThemeRule) :
    declared field rules none = lastSet field (group rules none) := by
  unfold declared
  cases hset : lastSet field (group rules none) with
  | some a =>
      rfl
  | none =>
      have hinherited : lastSet field (inherited rules none) = none :=
        lastSet_eq_none_iff.mpr fun q hq =>
          lastSet_eq_none_iff.mp hset q (List.mem_filter.mp hq).1
      rw [hinherited]
      rfl

/-- Nothing shorter than the scopes of a group is added behind it. -/
theorem inherited_append_of_some
    (hordered : Ordered (rules ++ [r]))
    (h : r.parents = P)
    (hP : P ≠ none) :
    inherited (rules ++ [r]) P = inherited rules P := by
  unfold inherited
  rw [group_append_of_eq h, group_append_of_ne (h ▸ hP)]
  refine List.filter_congr fun q hq => ?_
  have hfollows := (List.pairwise_append.mp hordered).2.2 q (mem_group.mp hq).1 r (by simp)
  simp [hfollows.length_le]

/-- A rule adds to its own group. -/
theorem declared_append_of_eq
    (hordered : Ordered (rules ++ [r]))
    (h : r.parents = P) :
    declared field (rules ++ [r]) P = (field r <|> declared field rules P) := by
  by_cases hP : P = none
  · subst hP
    rw [declared_none, declared_none, group_append_of_eq h, lastSet_append_singleton]
  · unfold declared
    rw [inherited_append_of_some hordered h hP, group_append_of_eq h, lastSet_append_singleton]
    cases field r <;> rfl

/-- A rule adds to no other group that has been met. -/
theorem declared_append_of_ne
    (hordered : Ordered (rules ++ [r]))
    (h : r.parents ≠ P)
    (hmet : P ≠ none → group rules P ≠ []) :
    declared field (rules ++ [r]) P = declared field rules P := by
  by_cases hP : P = none
  · subst hP
    rw [declared_none, declared_none, group_append_of_ne h]
  · obtain ⟨q, hq⟩ := List.exists_mem_of_ne_nil _ (hmet hP)
    have hsame : inherited (rules ++ [r]) P = inherited rules P := by
      unfold inherited
      rw [group_append_of_ne h]
      by_cases hr : r.parents = none
      · -- the rule is for a longer scope than the first one of the group
        obtain ⟨hmem, hparents⟩ := mem_group.mp hq
        have hfollows := (List.pairwise_append.mp hordered).2.2 q hmem r (by simp)
        have hlt := hfollows.length_lt (hparents ▸ hP) hr
        rw [group_append_of_eq hr, List.filter_append]
        have hlonger : ((group rules P).all fun q => decide (r.scope.length ≤ q.scope.length)) =
            false := by
          rw [List.all_eq_false]
          exact ⟨q, hq, by simpa using hlt⟩
        simp [hlonger]
      · rw [group_append_of_ne hr]
    unfold declared
    rw [hsame, group_append_of_ne h]

theorem depthOf_append_of_eq
    (h : r.parents = P) :
    depthOf (rules ++ [r]) P = max (depthOf rules P) r.depth := by
  simp [depthOf, group_append_of_eq h]

theorem depthOf_append_of_ne
    (h : r.parents ≠ P) :
    depthOf (rules ++ [r]) P = depthOf rules P := by
  simp [depthOf, group_append_of_ne h]

end Append

section Styles

variable (number : String → Nat)

/-- The number of a color; 0 if there is none. -/
def colorNumber (color : Option String) : Nat :=
  (color.map number).getD 0

/-- The style of a rule. -/
def style (r : ThemeRule) : TrieStyle :=
  ⟨r.font, colorNumber number r.foreground, colorNumber number r.background⟩

/-- The style of a group. -/
def groupRule
    (rules : List ThemeRule)
    (P : Option (List String)) : TrieRule where
  depth := depthOf rules P
  parents := P.getD []
  font := declared font rules P
  foreground := colorNumber number (declared foreground rules P)
  background := colorNumber number (declared background rules P)

/-- The node with the styles of all groups. -/
def described (rules : List ThemeRule) : Trie :=
  .node (groupRule number rules none)
    ((qualifiers rules).map fun names => groupRule number rules (some names)) []

theorem mem_qualifiers
    {rules : List ThemeRule}
    {names : List String} :
    names ∈ qualifiers rules ↔ group rules (some names) ≠ [] := by
  simp [qualifiers, group]

variable {number}

theorem orElseColor_colorNumber
    {a b : Option String}
    (h : ∀ c, a = some c → number c ≠ 0) :
    orElseColor (colorNumber number a) (colorNumber number b) = colorNumber number (a <|> b) := by
  cases a with
  | none =>
      simp [orElseColor, colorNumber]
  | some c =>
      simp [orElseColor, colorNumber, h c rfl]

/-- The colors of a rule have numbers. -/
structure Numbered
    (number : String → Nat)
    (r : ThemeRule) : Prop where
  foreground : ∀ c, r.foreground = some c → number c ≠ 0
  background : ∀ c, r.background = some c → number c ≠ 0

variable {rules : List ThemeRule} {r : ThemeRule} {P : Option (List String)}

theorem groupRule_append_of_eq
    (hordered : Ordered (rules ++ [r]))
    (hr : r.Numbered number)
    (h : r.parents = P) :
    groupRule number (rules ++ [r]) P =
      (groupRule number rules P).overwrite r.depth (style number r) := by
  unfold groupRule TrieRule.overwrite style
  simp only [depthOf_append_of_eq h, declared_append_of_eq hordered h,
    orElseColor_colorNumber hr.foreground, orElseColor_colorNumber hr.background]

theorem groupRule_append_of_ne
    (hordered : Ordered (rules ++ [r]))
    (h : r.parents ≠ P)
    (hmet : P ≠ none → group rules P ≠ []) :
    groupRule number (rules ++ [r]) P = groupRule number rules P := by
  unfold groupRule
  simp only [depthOf_append_of_ne h, declared_append_of_ne hordered h hmet]

/-- A style replaces the only one with its parents. -/
theorem overwriteFirst_map
    {f : List String → TrieRule}
    {names : List String}
    {depth : Nat}
    {s : TrieStyle}
    {keys : List (List String)}
    (hkeys : keys.Nodup)
    (hmem : names ∈ keys)
    (f' : List String → TrieRule)
    (hparents : ∀ k, (f k).parents = k)
    (hsame : ∀ k ∈ keys, k ≠ names → f' k = f k)
    (hnew : f' names = (f names).overwrite depth s) :
    Trie.overwriteFirst names depth s (keys.map f) = some (keys.map f') := by
  induction keys with
  | nil =>
      cases hmem
  | cons k keys ih =>
      obtain ⟨hk, hrest⟩ := List.nodup_cons.mp hkeys
      rw [List.map_cons, Trie.overwriteFirst, hparents]
      by_cases hfirst : k = names
      · subst hfirst
        have hothers : keys.map f' = keys.map f := by
          refine List.map_congr_left fun k' hk' => hsame k' (List.mem_cons_of_mem _ hk') ?_
          rintro rfl
          exact hk hk'
        rw [if_pos rfl, List.map_cons, hnew, hothers]
      · have hmem' : names ∈ keys := by
          rcases List.mem_cons.mp hmem with rfl | hmem
          · exact absurd rfl hfirst
          · exact hmem
        rw [if_neg hfirst, ih hrest hmem' fun k' hk' => hsame k' (List.mem_cons_of_mem _ hk')]
        rw [List.map_cons, hsame k List.mem_cons_self hfirst]
        rfl

theorem overwriteFirst_map_of_not_mem
    {f : List String → TrieRule}
    {names : List String}
    (depth : Nat)
    (s : TrieStyle)
    {keys : List (List String)}
    (hmem : names ∉ keys)
    (hparents : ∀ k, (f k).parents = k) :
    Trie.overwriteFirst names depth s (keys.map f) = none := by
  induction keys with
  | nil =>
      rfl
  | cons k keys ih =>
      simp only [List.mem_cons, not_or] at hmem
      rw [List.map_cons, Trie.overwriteFirst, hparents, if_neg (Ne.symm hmem.1), ih hmem.2]
      rfl

theorem qualifiers_append_of_mem
    (h : ∀ names, r.parents = some names → names ∈ qualifiers rules) :
    qualifiers (rules ++ [r]) = qualifiers rules := by
  unfold qualifiers at h ⊢
  rw [List.filterMap_append, List.eraseDups_append]
  cases hparents : r.parents with
  | none =>
      simp [hparents]
  | some names =>
      have hmem := h names hparents
      rw [List.mem_eraseDups, ← List.contains_iff_mem] at hmem
      simp only [List.filterMap_cons, List.filterMap_nil, hparents, List.removeAll, List.filter_cons,
        List.elem_eq_contains, hmem]
      simp

theorem qualifiers_append_of_not_mem
    {names : List String}
    (h : r.parents = some names)
    (hnew : names ∉ qualifiers rules) :
    qualifiers (rules ++ [r]) = qualifiers rules ++ [names] := by
  unfold qualifiers at hnew ⊢
  rw [List.mem_eraseDups, ← List.contains_iff_mem, Bool.not_eq_true] at hnew
  rw [List.filterMap_append, List.eraseDups_append]
  simp only [List.filterMap_cons, List.filterMap_nil, h, List.removeAll, List.filter_cons,
    List.elem_eq_contains, hnew]
  simp [List.eraseDups_cons]

theorem nodup_qualifiers (rules : List ThemeRule) :
    (qualifiers rules).Nodup := by
  induction rules using List.reverseRecOn with
  | nil =>
      exact List.nodup_nil
  | append_singleton rules r ih =>
      by_cases hmet : ∀ names, r.parents = some names → names ∈ qualifiers rules
      · rw [qualifiers_append_of_mem hmet]
        exact ih
      · simp only [not_forall] at hmet
        obtain ⟨names, hparents, hnew⟩ := hmet
        rw [qualifiers_append_of_not_mem hparents hnew]
        refine List.nodup_append.mpr ⟨ih, List.pairwise_singleton _ names, ?_⟩
        rintro k hk k' hk' rfl
        exact hnew (List.mem_singleton.mp hk' ▸ hk)

/-- A group that has not been met says what the rules without parents say. -/
theorem groupRule_of_not_mem
    {names : List String}
    (h : names ∉ qualifiers rules) :
    groupRule number rules (some names) =
      { groupRule number rules none with depth := 0, parents := names } := by
  have hnil : group rules (some names) = [] := by
    simpa [mem_qualifiers] using h
  have hdeclared : ∀ {α : Type} (field : ThemeRule → Option α),
      declared field rules (some names) = declared field rules none := by
    intro α field
    have hinherited : inherited rules (some names) = group rules none := by
      unfold inherited
      rw [hnil]
      exact List.filter_eq_self.mpr fun _ _ => rfl
    rw [declared_none, declared, hinherited, hnil]
    rfl
  have hdepth : depthOf rules (some names) = 0 := by
    simp [depthOf, hnil]
  simp [groupRule, hdeclared, hdepth]

/-- The styles of the groups that have been met, after a rule of another group or of none of them. -/
theorem map_groupRule_append
    (number : String → Nat)
    (hordered : Ordered (rules ++ [r]))
    {keys : List (List String)}
    (hkeys : ∀ k ∈ keys, k ∈ qualifiers rules ∧ r.parents ≠ some k) :
    keys.map (fun k => groupRule number (rules ++ [r]) (some k)) =
      keys.map fun k => groupRule number rules (some k) := by
  refine List.map_congr_left fun k hk => ?_
  obtain ⟨hmet, hne⟩ := hkeys k hk
  exact groupRule_append_of_ne hordered hne fun _ => mem_qualifiers.mp hmet

/-- A rule without parents changes the style of the node itself. -/
theorem described_append_of_none
    (hordered : Ordered (rules ++ [r]))
    (hr : r.Numbered number)
    (h : r.parents = none) :
    described number (rules ++ [r]) =
      (described number rules).insertHere r.depth none (style number r) := by
  have hsame : qualifiers (rules ++ [r]) = qualifiers rules :=
    qualifiers_append_of_mem (by simp [h])
  have hothers := map_groupRule_append number hordered
    fun k (hk : k ∈ qualifiers rules) => ⟨hk, by simp [h]⟩
  unfold described
  rw [hsame, hothers, groupRule_append_of_eq hordered hr h]
  rfl

/-- A rule whose parents have been met changes the style with these parents. -/
theorem described_append_of_mem
    (hordered : Ordered (rules ++ [r]))
    (hr : r.Numbered number)
    {names : List String}
    (h : r.parents = some names)
    (hmet : names ∈ qualifiers rules) :
    described number (rules ++ [r]) =
      (described number rules).insertHere r.depth (some names) (style number r) := by
  have hsame : qualifiers (rules ++ [r]) = qualifiers rules := by
    refine qualifiers_append_of_mem fun k hk => ?_
    obtain rfl : names = k := Option.some.inj (h.symm.trans hk)
    exact hmet
  have hmain : groupRule number (rules ++ [r]) none = groupRule number rules none :=
    groupRule_append_of_ne hordered (by simp [h]) (by simp)
  have hoverwrite := overwriteFirst_map (nodup_qualifiers rules) hmet
    (f := fun k => groupRule number rules (some k))
    (fun k => groupRule number (rules ++ [r]) (some k)) (fun _ => rfl)
    (fun k hk hne => groupRule_append_of_ne hordered (by simpa [h] using Ne.symm hne)
      fun _ => mem_qualifiers.mp hk) (groupRule_append_of_eq hordered hr h)
  unfold described
  rw [hsame, hmain]
  simp only [Trie.insertHere, Trie.main, Trie.qualified, Trie.children, hoverwrite]

/-- A rule with new parents adds a style, which starts as that of the node itself. -/
theorem described_append_of_not_mem
    (hordered : Ordered (rules ++ [r]))
    (hr : r.Numbered number)
    {names : List String}
    (h : r.parents = some names)
    (hmet : names ∉ qualifiers rules) :
    described number (rules ++ [r]) =
      (described number rules).insertHere r.depth (some names) (style number r) := by
  have hmain : groupRule number (rules ++ [r]) none = groupRule number rules none :=
    groupRule_append_of_ne hordered (by simp [h]) (by simp)
  have hothers := map_groupRule_append number hordered fun k (hk : k ∈ qualifiers rules) =>
    ⟨hk, fun heq => hmet (Option.some.inj (h.symm.trans heq) ▸ hk)⟩
  have hnone := overwriteFirst_map_of_not_mem r.depth (style number r) hmet
    (f := fun k => groupRule number rules (some k)) fun _ => rfl
  unfold described
  rw [qualifiers_append_of_not_mem h hmet, List.map_append, hothers, hmain, List.map_cons,
    groupRule_append_of_eq hordered hr h, groupRule_of_not_mem hmet]
  simp only [Trie.insertHere, Trie.main, Trie.qualified, Trie.children, hnone]
  simp [TrieRule.overwrite, style]

/-- Putting one more rule at a node. -/
theorem described_append
    (hordered : Ordered (rules ++ [r]))
    (hr : r.Numbered number) :
    described number (rules ++ [r]) =
      (described number rules).insertHere r.depth r.parents (style number r) := by
  cases hparents : r.parents with
  | none =>
      exact described_append_of_none hordered hr hparents
  | some names =>
      by_cases hmet : names ∈ qualifiers rules
      · exact described_append_of_mem hordered hr hparents hmet
      · exact described_append_of_not_mem hordered hr hparents hmet

/-- The styles at a node are those of the groups. -/
theorem foldl_insertHere
    (hordered : Ordered rules)
    (hrules : ∀ r ∈ rules, r.Numbered number) :
    rules.foldl (fun t r => t.insertHere r.depth r.parents (style number r)) .empty =
      described number rules := by
  induction rules using List.reverseRecOn with
  | nil =>
      rfl
  | append_singleton rules r ih =>
      rw [List.foldl_append, ih (List.pairwise_append.mp hordered).1
        fun q hq => hrules q (List.mem_append_left _ hq)]
      exact (described_append hordered (hrules r (by simp))).symm

end Styles

end ThemeRule
end LineScopes
