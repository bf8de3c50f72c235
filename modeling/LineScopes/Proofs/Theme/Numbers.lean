import LineScopes.Proofs.Theme.Exported
import LineScopes.Proofs.Theme.Trie

/-!
# Numbers in the tree of theme rules

A color map numbers colors one after the other, so every number it has given out is below the
number of its colors. Inserting rules into a tree moves numbers around but makes no new ones, and
neither does sorting what is found; so the numbers of a style are those of colors of its theme.

**Main definitions.** `TrieRule.Within`, `Trie.Within`.

**Main statements.** `Within.insert`: what one insertion preserves. `styleOf_lt_length`: the numbers
of a style.
-/

namespace LineScopes

namespace TrieRule

variable {bound depth : Nat} {s : TrieStyle} {r e : TrieRule} {rules sorted : List TrieRule}

/-- The numbers of a rule are below a bound. -/
structure Within (bound : Nat) (r : TrieRule) : Prop where
  foreground : r.foreground < bound
  background : r.background < bound

theorem orElseColor_lt
    {n other : Nat}
    (hn : n < bound)
    (hother : other < bound) :
    orElseColor n other < bound := by
  unfold orElseColor
  split
  · exact hother
  · exact hn

theorem mem_of_mem_place
    (h : e ∈ place r sorted) :
    e = r ∨ e ∈ sorted := by
  induction sorted with
  | nil =>
      exact .inl (List.mem_singleton.mp h)
  | cons last others ih =>
      rw [place] at h
      split at h
      · rcases List.mem_cons.mp h with rfl | h
        · exact .inr List.mem_cons_self
        · exact (ih h).imp_right (List.mem_cons_of_mem last)
      · exact List.mem_cons.mp h

/-- Sorting adds no rules. -/
theorem mem_of_mem_sort
    (h : e ∈ sort rules) :
    e ∈ rules := by
  rw [sort, List.mem_reverse] at h
  induction rules using List.reverseRecOn with
  | nil =>
      cases h
  | append_singleton rules r ih =>
      rw [List.foldl_append] at h
      rcases mem_of_mem_place h with rfl | h
      · exact List.mem_append_right _ List.mem_cons_self
      · exact List.mem_append_left _ (ih h)

end TrieRule

namespace Trie

variable {bound : Nat} {t u : Trie} {parts : List String} {parents : Option (List String)}
variable {s : TrieStyle}

/-- The numbers of all rules of a node are below a bound. -/
def WithinHere (bound : Nat) (t : Trie) : Prop :=
  ∀ r ∈ t.qualified ++ [t.main], r.Within bound

/-- The numbers of all rules in a tree are below a bound. -/
def Within (bound : Nat) (t : Trie) : Prop :=
  ∀ parts, (t.reach parts).WithinHere bound

theorem WithinHere.of_leaf_eq
    (h : t.WithinHere bound)
    (hleaf : u.leaf = t.leaf) :
    u.WithinHere bound := by
  have hmain : u.leaf.main = t.leaf.main := congrArg main hleaf
  have hqualified : u.leaf.qualified = t.leaf.qualified := congrArg qualified hleaf
  change u.main = t.main at hmain
  change u.qualified = t.qualified at hqualified
  rwa [WithinHere, hmain, hqualified]

theorem within_empty
    (hbound : 0 < bound) :
    empty.Within bound := by
  intro parts r hr
  have hreach : empty.reach parts = empty := by
    cases parts <;> rfl
  rw [hreach] at hr
  obtain rfl := List.mem_singleton.mp hr
  exact ⟨hbound, hbound⟩

/-- Of the rules of a node at most one is overwritten. -/
theorem mem_of_mem_overwriteFirst
    {names : List String}
    {depth : Nat}
    {rules rules' : List TrieRule}
    (h : overwriteFirst names depth s rules = some rules')
    {r : TrieRule}
    (hr : r ∈ rules') :
    r ∈ rules ∨ ∃ q ∈ rules, r = q.overwrite depth s := by
  induction rules generalizing rules' with
  | nil =>
      cases h
  | cons q rules ih =>
      rw [overwriteFirst] at h
      split at h
      · obtain rfl := Option.some.inj h
        rcases List.mem_cons.mp hr with rfl | hr
        · exact .inr ⟨q, List.mem_cons_self, rfl⟩
        · exact .inl (List.mem_cons_of_mem q hr)
      · obtain ⟨rest, hrest, rfl⟩ := Option.map_eq_some_iff.mp h
        rcases List.mem_cons.mp hr with rfl | hr
        · exact .inl List.mem_cons_self
        · rcases ih hrest hr with hr | ⟨q', hq', rfl⟩
          · exact .inl (List.mem_cons_of_mem q hr)
          · exact .inr ⟨q', List.mem_cons_of_mem q hq', rfl⟩

/-- A style with numbers below the bound keeps the rules of a node below it. -/
theorem WithinHere.insertHere
    (h : t.WithinHere bound)
    (hforeground : s.foreground < bound)
    (hbackground : s.background < bound)
    (depth : Nat)
    (parents : Option (List String)) :
    (t.insertHere depth parents s).WithinHere bound := by
  have hmain := h t.main (List.mem_append_right _ List.mem_cons_self)
  have hqualified : ∀ r ∈ t.qualified, r.Within bound := fun r hr =>
    h r (List.mem_append_left _ hr)
  have hover : ∀ r : TrieRule, r.Within bound → (r.overwrite depth s).Within bound := fun r hr =>
    ⟨TrieRule.orElseColor_lt hforeground hr.foreground,
      TrieRule.orElseColor_lt hbackground hr.background⟩
  unfold Trie.insertHere
  intro r hr
  cases parents with
  | none =>
      rcases List.mem_append.mp hr with hr | hr
      · exact hqualified r hr
      · exact List.mem_singleton.mp hr ▸ hover _ hmain
  | some names =>
      cases hfirst : overwriteFirst names depth s t.qualified with
      | some rules =>
          simp only [hfirst] at hr
          rcases List.mem_append.mp hr with hr | hr
          · rcases mem_of_mem_overwriteFirst hfirst hr with hr | ⟨q, hq, rfl⟩
            · exact hqualified r hr
            · exact hover q (hqualified q hq)
          · exact List.mem_singleton.mp hr ▸ hmain
      | none =>
          simp only [hfirst] at hr
          rcases List.mem_append.mp hr with hr | hr
          · rcases List.mem_append.mp hr with hr | hr
            · exact hqualified r hr
            · obtain rfl := List.mem_singleton.mp hr
              exact ⟨TrieRule.orElseColor_lt hforeground hmain.foreground,
                TrieRule.orElseColor_lt hbackground hmain.background⟩
          · exact List.mem_singleton.mp hr ▸ hmain

/-- A style with numbers below the bound keeps a tree below it. -/
theorem Within.insert
    (h : t.Within bound)
    (hforeground : s.foreground < bound)
    (hbackground : s.background < bound)
    (depth : Nat)
    (parts : List String)
    (parents : Option (List String)) :
    (t.insert depth parts parents s).Within bound := by
  induction parts generalizing t depth with
  | nil =>
      have hhere := WithinHere.insertHere (h []) hforeground hbackground depth parents
      intro others
      cases others with
      | nil =>
          exact hhere
      | cons other others =>
          rw [Trie.insert, reach, children_insertHere]
          have hbelow := h (other :: others)
          rw [reach] at hbelow
          split
          · rename_i child hchild
            rw [hchild] at hbelow
            exact hbelow
          · exact hhere
  | cons part parts ih =>
      have hchild : (t.childOrNew part).Within bound := fun others =>
        (h (part :: others)).of_leaf_eq (leaf_reach_childOrNew t part others)
      intro others
      cases others with
      | nil =>
          exact h []
      | cons other others =>
          by_cases hpart : other = part
          · subst hpart
            rw [reach_insert_cons]
            exact ih hchild (depth + 1) others
          · exact (h (other :: others)).of_leaf_eq
              (leaf_reach_insert_of_ne depth hpart parts others)

/-- What is found in a tree is below the bound. -/
theorem Within.of_mem_find
    {r : TrieRule}
    (h : t.Within bound)
    (hr : r ∈ t.find parts) :
    r.Within bound := by
  rw [find_eq] at hr
  exact h parts r (TrieRule.mem_of_mem_sort hr)

end Trie

namespace ColorMap

variable {m : ColorMap} {color : String} {n : Nat}

/-- A number that is given out has a color. -/
theorem IsSettled.lt_length
    (h : m.IsSettled)
    (hknows : m.Knows color n) :
    n < m.colors.length := by
  obtain ⟨seen, rfl, -⟩ := h
  obtain ⟨i, hfound, rfl⟩ := knows_growing_iff.mp hknows
  obtain ⟨hi, -⟩ := List.findIdx?_eq_some_iff_getElem.mp hfound
  exact Nat.succ_lt_succ hi

end ColorMap

namespace Theme

open ThemeRule

variable {rules : List ThemeRule} {theme : Theme} {path : ScopePath} {style : Style}

/-- The number of a color that is known, or of none, is below the number of colors. -/
theorem Known.colorNumber_lt
    {colors : ColorMap}
    {color : Option String}
    (hsettled : colors.IsSettled)
    (h : Known colors color) :
    colorNumber colors.number color < colors.colors.length := by
  cases color with
  | none =>
      obtain ⟨seen, rfl, -⟩ := hsettled
      exact Nat.succ_pos seen.length
  | some c =>
      obtain ⟨n, hknows⟩ := h c rfl
      rw [colorNumber, Option.map_some, hknows.number_eq]
      exact hsettled.lt_length hknows

/-- The colors of the rules are all that the tree of a theme has. -/
theorem within_root
    (h : ofRules rules none = .ok theme)
    (hsettled : theme.colors.IsSettled) :
    theme.root.Within theme.colors.colors.length := by
  obtain ⟨hknown, hroot⟩ := ofRules_eq_ok h
  have hbound : 0 < theme.colors.colors.length := by
    obtain ⟨seen, hcolors, -⟩ := hsettled
    rw [hcolors]
    exact Nat.succ_pos seen.length
  rw [hroot]
  exact List.foldlRecOn (motive := Trie.Within theme.colors.colors.length) _ _
    (Trie.within_empty hbound) fun t ht r hr =>
      ht.insert ((hknown r hr).1.colorNumber_lt hsettled) ((hknown r hr).2.colorNumber_lt hsettled)
        0 _ _

/-- The numbers of a style are those of colors of its theme. -/
theorem styleOf_lt_length
    (h : ofRules rules none = .ok theme)
    (hsettled : theme.colors.IsSettled)
    (hstyle : theme.styleOf path = some style) :
    style.foreground < theme.colors.colors.length ∧
      style.background < theme.colors.colors.length := by
  unfold styleOf at hstyle
  split at hstyle
  · obtain rfl := Option.some.inj hstyle
    obtain ⟨first, second, hforeground, hbackground, hfold, -⟩ := exists_steps_of_ofRules h
    obtain ⟨hgrows, -, -⟩ := foldlM_insertRule hfold
    exact ⟨hsettled.lt_length (hgrows _ _ ((ColorMap.knows_of_id hforeground).of_id hbackground)),
      hsettled.lt_length (hgrows _ _ (ColorMap.knows_of_id hbackground))⟩
  · obtain ⟨r, hr, rfl⟩ := Option.map_eq_some_iff.mp hstyle
    have hwithin := (within_root h hsettled).of_mem_find (List.mem_of_find?_eq_some hr)
    exact ⟨hwithin.foreground, hwithin.background⟩

/-- The colors of a document are settled once its theme is built. -/
theorem isSettled_ofDocument
    {document : Option ThemeDocument}
    (h : ofDocument document none = .ok theme) :
    theme.colors.IsSettled := by
  refine isSettled_ofRules (fun r hr => ?_) h
  cases document with
  | none =>
      cases hr
  | some document =>
      exact stableColors_rules hr

end Theme

end LineScopes
