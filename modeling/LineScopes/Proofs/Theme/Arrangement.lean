import LineScopes.Proofs.Outcome
import LineScopes.Proofs.Style.ColorMap
import LineScopes.Proofs.Theme.Order
import LineScopes.Theme.Basic
import Mathlib.Data.List.Nodup

/-!
# Rules given in any order

Rules that differ in their scope, their parents or the place of their entry are in a strict order, so
sorting leaves nothing of the order in which they are given. A theme is built of sorted rules, and it
can only fail to be built for a color that its color map does not have.

**Main definitions.** `ThemeRule.key`.

**Main statements.** `sort_eq_of_perm`. `ofRules_eq_error`: why a theme cannot be built.
`ofRules_of_perm`: the same rules in another order.
-/

namespace LineScopes

open Std

namespace ThemeRule

/-- What rules are ordered by: the scope, the parents and the place of the entry. -/
def key (r : ThemeRule) : String × Option (List String) × Nat :=
  (r.scope, r.parents, r.index)

/-- Rules that are compared as equal have the same key. -/
theorem key_eq_of_compare
    {a b : ThemeRule}
    (h : compare a b = .eq) :
    a.key = b.key := by
  unfold compare at h
  rw [compareNames_eq] at h
  simp only [Ordering.then_eq_eq, Std.compare_eq_iff_eq] at h
  obtain ⟨hscope, ⟨-, hparents⟩, hindex⟩ := h
  simp [key, hscope, hparents, hindex]

/-- Rules that are told apart by their keys are in order in one way only. -/
theorem eq_of_perm_of_pairwise
    {rules others : List ThemeRule}
    (hperm : rules.Perm others)
    (hkeys : ∀ a ∈ rules, ∀ b ∈ rules, a.key = b.key → a = b)
    (hrules : rules.Pairwise fun a b => (compare a b).isLE = true)
    (hothers : others.Pairwise fun a b => (compare a b).isLE = true) :
    rules = others := by
  refine List.Perm.eq_of_pairwise (fun a b ha hb hab hba => ?_) hrules hothers hperm
  exact hkeys a ha b (hperm.mem_iff.mpr hb)
    (key_eq_of_compare (OrientedCmp.isLE_antisymm hab hba))

/-- Rules with different keys are sorted into the same list, whatever order they are given in. -/
theorem sort_eq_of_perm
    {rules others : List ThemeRule}
    (hperm : rules.Perm others)
    (hkeys : (rules.map key).Nodup) :
    sort rules = sort others := by
  have hsame : (sort rules).Perm (sort others) :=
    (List.mergeSort_perm rules _).trans (hperm.trans (List.mergeSort_perm others _).symm)
  refine eq_of_perm_of_pairwise hsame (fun a ha b hb => ?_) (pairwise_compare_sort rules)
    (pairwise_compare_sort others)
  exact List.inj_on_of_nodup_map hkeys (List.mem_mergeSort.mp ha) (List.mem_mergeSort.mp hb)

end ThemeRule

namespace Theme

theorem insertRule_eq_error
    {state : ColorMap × Trie}
    {r : ThemeRule}
    {e : Error}
    (h : insertRule state r = .error e) :
    ∃ c, e = .missingColor c := by
  rcases error_of_bind_eq_error h with hforeground | ⟨foreground, -, h⟩
  · exact ColorMap.id?_eq_error hforeground
  · rcases error_of_bind_eq_error h with hbackground | ⟨background, -, h⟩
    · exact ColorMap.id?_eq_error hbackground
    · cases h

theorem foldlM_insertRule_eq_error
    {rules : List ThemeRule}
    {state : ColorMap × Trie}
    {e : Error}
    (h : rules.foldlM insertRule state = .error e) :
    ∃ c, e = .missingColor c := by
  induction rules generalizing state with
  | nil =>
      cases h
  | cons r rules ih =>
      rw [List.foldlM_cons] at h
      rcases error_of_bind_eq_error h with hinsert | ⟨next, -, h⟩
      · exact insertRule_eq_error hinsert
      · exact ih h

/-- A theme cannot be built only because a color is missing. -/
theorem ofRules_eq_error
    {rules : List ThemeRule}
    {colorMap : Option (List String)}
    {e : Error}
    (h : ofRules rules colorMap = .error e) :
    ∃ c, e = .missingColor c := by
  rcases error_of_bind_eq_error h with hforeground | ⟨foreground, -, h⟩
  · exact ColorMap.id_eq_error hforeground
  · rcases error_of_bind_eq_error h with hbackground | ⟨background, -, h⟩
    · exact ColorMap.id_eq_error hbackground
    · rcases error_of_bind_eq_error h with hinsert | ⟨state, -, h⟩
      · exact foldlM_insertRule_eq_error hinsert
      · cases h

/-- Rules with different keys give the same theme in any order, or the same color is missing. -/
theorem ofRules_of_perm
    {rules others : List ThemeRule}
    (hperm : rules.Perm others)
    (hkeys : (rules.map ThemeRule.key).Nodup)
    (colorMap : Option (List String)) :
    (∃ color, ofRules rules colorMap = .error (.missingColor color) ∧
      ofRules others colorMap = .error (.missingColor color)) ∨
    ∃ theme, ofRules rules colorMap = .ok theme ∧ ofRules others colorMap = .ok theme := by
  have hsame : ofRules rules colorMap = ofRules others colorMap := by
    unfold ofRules
    rw [ThemeRule.sort_eq_of_perm hperm hkeys]
  rw [← hsame]
  cases h : ofRules rules colorMap with
  | error e =>
      obtain ⟨color, rfl⟩ := ofRules_eq_error h
      exact .inl ⟨color, rfl, rfl⟩
  | ok theme =>
      exact .inr ⟨theme, rfl, rfl⟩

/-- Rules for all text and for strings, the later entries first. -/
def accents : List ThemeRule := [
  ⟨"", none, 3, none, some "#111111", none⟩,
  ⟨"string", some ["meta.tag"], 2, some .italic, some "#0000ff", none⟩,
  ⟨"string", none, 1, none, some "#00ff00", some "#222222"⟩,
  ⟨"string", none, 0, some .bold, some "#ff0000", none⟩]

/-- Several colors are missing; in any order of the rules it is the same one that is reported. -/
theorem ofRules_of_perm_accents :
    accents.Perm accents.reverse ∧ (accents.map ThemeRule.key).Nodup ∧
      ((∃ color, ofRules accents (some ["", "#111111", "#FFFFFF"]) = .error (.missingColor color) ∧
        ofRules accents.reverse (some ["", "#111111", "#FFFFFF"]) = .error (.missingColor color)) ∨
      ∃ theme, ofRules accents (some ["", "#111111", "#FFFFFF"]) = .ok theme ∧
        ofRules accents.reverse (some ["", "#111111", "#FFFFFF"]) = .ok theme) := by
  have hperm : accents.Perm accents.reverse :=
    (List.reverse_perm accents).symm
  have hkeys : (accents.map ThemeRule.key).Nodup := by
    decide +kernel
  exact ⟨hperm, hkeys, ofRules_of_perm hperm hkeys _⟩

end Theme
end LineScopes
