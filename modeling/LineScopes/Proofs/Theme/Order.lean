import LineScopes.Theme.Rule
import Mathlib.Data.String.Basic

/-!
# The order of theme rules

Rules are sorted by a total preorder. Rules for a scope come before those for any scope inside it,
and of the rules for one scope those without parents come first.

**Main definitions.** `ThemeRule.Precedes`.

**Main statements.** `ThemeRule.pairwise_sort`: the sorted rules precede each other.
-/

namespace LineScopes

open Std

/-- Lists of one length are compared like words of a dictionary. -/
theorem compareEach_of_length_eq
    {a b : List String}
    (h : a.length = b.length) :
    compareNames.compareEach a b = Ord.compare a b := by
  induction a generalizing b with
  | nil =>
      obtain rfl : b = [] := List.length_eq_zero_iff.mp h.symm
      rfl
  | cons x xs ih =>
      cases b with
      | nil =>
          cases h
      | cons y ys =>
          rw [compareNames.compareEach, ih (Nat.succ.inj h), List.compare_eq_compareLex,
            List.compareLex_cons_cons]

/-- Lists of names are compared by length first. -/
theorem compareNames_eq
    (a b : Option (List String)) :
    compareNames a b =
      (Ord.compare (a.map List.length) (b.map List.length)).then (Ord.compare a b) := by
  cases a with
  | none =>
      cases b <;> rfl
  | some a =>
      cases b with
      | none =>
          rfl
      | some b =>
          change (Ord.compare a.length b.length).then _ = (Ord.compare a.length b.length).then _
          cases hlength : Ord.compare a.length b.length with
          | eq =>
              exact compareEach_of_length_eq (compare_eq_eq_iff_eq.mp hlength)
          | lt =>
              rfl
          | gt =>
              rfl

namespace ThemeRule

/-- The order compares one key after the other. -/
theorem compare_eq :
    compare = compareLex (compareOn scope)
      (compareLex
        (compareLex (compareOn fun r => r.parents.map List.length) (compareOn parents))
        (compareOn index)) := by
  funext a b
  unfold compare
  rw [compareNames_eq]
  rfl

instance : TransCmp compare := by
  rw [compare_eq]
  infer_instance

/-- What the order says about a rule and one that does not come before it. -/
structure Precedes (a b : ThemeRule) : Prop where
  scope : ¬ b.scope < a.scope
  parents : a.scope = b.scope → b.parents = none → a.parents = none

theorem precedes_of_compare
    {a b : ThemeRule}
    (h : (compare a b).isLE = true) :
    a.Precedes b := by
  unfold compare at h
  constructor
  · intro hlt
    have hfirst : Ord.compare b.scope a.scope = .lt :=
      compareOfLessAndEq_eq_lt.mpr hlt
    have hswap : Ord.compare a.scope b.scope = (Ord.compare b.scope a.scope).swap :=
      OrientedCmp.eq_swap
    have hgt : Ord.compare a.scope b.scope = .gt := by
      rw [hswap, hfirst]
      rfl
    rw [hgt] at h
    cases h
  · intro hscope hnone
    rw [hscope, compare_self, hnone] at h
    cases hparents : a.parents with
    | none =>
        rfl
    | some names =>
        rw [hparents] at h
        cases h

/-- The sorted rules are in order. -/
theorem pairwise_compare_sort (rules : List ThemeRule) :
    (sort rules).Pairwise fun a b => (compare a b).isLE = true := by
  have htotal : ∀ a b : ThemeRule, ((compare a b).isLE || (compare b a).isLE) = true := by
    intro a b
    have hswap : compare b a = (compare a b).swap :=
      OrientedCmp.eq_swap
    rw [hswap]
    cases compare a b <;> rfl
  exact List.pairwise_mergeSort (fun _ _ _ => TransCmp.isLE_trans) htotal rules

/-- In the order of rules none comes before one that it does not precede. -/
theorem pairwise_sort (rules : List ThemeRule) :
    (sort rules).Pairwise Precedes :=
  (pairwise_compare_sort rules).imp precedes_of_compare

end ThemeRule

end LineScopes
