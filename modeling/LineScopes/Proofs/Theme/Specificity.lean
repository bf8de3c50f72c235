import LineScopes.Theme.Basic
import Mathlib.Data.List.Forall2
import Mathlib.Data.List.Induction
import Mathlib.Order.Basic

/-!
# Which style is tried first

Without marks of direct parents the order of styles is that of their ranks: the number of dotted
parts of the scope, followed by the lengths of the parent names, innermost first. Ranks are compared
like words of a dictionary. The first style that matches has the greatest rank of all that match, and
of several such styles it is the one listed first.

**Main definitions.** `TrieRule.rank`, `TrieRule.Leads`, `OccursIn`.

**Main statements.** `compare_eq_lt_iff`: the order of styles. `find?_sort`: the first style that
matches. `parentsMatch_iff`: which parent names match.
-/

namespace LineScopes

namespace TrieRule

/-- What styles are compared by. -/
def rank (r : TrieRule) : List Nat :=
  r.depth :: r.parents.map String.utf8ByteSize

/-- No parent name is a mark of a direct parent. -/
def Unmarked (r : TrieRule) : Prop :=
  ">" ∉ r.parents

section Compare

theorem skipMark_of_ne
    {name : String}
    (h : name ≠ ">")
    (names : List String) :
    skipMark (name :: names) = name :: names := by
  unfold skipMark
  split
  · simp_all
  · rfl

theorem compareLengths_nil_left (b : List String) :
    compareLengths [] b = .eq := by
  unfold compareLengths
  rfl

theorem compareLengths_nil_right (a : List String) :
    compareLengths a [] = .eq := by
  unfold compareLengths
  split
  · rename_i hright
    cases hright
  · rfl

theorem compareLengths_cons
    {x y : String}
    (hx : x ≠ ">")
    (hy : y ≠ ">")
    (xs ys : List String) :
    compareLengths (x :: xs) (y :: ys) =
      (Ord.compare y.utf8ByteSize x.utf8ByteSize).then (compareLengths xs ys) := by
  rw [compareLengths, skipMark_of_ne hy]
  split
  · rename_i x' xs' y' ys' hleft hright
    rw [skipMark_of_ne hx] at hleft
    cases hleft
    cases hright
    rfl
  · rename_i hnone
    exact absurd rfl (hnone x xs y ys (skipMark_of_ne hx xs))

/-- Comparing keys one after the other is comparing lists of keys. -/
theorem then_eq_lt_iff
    {m n : Nat}
    {o : Ordering}
    {a b : List Nat}
    (h : o = .lt ↔ b < a) :
    (Ord.compare n m).then o = .lt ↔ n :: b < m :: a := by
  rw [Ordering.then_eq_lt, h, List.cons_lt_cons_iff, Nat.compare_eq_lt, Nat.compare_eq_eq]

/-- Longer names come first, then more names. -/
theorem compareLengths_eq_lt_iff
    {a b : List String}
    (ha : ">" ∉ a)
    (hb : ">" ∉ b) :
    (compareLengths a b).then (Ord.compare b.length a.length) = .lt ↔
      b.map String.utf8ByteSize < a.map String.utf8ByteSize := by
  induction a generalizing b with
  | nil =>
      rw [compareLengths_nil_left]
      simp [Nat.compare_eq_lt]
  | cons x xs ih =>
      cases b with
      | nil =>
          rw [compareLengths_nil_right]
          simp [Nat.compare_eq_lt]
      | cons y ys =>
          simp only [List.mem_cons, not_or] at ha hb
          rw [compareLengths_cons (Ne.symm ha.1) (Ne.symm hb.1), Ordering.then_assoc]
          have hlength : Ord.compare (y :: ys).length (x :: xs).length =
              Ord.compare ys.length xs.length := by
            simp [Nat.compare_eq_ite_lt]
          rw [hlength]
          exact then_eq_lt_iff (ih ha.2 hb.2)

theorem compare_eq_lt_iff
    {a b : TrieRule}
    (ha : a.Unmarked)
    (hb : b.Unmarked) :
    a.compare b = .lt ↔ b.rank < a.rank :=
  then_eq_lt_iff (compareLengths_eq_lt_iff ha hb)

end Compare

/-- Lists of numbers that are not less than each other are ordered transitively. -/
theorem not_lt_trans
    {a b c : List Nat}
    (h : ¬ b < a)
    (h' : ¬ c < b) :
    ¬ c < a :=
  List.le_trans h h'

/-- A style that is tried before all other ones that satisfy a test: its rank is greatest, and it is
listed first among those of its rank. -/
def Leads
    (p : TrieRule → Bool)
    (r : TrieRule)
    (rules : List TrieRule) : Prop :=
  ∃ front back, rules = front ++ r :: back ∧ p r = true ∧
    (∀ q ∈ front, p q = true → q.rank < r.rank) ∧ (∀ q ∈ back, p q = true → ¬ r.rank < q.rank)

/-- One of the styles that satisfy a test is tried first. -/
theorem exists_leads
    {p : TrieRule → Bool}
    {rules : List TrieRule}
    (h : ∃ r ∈ rules, p r = true) :
    ∃ r, Leads p r rules := by
  induction rules with
  | nil =>
      simp at h
  | cons r rules ih =>
      by_cases hrest : ∃ q ∈ rules, p q = true
      · obtain ⟨q, front, back, rfl, hq, hfront, hback⟩ := ih hrest
        by_cases hfirst : p r = true ∧ ¬ r.rank < q.rank
        · refine ⟨r, [], front ++ q :: back, rfl, hfirst.1, by simp, fun e he hpe => ?_⟩
          rcases List.mem_append.mp he with he | he
          · exact not_lt_trans (List.lt_asymm (hfront e he hpe)) hfirst.2
          · rcases List.mem_cons.mp he with rfl | he
            · exact hfirst.2
            · exact not_lt_trans (hback e he hpe) hfirst.2
        · refine ⟨q, r :: front, back, rfl, hq, fun e he hpe => ?_, hback⟩
          rcases List.mem_cons.mp he with rfl | he
          · exact Decidable.not_not.mp fun hnot => hfirst ⟨hpe, hnot⟩
          · exact hfront e he hpe
      · obtain ⟨q, hq, hpq⟩ := h
        rcases List.mem_cons.mp hq with rfl | hq
        · exact ⟨q, [], rules, rfl, hpq, by simp, fun e he hpe => absurd ⟨e, he, hpe⟩ hrest⟩
        · exact absurd ⟨q, hq, hpq⟩ hrest

section Sorting

/-- Some styles in order, the last one first. -/
structure Ascending (rules sorted : List TrieRule) : Prop where
  mem : ∀ r ∈ sorted, r ∈ rules
  pairwise : sorted.Pairwise fun a b => ¬ b.rank < a.rank

/-- The styles that a style is put in front of have a lower rank, and the others do not. -/
theorem Ascending.split
    {rules sorted : List TrieRule}
    (hrules : ∀ e ∈ rules, e.Unmarked)
    (hsorted : Ascending rules sorted)
    {r : TrieRule}
    (hr : r.Unmarked) :
    ∃ low high, sorted = low ++ high ∧ place r sorted = low ++ r :: high ∧
      (∀ e ∈ low, e.rank < r.rank) ∧ (∀ e ∈ high, ¬ e.rank < r.rank) := by
  induction sorted with
  | nil =>
      exact ⟨[], [], rfl, rfl, by simp, by simp⟩
  | cons last others ih =>
      have hlast := hrules last (hsorted.mem last List.mem_cons_self)
      obtain ⟨hle, hothers⟩ := List.pairwise_cons.mp hsorted.pairwise
      by_cases hbefore : r.compare last = .lt
      · obtain ⟨low, high, rfl, hplace, hlow, hhigh⟩ :=
          ih ⟨fun e he => hsorted.mem e (List.mem_cons_of_mem last he), hothers⟩
        refine ⟨last :: low, high, rfl, ?_, ?_, hhigh⟩
        · rw [place, if_pos hbefore, hplace]
          rfl
        · intro e he
          rcases List.mem_cons.mp he with rfl | he
          · exact (compare_eq_lt_iff hr hlast).mp hbefore
          · exact hlow e he
      · refine ⟨[], last :: others, rfl, if_neg hbefore, by simp, ?_⟩
        rw [compare_eq_lt_iff hr hlast] at hbefore
        intro e he
        rcases List.mem_cons.mp he with rfl | he
        · exact hbefore
        · exact not_lt_trans hbefore (hle e he)

/-- The styles put in order so far. -/
theorem ascending_foldl
    {rules : List TrieRule}
    (hrules : ∀ r ∈ rules, r.Unmarked) :
    Ascending rules (rules.foldl (fun sorted r => place r sorted) []) := by
  induction rules using List.reverseRecOn with
  | nil =>
      exact ⟨by simp, .nil⟩
  | append_singleton rules r ih =>
      have hrules' : ∀ e ∈ rules, e.Unmarked := fun e he => hrules e (List.mem_append_left _ he)
      have hsorted := ih hrules'
      obtain ⟨low, high, hparts, hplace, hlow, hhigh⟩ :=
        hsorted.split hrules' (hrules r (List.mem_append_right _ List.mem_cons_self))
      rw [List.foldl_append, List.foldl_cons, List.foldl_nil, hplace]
      have hpairwise := hsorted.pairwise
      rw [hparts] at hpairwise
      obtain ⟨hlows, hhighs, hacross⟩ := List.pairwise_append.mp hpairwise
      constructor
      · intro e he
        have he' : e = r ∨ e ∈ low ++ high := by
          simp only [List.mem_append, List.mem_cons] at he ⊢
          tauto
        rcases he' with rfl | he'
        · exact List.mem_append_right _ List.mem_cons_self
        · exact List.mem_append_left _ (hsorted.mem e (hparts ▸ he'))
      · refine List.pairwise_append.mpr ⟨hlows, List.pairwise_cons.mpr ⟨hhigh, hhighs⟩, ?_⟩
        intro a ha b hb
        rcases List.mem_cons.mp hb with rfl | hb
        · exact List.lt_asymm (hlow a ha)
        · exact hacross a ha b hb

/-- One more style is put between those of a rank that is not lower and those of a lower rank. -/
theorem exists_sort_append
    {rules : List TrieRule}
    {r : TrieRule}
    (hrules : ∀ e ∈ rules ++ [r], e.Unmarked) :
    ∃ high low, sort rules = high ++ low ∧ sort (rules ++ [r]) = high ++ r :: low ∧
      (∀ e ∈ high, e ∈ rules ∧ ¬ e.rank < r.rank) ∧ (∀ e ∈ low, e.rank < r.rank) := by
  have hrules' : ∀ e ∈ rules, e.Unmarked := fun e he => hrules e (List.mem_append_left _ he)
  have hsorted := ascending_foldl hrules'
  obtain ⟨low, high, hparts, hplace, hlow, hhigh⟩ :=
    hsorted.split hrules' (hrules r (List.mem_append_right _ List.mem_cons_self))
  refine ⟨high.reverse, low.reverse, ?_, ?_, ?_, ?_⟩
  · rw [sort, hparts, List.reverse_append]
  · rw [sort, List.foldl_append, List.foldl_cons, List.foldl_nil, hplace]
    simp
  · intro e he
    have he' := List.mem_reverse.mp he
    exact ⟨hsorted.mem e (hparts ▸ List.mem_append_right low he'), hhigh e he'⟩
  · intro e he
    exact hlow e (List.mem_reverse.mp he)

/-- The style that leads is the first one of the sorted styles that satisfies the test. -/
theorem find?_sort
    {p : TrieRule → Bool}
    {rules : List TrieRule}
    (hrules : ∀ r ∈ rules, r.Unmarked)
    {r : TrieRule}
    (h : Leads p r rules) :
    (sort rules).find? p = some r := by
  obtain ⟨front, back, rfl, hr, hfront, hback⟩ := h
  induction back using List.reverseRecOn with
  | nil =>
      obtain ⟨high, low, -, hsort, hhigh, -⟩ := exists_sort_append hrules
      -- no style of a higher rank satisfies the test
      have hnone : high.find? p = none := by
        refine List.find?_eq_none.mpr fun e he hpe => ?_
        obtain ⟨hmem, hnot⟩ := hhigh e he
        exact hnot (hfront e hmem hpe)
      simp [hsort, List.find?_append, hnone, hr]
  | append_singleton back e ih =>
      have happend : front ++ r :: (back ++ [e]) = (front ++ r :: back) ++ [e] := by
        simp
      rw [happend] at hrules ⊢
      have hfound := ih (fun q hq => hrules q (List.mem_append_left _ hq))
        fun q hq => hback q (List.mem_append_left _ hq)
      obtain ⟨high, low, hsort, hsort', -, hlow⟩ := exists_sort_append hrules
      rw [hsort, List.find?_append] at hfound
      rw [hsort', List.find?_append]
      cases hhigh : high.find? p with
      | some q =>
          simpa [hhigh] using hfound
      | none =>
          -- the style is among those that the new one is put in front of
          rw [hhigh, Option.none_or] at hfound
          rw [Option.none_or]
          have hpe : p e = false := by
            by_contra hpe
            exact hback e (by simp) (by simpa using hpe)
              (hlow r (List.mem_of_find?_eq_some hfound))
          simpa [hpe] using hfound

end Sorting

end TrieRule

/-- Parent names occur in order along the outer scopes, both innermost first. -/
def OccursIn (parents outer : List String) : Prop :=
  List.SublistForall₂ (fun parent scope => Scope.covers parent scope = true) parents outer

theorem OccursIn.tail
    {parent : String}
    {parents outer : List String}
    (h : OccursIn (parent :: parents) outer) :
    OccursIn parents outer := by
  obtain ⟨found, hfound, hsublist⟩ := List.sublistForall₂_iff.mp h
  cases hfound with
  | cons _ hrest =>
      exact List.sublistForall₂_iff.mpr ⟨_, hrest, (List.sublist_cons_self _ _).trans hsublist⟩

theorem not_occursIn_nil
    (parent : String)
    (parents : List String) :
    ¬ OccursIn (parent :: parents) [] := by
  rintro ⟨⟩

/-- A parent name occurs as far in as it can. -/
theorem occursIn_cons_iff
    {parent scope : String}
    {parents outer : List String} :
    OccursIn (parent :: parents) (scope :: outer) ↔
      if Scope.covers parent scope then OccursIn parents outer
      else OccursIn (parent :: parents) outer := by
  split
  · rename_i hcovers
    constructor
    · intro h
      cases h with
      | cons _ hrest => exact hrest
      | cons_right hrest => exact OccursIn.tail hrest
    · exact .cons hcovers
  · rename_i hcovers
    constructor
    · intro h
      cases h with
      | cons hcovers' _ => exact absurd hcovers' hcovers
      | cons_right hrest => exact hrest
    · exact .cons_right

theorem parentsMatch_nil
    {parent : String}
    (h : parent ≠ ">")
    (parents : List String) :
    parentsMatch [] (parent :: parents) = false := by
  unfold parentsMatch
  split <;> simp_all

theorem parentsMatch_cons
    {parent : String}
    (h : parent ≠ ">")
    (scope : String)
    (parents outer : List String) :
    parentsMatch (scope :: outer) (parent :: parents) =
      if Scope.covers parent scope then parentsMatch outer parents
      else parentsMatch outer (parent :: parents) := by
  rw [parentsMatch] <;> simp_all

/-- Without marks, parent names match if they occur along the outer scopes. -/
theorem parentsMatch_iff
    {outer parents : List String}
    (h : ">" ∉ parents) :
    parentsMatch outer parents = true ↔ OccursIn parents outer := by
  induction outer generalizing parents with
  | nil =>
      cases parents with
      | nil =>
          simp [parentsMatch, OccursIn, List.SublistForall₂.nil]
      | cons parent parents =>
          rw [List.mem_cons, not_or] at h
          rw [parentsMatch_nil (Ne.symm h.1)]
          simp [not_occursIn_nil]
  | cons scope outer ih =>
      cases parents with
      | nil =>
          simp [parentsMatch, OccursIn, List.SublistForall₂.nil]
      | cons parent parents =>
          obtain ⟨hparent, hparents⟩ := not_or.mp (mt List.mem_cons.mpr h)
          rw [parentsMatch_cons (Ne.symm hparent), occursIn_cons_iff]
          split
          · exact ih hparents
          · exact ih h

end LineScopes
