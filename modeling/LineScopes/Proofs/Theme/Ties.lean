import LineScopes.Proofs.Theme.Marks

/-!
# Which orders of rules are sound

Two rules are always compared the same way from both sides. Where the parent names of one rule run
out, the numbers of entries decide, and marks count as entries; so a rule with a mark can tie with two
rules of which one comes before the other. Among rules whose entries grow with their names this does
not happen: their order is that of what they are compared by, and ties are ties throughout.

**Main definitions.** `TrieRule.extent`, `TrieRule.Graded`.

**Main statements.** `compare_eq_order`: the order among graded rules. `compare_preorder`: when the
order is one.
-/

namespace LineScopes
namespace TrieRule

open Std

/-- What rules are compared by before their entries are counted: the number of dotted parts of the
scope, followed by the sizes of the parent names. -/
def extent (r : TrieRule) : List Nat :=
  r.depth :: sizes r.parents

/-- Where the names of one rule run out and those of another one, as long so far, go on, the other
one has more entries, marks included. -/
def Graded (rules : List TrieRule) : Prop :=
  ∀ a ∈ rules, ∀ b ∈ rules, a.extent <+: b.extent → a.extent ≠ b.extent →
    a.parents.length < b.parents.length

instance (rules : List TrieRule) : Decidable (Graded rules) :=
  inferInstanceAs (Decidable (∀ a ∈ rules, ∀ b ∈ rules, _ → _ → _))

section Order

/-- Rules are compared by their extents, then by the numbers of their entries. -/
theorem compare_eq (a b : TrieRule) :
    a.compare b =
      (compareSizes a.extent b.extent).then
        (Ord.compare b.parents.length a.parents.length) := by
  unfold compare
  rw [compareLengths_eq, ← Ordering.then_assoc]
  rfl

theorem compareSizes_swap (s t : List Nat) :
    compareSizes t s = (compareSizes s t).swap := by
  induction s generalizing t with
  | nil =>
      cases t <;> rfl
  | cons m s ih =>
      cases t with
      | nil =>
          rfl
      | cons n t =>
          rw [compareSizes, compareSizes, ih, Ordering.swap_then, Nat.compare_swap]

/-- Two rules are compared the same way from both sides. -/
theorem compare_swap (a b : TrieRule) :
    b.compare a = (a.compare b).swap := by
  rw [compare_eq, compare_eq, Ordering.swap_then, ← compareSizes_swap, Nat.compare_swap]

/-- The order of rules by their extents, as words of a dictionary, and by the numbers of their
entries; what is greater comes first. -/
def order (a b : TrieRule) : Ordering :=
  (Ord.compare b.extent a.extent).then (Ord.compare b.parents.length a.parents.length)

instance : TransCmp order :=
  inferInstanceAs (TransCmp fun a b =>
    compareLex (compareOn extent) (compareOn fun r => r.parents.length) b a)

/-- Sizes are compared like words of a dictionary if the numbers of entries tell so where one list
runs out. -/
theorem compareSizes_then
    {s t : List Nat}
    {m n : Nat}
    (hs : s <+: t → s ≠ t → m < n)
    (ht : t <+: s → t ≠ s → n < m) :
    (compareSizes s t).then (Ord.compare n m) = (Ord.compare t s).then (Ord.compare n m) := by
  induction s generalizing t with
  | nil =>
      cases t with
      | nil =>
          rfl
      | cons y t =>
          have hlt := hs List.nil_prefix (by simp)
          exact Nat.compare_eq_gt.mpr hlt
  | cons x s ih =>
      cases t with
      | nil =>
          have hlt := ht List.nil_prefix (by simp)
          exact Nat.compare_eq_lt.mpr hlt
      | cons y t =>
          rw [compareSizes, List.compare_cons_cons, Ordering.then_assoc, Ordering.then_assoc]
          cases hxy : Ord.compare y x with
          | eq =>
              obtain rfl := Nat.compare_eq_eq.mp hxy
              exact ih (fun hprefix hne => hs (by simpa using hprefix) (by simpa using hne))
                fun hprefix hne => ht (by simpa using hprefix) (by simpa using hne)
          | lt =>
              rfl
          | gt =>
              rfl

/-- Among graded rules the comparison is the order by extents and entries. -/
theorem compare_eq_order
    {rules : List TrieRule}
    (h : Graded rules)
    {a b : TrieRule}
    (ha : a ∈ rules)
    (hb : b ∈ rules) :
    a.compare b = order a b := by
  rw [compare_eq]
  exact compareSizes_then (h a ha b hb) (h b hb a ha)

end Order

section Marks

theorem sizes_of_not_mem
    {parents : List String}
    (h : ">" ∉ parents) :
    sizes parents = parents.map String.utf8ByteSize := by
  rw [sizes, readParents_of_not_mem h, List.map_map]
  rfl

theorem length_sizes_le (parents : List String) :
    (sizes parents).length ≤ parents.length := by
  rw [sizes, List.length_map]
  exact length_readParents_le parents

/-- Without marks there are as many entries as names. -/
theorem graded_of_unmarked
    {rules : List TrieRule}
    (h : ∀ r ∈ rules, r.Unmarked) :
    Graded rules := by
  intro a ha b hb hprefix hne
  have hlt := Nat.lt_of_le_of_ne hprefix.length_le fun heq =>
    hne (List.IsPrefix.eq_of_length hprefix heq)
  simpa [extent, sizes_of_not_mem (h a ha), sizes_of_not_mem (h b hb)] using hlt

theorem compareSizes_self_append (s t : List Nat) :
    compareSizes s (s ++ t) = .eq := by
  induction s with
  | nil =>
      rfl
  | cons n s ih =>
      rw [List.cons_append, compareSizes, ih, Nat.compare_eq_eq.mpr rfl]
      rfl

theorem compareSizes_append_append (s t u : List Nat) :
    compareSizes (s ++ t) (s ++ u) = compareSizes t u := by
  induction s with
  | nil =>
      rfl
  | cons n s ih =>
      rw [List.cons_append, List.cons_append, compareSizes, ih, Nat.compare_eq_eq.mpr rfl]
      rfl

/-- A name of a size. -/
def nameOfSize (n : Nat) : String :=
  String.ofList (List.replicate n 'x')

@[simp] theorem utf8ByteSize_nameOfSize (n : Nat) :
    (nameOfSize n).utf8ByteSize = n := by
  induction n with
  | zero =>
      rfl
  | succ n ih =>
      unfold nameOfSize at ih ⊢
      rw [List.replicate_succ, String.ofList_cons, String.utf8ByteSize_append, ih,
        String.utf8ByteSize_singleton]
      exact Nat.add_comm 1 n

theorem nameOfSize_ne_mark (n : Nat) :
    nameOfSize n ≠ ">" := by
  intro heq
  have hmem : '>' ∈ List.replicate n 'x' := by
    have hchars := congrArg String.toList heq
    rw [nameOfSize, String.toList_ofList] at hchars
    simp [hchars]
  exact absurd (List.eq_of_mem_replicate hmem) (by decide)

/-- A rule with names of the same sizes and with as many entries, in which further names of one size
stand for the marks. -/
def filled
    (r : TrieRule)
    (size : Nat) : TrieRule :=
  { r with
    parents := (sizes r.parents ++
      List.replicate (r.parents.length - (sizes r.parents).length) size).map nameOfSize }

theorem unmarked_filled
    (r : TrieRule)
    (size : Nat) :
    (r.filled size).Unmarked := by
  intro hmark
  obtain ⟨n, -, hn⟩ := List.mem_map.mp hmark
  exact nameOfSize_ne_mark n hn

theorem extent_filled
    (r : TrieRule)
    (size : Nat) :
    (r.filled size).extent = r.extent ++
      List.replicate (r.parents.length - (sizes r.parents).length) size := by
  rw [extent, sizes_of_not_mem (unmarked_filled r size)]
  simp [filled, extent, Function.comp_def]

theorem length_parents_filled
    (r : TrieRule)
    (size : Nat) :
    (r.filled size).parents.length = r.parents.length := by
  have hle := length_sizes_le r.parents
  simp only [filled, List.length_map, List.length_append, List.length_replicate]
  omega

/-- A rule ties with those in which names stand for its marks. -/
theorem compare_filled
    (r : TrieRule)
    (size : Nat) :
    r.compare (r.filled size) = .eq := by
  rw [compare_eq, extent_filled, compareSizes_self_append, length_parents_filled,
    Nat.compare_eq_eq.mpr rfl]
  rfl

/-- If there is a mark, those with names of different sizes do not tie. -/
theorem compare_filled_filled
    {r : TrieRule}
    (h : ">" ∈ r.parents) :
    (r.filled 1).compare (r.filled 2) = .gt := by
  have hlt : (sizes r.parents).length < r.parents.length := by
    rw [sizes, List.length_map]
    exact length_readParents_lt h
  obtain ⟨k, hk⟩ : ∃ k, r.parents.length - (sizes r.parents).length = k + 1 :=
    ⟨r.parents.length - (sizes r.parents).length - 1, by omega⟩
  rw [compare_eq, extent_filled, extent_filled, compareSizes_append_append, hk]
  rfl

end Marks

/-- Among graded rules the comparison is transitive, and so is comparing as equal. -/
theorem compare_trans
    {a b c : TrieRule}
    (h : Graded [a, b, c]) :
    ((a.compare b).isLE = true → (b.compare c).isLE = true → (a.compare c).isLE = true) ∧
      (a.compare b = .eq → b.compare c = .eq → a.compare c = .eq) := by
  have hab : a.compare b = order a b := compare_eq_order h (by simp) (by simp)
  have hbc : b.compare c = order b c := compare_eq_order h (by simp) (by simp)
  have hac : a.compare c = order a c := compare_eq_order h (by simp) (by simp)
  rw [hab, hbc, hac]
  exact ⟨TransCmp.isLE_trans, TransCmp.eq_trans⟩

/-- The comparison of two rules is the same from both sides. Among three graded rules it is transitive,
and so is comparing as equal. A rule has no mark just if the rules without marks that it ties with tie
with each other. -/
theorem compare_preorder (a b c : TrieRule) :
    b.compare a = (a.compare b).swap ∧
    (Graded [a, b, c] →
      ((a.compare b).isLE = true → (b.compare c).isLE = true → (a.compare c).isLE = true) ∧
      (a.compare b = .eq → b.compare c = .eq → a.compare c = .eq)) ∧
    (a.Unmarked ↔
      ∀ q r : TrieRule, q.Unmarked → r.Unmarked →
        a.compare q = .eq → a.compare r = .eq → q.compare r = .eq) := by
  refine ⟨compare_swap a b, compare_trans, fun ha q r hq hr haq har => ?_, fun hties => ?_⟩
  · have hgraded : Graded [q, a, r] := graded_of_unmarked (by simp [ha, hq, hr])
    have hqa : q.compare a = .eq := by
      rw [compare_swap a q, haq]
      rfl
    exact (compare_trans hgraded).2 hqa har
  · intro hmark
    have htie := hties (a.filled 1) (a.filled 2) (unmarked_filled a 1) (unmarked_filled a 2)
      (compare_filled a 1) (compare_filled a 2)
    rw [compare_filled_filled hmark] at htie
    cases htie

/-- A rule for a tag of a script in a text, one for a direct child of a tag, and one for anything in a
tag. -/
def tagged : List TrieRule := [
  ⟨1, ["meta.tag", "source", "text"], none, 3, 0⟩,
  ⟨1, [">", "meta.tag"], none, 1, 0⟩,
  ⟨1, ["meta.tag"], none, 2, 0⟩]

/-- Three entries come before two, and these before one. -/
theorem compare_preorder_tagged :
    Graded [tagged[0], tagged[1], tagged[2]] ∧
      (tagged[0].compare tagged[1]).isLE = true ∧ (tagged[1].compare tagged[2]).isLE = true ∧
      (tagged[0].compare tagged[2]).isLE = true := by
  have hgraded : Graded [tagged[0], tagged[1], tagged[2]] := by
    decide +kernel
  have hfirst : (tagged[0].compare tagged[1]).isLE = true := by
    decide +kernel
  have hsecond : (tagged[1].compare tagged[2]).isLE = true := by
    decide +kernel
  have htrans := (compare_preorder tagged[0] tagged[1] tagged[2]).2.1 hgraded
  exact ⟨hgraded, hfirst, hsecond, htrans.1 hfirst hsecond⟩

/-- Rules for a tag in a text, for a direct child of a tag and for a tag in a script. -/
def contested : List TrieRule := [
  ⟨1, ["meta.tag", "text"], none, 2, 0⟩,
  ⟨1, [">", "meta.tag"], none, 1, 0⟩,
  ⟨1, ["meta.tag", "source"], none, 3, 0⟩]

/-- The rule in the middle ties with both of the others, of which the last one comes first. -/
theorem compare_of_child :
    contested[0].compare contested[1] = .eq ∧ contested[1].compare contested[2] = .eq ∧
      contested[0].compare contested[2] = .gt := by
  decide +kernel

end TrieRule
end LineScopes
