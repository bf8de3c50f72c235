import LineScopes.Proofs.Theme.Specificity

/-!
# Parent names with marks

A mark belongs to the parent name behind it: the name has to be met at once. Read in this way, the
lengths of parent names are compared name by name, and parent names are looked for by one walk along
the outer scopes.

**Main definitions.** `ParentName`, `readParents`, `walkOutward`, `TrieRule.sizes`.

**Main statements.** `compareLengths_eq`, `parentsMatch_eq_walkOutward`.
-/

namespace LineScopes

/-- A parent name, and whether it has to be met at once. -/
structure ParentName where
  direct : Bool
  name : String
deriving DecidableEq, Repr

/-- The names of a list of parents, innermost first. A mark at the end has no name. -/
def readParents : List String → List ParentName
  | [] => []
  | first :: rest =>
    if first = ">" then
      match rest with
      | [] => []
      | name :: rest => ⟨true, name⟩ :: readParents rest
    else
      ⟨false, first⟩ :: readParents rest

section Reading

theorem readParents_name
    {name : String}
    (h : name ≠ ">")
    (rest : List String) :
    readParents (name :: rest) = ⟨false, name⟩ :: readParents rest := by
  rw [readParents.eq_def]
  exact if_neg h

/-- Without marks every entry is a name that may be met further out. -/
theorem readParents_of_not_mem
    {parents : List String}
    (h : ">" ∉ parents) :
    readParents parents = parents.map fun name => ⟨false, name⟩ := by
  induction parents with
  | nil =>
      rfl
  | cons name rest ih =>
      obtain ⟨hname, hrest⟩ := not_or.mp (mt List.mem_cons.mpr h)
      rw [readParents_name (Ne.symm hname), ih hrest]
      rfl

theorem length_readParents_le (parents : List String) :
    (readParents parents).length ≤ parents.length := by
  fun_induction readParents parents with
  | case1 =>
      exact Nat.le_refl 0
  | case2 =>
      exact Nat.zero_le 1
  | case3 name rest ih =>
      simp only [List.length_cons]
      omega
  | case4 name rest hname ih =>
      exact Nat.succ_le_succ ih

/-- A mark is no name of its own. -/
theorem length_readParents_lt
    {parents : List String}
    (h : ">" ∈ parents) :
    (readParents parents).length < parents.length := by
  fun_induction readParents parents with
  | case1 =>
      cases h
  | case2 =>
      exact Nat.one_pos
  | case3 name rest ih =>
      have hle := length_readParents_le rest
      simp only [List.length_cons]
      omega
  | case4 name rest hname ih =>
      have hrest : ">" ∈ rest := by
        rcases List.mem_cons.mp h with heq | hrest
        · exact absurd heq.symm hname
        · exact hrest
      exact Nat.succ_lt_succ (ih hrest)

end Reading

section Walk

/-- Looks for names along the outer scopes: each one at the first scope that it covers, and one that
has to be met at once only at the next scope. -/
def walkOutward : (outer : List String) → List ParentName → Bool
  | _, [] => true
  | [], _ :: _ => false
  | scope :: outer, p :: names =>
    if Scope.covers p.name scope then walkOutward outer names
    else !p.direct && walkOutward outer (p :: names)

theorem getLast?_ne_of_cons
    {first : String}
    {rest : List String}
    (h : (first :: rest).getLast? ≠ some ">") :
    rest.getLast? ≠ some ">" := by
  cases rest with
  | nil =>
      simp
  | cons second rest =>
      rwa [List.getLast?_cons_cons] at h

/-- Parents match if the walk meets all their names; a mark at the end is never met. -/
theorem parentsMatch_eq_walkOutward
    (outer : List String)
    {parents : List String}
    (h : parents.getLast? ≠ some ">") :
    parentsMatch outer parents = walkOutward outer (readParents parents) := by
  induction outer generalizing parents with
  | nil =>
      fun_cases readParents parents with
      | case1 =>
          simp [parentsMatch, walkOutward]
      | case2 =>
          exact absurd rfl h
      | case3 name rest =>
          simp [parentsMatch, walkOutward]
      | case4 name rest hname =>
          rw [parentsMatch_nil hname]
          rfl
  | cons scope outer ih =>
      fun_cases readParents parents with
      | case1 =>
          simp [parentsMatch, walkOutward]
      | case2 =>
          exact absurd rfl h
      | case3 name rest =>
          have hrest := getLast?_ne_of_cons (getLast?_ne_of_cons h)
          rw [parentsMatch, walkOutward, ih hrest]
          cases Scope.covers name scope <;> rfl
      | case4 name rest hname =>
          rw [parentsMatch_cons hname, walkOutward, ih (getLast?_ne_of_cons h), ih h,
            readParents_name hname]
          rfl

end Walk

namespace TrieRule

/-- The sizes of the names of a list of parents. -/
def sizes (parents : List String) : List Nat :=
  (readParents parents).map (·.name.utf8ByteSize)

/-- Compares sizes pairwise as far as both lists go: the larger one comes first. -/
def compareSizes : List Nat → List Nat → Ordering
  | m :: ms, n :: ns => (Ord.compare n m).then (compareSizes ms ns)
  | _, _ => .eq

/-- The sizes of names are those of the list without a first mark. -/
theorem sizes_eq (parents : List String) :
    sizes parents =
      match skipMark parents with
      | [] => []
      | name :: rest => name.utf8ByteSize :: sizes rest := by
  cases parents with
  | nil =>
      rfl
  | cons name rest =>
      by_cases hname : name = ">"
      · subst hname
        cases rest <;> rfl
      · rw [skipMark_of_ne hname, sizes, readParents_name hname]
        rfl

/-- Names are compared by their sizes. -/
theorem compareLengths_eq (a b : List String) :
    compareLengths a b = compareSizes (sizes a) (sizes b) := by
  fun_induction compareLengths a b with
  | case1 a b x xs y ys hx hy ih =>
      rw [sizes_eq a, sizes_eq b, hx, hy, ih]
      rfl
  | case2 a b hnone =>
      rw [sizes_eq a, sizes_eq b]
      cases hx : skipMark a with
      | nil =>
          rfl
      | cons x xs =>
          cases hy : skipMark b with
          | nil =>
              rfl
          | cons y ys =>
              exact absurd hy (hnone x xs y ys hx)

end TrieRule

end LineScopes
