import LineScopes.Rule.PatternSet
import Mathlib.Data.List.Nodup
import Mathlib.Data.List.Perm.Subperm
import Mathlib.Data.List.Range

/-!
# Groups are replaced by what they hold

A rule with a pattern that starts it stands for itself, a group for the rules it holds. No group is
replaced inside itself, so there is an end to it as long as there is room for all rules of the
table.

**Main definitions.** `Rule.opening?`.

**Main statements.** `flatten_of_opening`, `flatten_of_seen`, `flatten_of_new`: the three cases.
`flatten_eq_of_le`: more room makes no difference.
-/

namespace LineScopes

/-- The pattern that starts a rule. -/
def Rule.opening? : Rule → Option PatternSource
  | simple r => some r.pattern
  | region r => some r.opening
  | lines r => some r.opening
  | _ => none

variable {rules : RuleTable} {id : RuleId} {r : Rule} {path : List RuleId}

theorem flatten_of_none
    (h : rules[id]? = none)
    (bound : Nat) :
    flatten rules bound path id = [] := by
  cases bound <;> simp [flatten, h]

theorem flatten_of_opening
    (h : rules[id]? = some r)
    {source : PatternSource}
    (hopening : r.opening? = some source)
    (bound : Nat) :
    flatten rules bound path id = [⟨.rule id, source⟩] := by
  cases r <;> cases hopening <;> cases bound <;> simp [flatten, h]

theorem flatten_of_seen
    (h : rules[id]? = some r)
    (hopening : r.opening? = none)
    (hseen : id ∈ path)
    (bound : Nat) :
    flatten rules bound path id = [] := by
  cases r <;> cases hopening <;> cases bound <;> simp [flatten, h, hseen]

theorem flatten_zero
    (h : rules[id]? = some r)
    (hopening : r.opening? = none) :
    flatten rules 0 path id = [] := by
  cases r <;> cases hopening <;> simp [flatten, h]

theorem flatten_of_new
    (h : rules[id]? = some r)
    (hopening : r.opening? = none)
    (hnew : id ∉ path)
    (bound : Nat) :
    flatten rules (bound + 1) path id = r.patterns.flatMap (flatten rules bound (id :: path)) := by
  cases r <;> cases hopening <;> simp [flatten, h, hnew, Rule.patterns]

/-- A path without repetitions that is as long as the table goes through every rule. -/
theorem mem_path_of_size_le
    (hnodup : path.Nodup)
    (hlt : ∀ i ∈ path, i < rules.size)
    (hsize : rules.size ≤ path.length)
    (hid : id < rules.size) :
    id ∈ path := by
  have hsubset : path ⊆ List.range rules.size := fun i hi => List.mem_range.mpr (hlt i hi)
  have hperm : path.Perm (List.range rules.size) :=
    (List.subperm_of_subset hnodup hsubset).perm_of_length_le (by simpa using hsize)
  exact hperm.mem_iff.mpr (List.mem_range.mpr hid)

/-- More room than there are rules that have not been replaced makes no difference. -/
theorem flatten_eq_of_le
    {bound bound' : Nat}
    (hle : bound ≤ bound')
    (hnodup : path.Nodup)
    (hlt : ∀ i ∈ path, i < rules.size)
    (hsize : rules.size ≤ bound + path.length)
    (id : RuleId) :
    flatten rules bound path id = flatten rules bound' path id := by
  induction bound generalizing bound' path id with
  | zero =>
      cases hr : rules[id]? with
      | none =>
          rw [flatten_of_none hr, flatten_of_none hr]
      | some r =>
          cases hopening : r.opening? with
          | some source =>
              rw [flatten_of_opening hr hopening, flatten_of_opening hr hopening]
          | none =>
              have hseen := mem_path_of_size_le hnodup hlt (by omega)
                (Array.getElem?_eq_some_iff.mp hr).1
              rw [flatten_of_seen hr hopening hseen, flatten_of_seen hr hopening hseen]
  | succ bound ih =>
      obtain ⟨bound', rfl⟩ : ∃ n, bound' = n + 1 := ⟨bound' - 1, by omega⟩
      cases hr : rules[id]? with
      | none =>
          rw [flatten_of_none hr, flatten_of_none hr]
      | some r =>
          cases hopening : r.opening? with
          | some source =>
              rw [flatten_of_opening hr hopening, flatten_of_opening hr hopening]
          | none =>
              by_cases hseen : id ∈ path
              · rw [flatten_of_seen hr hopening hseen, flatten_of_seen hr hopening hseen]
              · rw [flatten_of_new hr hopening hseen, flatten_of_new hr hopening hseen]
                have hid := (Array.getElem?_eq_some_iff.mp hr).1
                refine List.flatMap_congr fun i _ => ih (by omega)
                  (List.nodup_cons.mpr ⟨hseen, hnodup⟩) (List.forall_mem_cons.mpr ⟨hid, hlt⟩) ?_ i
                rw [List.length_cons]
                omega

end LineScopes
