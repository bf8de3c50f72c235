import LineScopes.Proofs.Rule.Flattening

/-!
# Collecting the patterns of some rules

Rules are looked at one after the other. One with a pattern that starts it gives this pattern. A
group gives what is collected from the rules it holds, unless it is being replaced already; this
alone makes an end to it, however groups hold each other.

**Main definitions.** `RuleTable.opening?`, `RuleTable.held?`, `Collects`.

**Main statements.** `collects_iff`: collecting comes to an end, with the result of `flattenAll`.
-/

namespace LineScopes

namespace RuleTable

/-- The pattern that starts the rule of a number. -/
def opening?
    (rules : RuleTable)
    (id : RuleId) : Option PatternSource :=
  rules[id]?.bind Rule.opening?

/-- The rules that a group holds. -/
def held?
    (rules : RuleTable)
    (id : RuleId) : Option (List RuleId) :=
  match rules[id]? with
  | some (.group r) => some r.patterns
  | _ => none

variable {rules : RuleTable} {id : RuleId}

/-- A group has no pattern of its own. -/
theorem opening?_of_held?
    {held : List RuleId}
    (h : rules.held? id = some held) :
    rules.opening? id = none := by
  unfold held? at h
  split at h
  · rename_i r hrule
    simp [opening?, hrule, Rule.opening?]
  · cases h

theorem lt_size_of_held?
    {held : List RuleId}
    (h : rules.held? id = some held) :
    id < rules.size := by
  unfold held? at h
  split at h
  · rename_i r hrule
    exact (Array.getElem?_eq_some_iff.mp hrule).1
  · cases h

end RuleTable

section Cases

variable {rules : RuleTable} {id : RuleId} {path : List RuleId}

theorem flatten_of_opening?
    {source : PatternSource}
    (h : rules.opening? id = some source)
    (bound : Nat) :
    flatten rules bound path id = [⟨.rule id, source⟩] := by
  obtain ⟨r, hrule, hopening⟩ := Option.bind_eq_some_iff.mp h
  exact flatten_of_opening hrule hopening bound

theorem flatten_of_held?_mem
    {held : List RuleId}
    (h : rules.held? id = some held)
    (hseen : id ∈ path)
    (bound : Nat) :
    flatten rules bound path id = [] := by
  unfold RuleTable.held? at h
  split at h
  · exact flatten_of_seen ‹_› rfl hseen bound
  · cases h

theorem flatten_of_held?_not_mem
    {held : List RuleId}
    (h : rules.held? id = some held)
    (hnew : id ∉ path)
    (bound : Nat) :
    flatten rules (bound + 1) path id = held.flatMap (flatten rules bound (id :: path)) := by
  unfold RuleTable.held? at h
  split at h
  · obtain rfl := Option.some.inj h
    exact flatten_of_new ‹_› rfl hnew bound
  · cases h

/-- Nothing comes from a rule that has no pattern and holds no rules. -/
theorem flatten_of_nothing
    (hopening : rules.opening? id = none)
    (hheld : rules.held? id = none)
    (bound : Nat) :
    flatten rules bound path id = [] := by
  cases hrule : rules[id]? with
  | none =>
      exact flatten_of_none hrule bound
  | some r =>
      cases r with
      | group r => simp [RuleTable.held?, hrule] at hheld
      | simple r => simp [RuleTable.opening?, hrule, Rule.opening?] at hopening
      | region r => simp [RuleTable.opening?, hrule, Rule.opening?] at hopening
      | lines r => simp [RuleTable.opening?, hrule, Rule.opening?] at hopening
      | capture r => cases bound <;> simp [flatten, hrule]
      | pending => cases bound <;> simp [flatten, hrule]

end Cases

/-- The patterns that are collected from a list of rules, while the groups of a path are being
replaced. No bound limits how deep groups are nested. -/
inductive Collects (rules : RuleTable) : List RuleId → List RuleId → List PatternItem → Prop
  | done {path : List RuleId} : Collects rules path [] []
  | starts {path ids : List RuleId} {id : RuleId} {source : PatternSource}
    {items : List PatternItem}
    (h : rules.opening? id = some source)
    (hrest : Collects rules path ids items) :
    Collects rules path (id :: ids) (⟨.rule id, source⟩ :: items)
  | replaced {path ids held : List RuleId} {id : RuleId} {inner items : List PatternItem}
    (h : rules.held? id = some held)
    (hnew : id ∉ path)
    (hinner : Collects rules (id :: path) held inner)
    (hrest : Collects rules path ids items) :
    Collects rules path (id :: ids) (inner ++ items)
  | cut {path ids held : List RuleId} {id : RuleId} {items : List PatternItem}
    (h : rules.held? id = some held)
    (hseen : id ∈ path)
    (hrest : Collects rules path ids items) :
    Collects rules path (id :: ids) items
  | nothing {path ids : List RuleId} {id : RuleId} {items : List PatternItem}
    (hopening : rules.opening? id = none)
    (hheld : rules.held? id = none)
    (hrest : Collects rules path ids items) :
    Collects rules path (id :: ids) items

section Collecting

variable {rules : RuleTable} {path ids : List RuleId} {items : List PatternItem}

/-- A path that does not go through all rules leaves room to replace one more. -/
theorem exists_bound_of_not_mem
    {id : RuleId}
    {held : List RuleId}
    (h : rules.held? id = some held)
    (hnew : id ∉ path)
    (hnodup : path.Nodup)
    (hlt : ∀ i ∈ path, i < rules.size)
    {bound : Nat}
    (hsize : rules.size ≤ bound + path.length) :
    ∃ n, bound = n + 1 := by
  cases bound with
  | zero =>
      have hseen := mem_path_of_size_le hnodup hlt (by omega) (RuleTable.lt_size_of_held? h)
      exact absurd hseen hnew
  | succ n =>
      exact ⟨n, rfl⟩

/-- Whatever is collected is what `flatten` gives. -/
theorem Collects.eq_flatMap
    (h : Collects rules path ids items)
    (hnodup : path.Nodup)
    (hlt : ∀ i ∈ path, i < rules.size)
    {bound : Nat}
    (hsize : rules.size ≤ bound + path.length) :
    items = ids.flatMap (flatten rules bound path) := by
  induction h generalizing bound with
  | done =>
      rfl
  | starts h hrest ih =>
      rw [List.flatMap_cons, flatten_of_opening? h, ← ih hnodup hlt hsize]
      rfl
  | @replaced path ids held id inner items h hnew hinner hrest ihinner ihrest =>
      obtain ⟨n, rfl⟩ := exists_bound_of_not_mem h hnew hnodup hlt hsize
      have hid := RuleTable.lt_size_of_held? h
      have hroom : rules.size ≤ n + (id :: path).length := by
        rw [List.length_cons]
        omega
      rw [List.flatMap_cons, flatten_of_held?_not_mem h hnew, ← ihrest hnodup hlt hsize,
        ← ihinner (List.nodup_cons.mpr ⟨hnew, hnodup⟩) (List.forall_mem_cons.mpr ⟨hid, hlt⟩) hroom]
  | cut h hseen hrest ih =>
      rw [List.flatMap_cons, flatten_of_held?_mem h hseen, List.nil_append, ← ih hnodup hlt hsize]
  | nothing hopening hheld hrest ih =>
      rw [List.flatMap_cons, flatten_of_nothing hopening hheld, List.nil_append,
        ← ih hnodup hlt hsize]

/-- Collecting from a list comes to an end if it does so inside the groups that are replaced. -/
theorem collects_flatMap_of_held
    {bound : Nat}
    (hreplaced : ∀ id held, rules.held? id = some held → id ∉ path →
      Collects rules (id :: path) held (flatten rules bound path id))
    (ids : List RuleId) :
    Collects rules path ids (ids.flatMap (flatten rules bound path)) := by
  induction ids with
  | nil =>
      exact .done
  | cons id ids ih =>
      rw [List.flatMap_cons]
      cases hopening : rules.opening? id with
      | some source =>
          rw [flatten_of_opening? hopening]
          exact .starts hopening ih
      | none =>
          cases hheld : rules.held? id with
          | none =>
              rw [flatten_of_nothing hopening hheld]
              exact .nothing hopening hheld ih
          | some held =>
              by_cases hseen : id ∈ path
              · rw [flatten_of_held?_mem hheld hseen]
                exact .cut hheld hseen ih
              · exact .replaced hheld hseen (hreplaced id held hheld hseen) ih

/-- Collecting comes to an end, with the result of `flatten`. -/
theorem collects_flatMap
    {bound : Nat}
    (hnodup : path.Nodup)
    (hlt : ∀ i ∈ path, i < rules.size)
    (hsize : rules.size ≤ bound + path.length)
    (ids : List RuleId) :
    Collects rules path ids (ids.flatMap (flatten rules bound path)) := by
  -- on the room that is left: a path that goes through all rules has no group to replace
  induction bound generalizing path ids with
  | zero =>
      refine collects_flatMap_of_held (fun id held hheld hnew => ?_) ids
      obtain ⟨n, hn⟩ := exists_bound_of_not_mem hheld hnew hnodup hlt hsize
      cases hn
  | succ bound ih =>
      refine collects_flatMap_of_held (fun id held hheld hnew => ?_) ids
      have hid := RuleTable.lt_size_of_held? hheld
      rw [flatten_of_held?_not_mem hheld hnew]
      refine ih (List.nodup_cons.mpr ⟨hnew, hnodup⟩) (List.forall_mem_cons.mpr ⟨hid, hlt⟩) ?_ held
      rw [List.length_cons]
      omega

/-- Collecting the patterns of some rules comes to an end, with one result. -/
theorem collects_iff :
    Collects rules [] ids items ↔ items = flattenAll rules ids := by
  have hnone : ∀ i ∈ ([] : List RuleId), i < rules.size := by
    simp
  constructor
  · intro h
    exact h.eq_flatMap List.nodup_nil hnone (by simp)
  · rintro rfl
    exact collects_flatMap List.nodup_nil hnone (by simp) ids

end Collecting

section Inversion

variable {rules : RuleTable}

namespace Collects

variable {path ids held : List RuleId} {id : RuleId} {items : List PatternItem}

theorem of_starts
    {source : PatternSource}
    (h : Collects rules path (id :: ids) items)
    (hopening : rules.opening? id = some source) :
    ∃ rest, items = ⟨.rule id, source⟩ :: rest ∧ Collects rules path ids rest := by
  cases h with
  | starts h hrest =>
      obtain rfl := Option.some.inj (h.symm.trans hopening)
      exact ⟨_, rfl, hrest⟩
  | replaced h => simp [RuleTable.opening?_of_held? h] at hopening
  | cut h => simp [RuleTable.opening?_of_held? h] at hopening
  | nothing hnone => simp [hnone] at hopening

theorem of_held_not_mem
    (h : Collects rules path (id :: ids) items)
    (hheld : rules.held? id = some held)
    (hnew : id ∉ path) :
    ∃ inner rest, items = inner ++ rest ∧ Collects rules (id :: path) held inner ∧
      Collects rules path ids rest := by
  cases h with
  | starts h => simp [RuleTable.opening?_of_held? hheld] at h
  | replaced h _ hinner hrest =>
      obtain rfl := Option.some.inj (h.symm.trans hheld)
      exact ⟨_, _, rfl, hinner, hrest⟩
  | cut _ hseen => exact absurd hseen hnew
  | nothing _ hnone => simp [hnone] at hheld

theorem of_held_mem
    (h : Collects rules path (id :: ids) items)
    (hheld : rules.held? id = some held)
    (hseen : id ∈ path) :
    Collects rules path ids items := by
  cases h with
  | starts h => simp [RuleTable.opening?_of_held? hheld] at h
  | replaced _ hnew => exact absurd hseen hnew
  | cut _ _ hrest => exact hrest
  | nothing _ hnone => simp [hnone] at hheld

theorem of_nothing
    (h : Collects rules path (id :: ids) items)
    (hopening : rules.opening? id = none)
    (hheld : rules.held? id = none) :
    Collects rules path ids items := by
  cases h with
  | starts h => simp [hopening] at h
  | replaced h => simp [hheld] at h
  | cut h => simp [hheld] at h
  | nothing _ _ hrest => exact hrest

end Collects

end Inversion

end LineScopes
