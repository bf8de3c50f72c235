import LineScopes.Rule.PatternSet

/-!
# The pattern sets of a table

Every rule of a table has a set of patterns that can match while it is in force, and a rule that
lasts line by line also has one that says whether it goes on. A set is built when first needed.

**Main definitions.** `PatternSets`, `PatternSets.ofTable`, `PatternSets.inside`,
`PatternSets.onward`.

**Main statements.** `inside_eq`, `onward_eq`: the sets hold the patterns of `ruleItems` and
`continuingItems`.
-/

namespace LineScopes

/-- The sets of all rules, which are what the table says. -/
structure PatternSets (engine : Engine) (rules : RuleTable) where
  insideSets : Array (Thunk PatternSet)
  onwardSets : Array (Thunk PatternSet)
  insideSets_get : ∀ id : RuleId, (insideSets[id]?.map Thunk.get).getD (.ofItems engine []) =
    .ofItems engine (ruleItems rules id none)
  onwardSets_get : ∀ id : RuleId, (onwardSets[id]?.map Thunk.get).getD (.ofItems engine []) =
    .ofItems engine (continuingItems rules id none)

namespace PatternSets

variable {engine : Engine} {rules : RuleTable}

/-- The patterns that can match while a rule is in force. -/
def inside
    (s : PatternSets engine rules)
    (id : RuleId) : PatternSet :=
  (s.insideSets[id]?.map Thunk.get).getD (.ofItems engine [])

/-- The pattern that says whether a rule goes on. -/
def onward
    (s : PatternSets engine rules)
    (id : RuleId) : PatternSet :=
  (s.onwardSets[id]?.map Thunk.get).getD (.ofItems engine [])

theorem inside_eq
    (s : PatternSets engine rules)
    (id : RuleId) :
    s.inside id = .ofItems engine (ruleItems rules id none) :=
  s.insideSets_get id

theorem onward_eq
    (s : PatternSets engine rules)
    (id : RuleId) :
    s.onward id = .ofItems engine (continuingItems rules id none) :=
  s.onwardSets_get id

theorem ruleItems_of_size_le
    (rules : RuleTable)
    (id : RuleId)
    (h : rules.size ≤ id) :
    ruleItems rules id none = [] := by
  have hnone : rules[id]? = none := by simp [h]
  unfold ruleItems
  rw [hnone]
  cases hs : rules.size <;> simp [flatten, hnone]

theorem continuingItems_of_size_le
    (rules : RuleTable)
    (id : RuleId)
    (h : rules.size ≤ id) :
    continuingItems rules id none = [] := by
  have hnone : rules[id]? = none := by simp [h]
  simp [continuingItems, hnone]

/-- One suspended value for every number below a bound. -/
def suspended
    (count : Nat)
    (value : Nat → PatternSet) : Array (Thunk PatternSet) :=
  Array.ofFn fun i : Fin count => Thunk.mk fun _ => value i

theorem suspended_get
    (count : Nat)
    (items : Nat → List PatternItem)
    (h : ∀ id, count ≤ id → items id = [])
    (id : Nat) :
    ((suspended count fun i => .ofItems engine (items i))[id]?.map Thunk.get).getD
      (.ofItems engine []) = .ofItems engine (items id) := by
  by_cases hid : id < count
  · have : (suspended count fun i => PatternSet.ofItems engine (items i))[id]? =
        some (Thunk.mk fun _ => PatternSet.ofItems engine (items id)) := by
      simp [suspended, hid]
    rw [this]
    rfl
  · have : (suspended count fun i => PatternSet.ofItems engine (items i))[id]? = none := by
      simp [suspended, hid]
    rw [this, h id (by omega)]
    rfl

/-- The sets of a table. -/
def ofTable
    (engine : Engine)
    (rules : RuleTable) : PatternSets engine rules where
  insideSets := suspended rules.size fun id => .ofItems engine (ruleItems rules id none)
  onwardSets := suspended rules.size fun id => .ofItems engine (continuingItems rules id none)
  insideSets_get :=
    suspended_get rules.size (ruleItems rules · none) (ruleItems_of_size_le rules)
  onwardSets_get :=
    suspended_get rules.size (continuingItems rules · none) (continuingItems_of_size_le rules)

end PatternSets

end LineScopes
