import LineScopes.Proofs.Grammar.Written
import LineScopes.Proofs.Rule.Collected

/-!
# Which patterns come up, and in which order

A group stands for the rules it holds. It is not replaced inside itself, but it is replaced again
wherever else it is held, so a rule can come up many times. Neither the rules that come up nor the
order in which they do so first depend on this: both are those of a walk that goes depth first and
replaces a group only the first time it is met.

**Why.** When a group is met again and is not being replaced just now, it has been replaced as a
whole. Whatever it holds has come up, or it is a group that was met. So what is collected from it
once more has come up already.

**Main definitions.** `Walks`, `RuleTable.Reaches`, `Exhausted`, `Explored`, `Flattened`.

**Main statements.** `Walks.walksAlong`: what is collected beside a walk. `ruleItems_flattened`: the
patterns of a rule.
-/

namespace LineScopes

/-- The rules whose patterns can match while a rule is in force. -/
def RuleTable.offered
    (rules : RuleTable)
    (id : RuleId) : List RuleId :=
  match rules[id]? with
  | some (.region r) => r.patterns
  | some (.lines r) => r.patterns
  | _ => [id]

/-- The end pattern of a region, with the captured texts if there are any. -/
def RegionRule.closingItem
    (r : RegionRule)
    (resolved : Option String) : PatternItem :=
  ⟨.closing, (resolved.map PatternSource.ofPattern).getD r.closing⟩

/-- The walk through groups that goes depth first and replaces a group only the first time it is
met: from the groups met before and the rules to visit to the rules found and the groups met
then. -/
inductive Walks (rules : RuleTable) :
    (met ids found met' : List RuleId) → Prop
  | done {met : List RuleId} : Walks rules met [] [] met
  | starts {met met' ids found : List RuleId} {id : RuleId} {source : PatternSource}
    (h : rules.opening? id = some source)
    (hrest : Walks rules met ids found met') :
    Walks rules met (id :: ids) (id :: found) met'
  | replaced {met met₁ met₂ ids held inner found : List RuleId} {id : RuleId}
    (h : rules.held? id = some held)
    (hnew : id ∉ met)
    (hinner : Walks rules (id :: met) held inner met₁)
    (hrest : Walks rules met₁ ids found met₂) :
    Walks rules met (id :: ids) (inner ++ found) met₂
  | again {met met' ids held found : List RuleId} {id : RuleId}
    (h : rules.held? id = some held)
    (hseen : id ∈ met)
    (hrest : Walks rules met ids found met') :
    Walks rules met (id :: ids) found met'
  | nothing {met met' ids found : List RuleId} {id : RuleId}
    (hopening : rules.opening? id = none)
    (hheld : rules.held? id = none)
    (hrest : Walks rules met ids found met') :
    Walks rules met (id :: ids) found met'

/-- The rules that can be reached from a list of rules through groups. -/
inductive RuleTable.Reaches (rules : RuleTable) (ids : List RuleId) : RuleId → Prop
  | listed {id : RuleId} (h : id ∈ ids) : RuleTable.Reaches rules ids id
  | held {group id : RuleId} {held : List RuleId} (hgroup : RuleTable.Reaches rules ids group)
    (h : rules.held? group = some held) (hid : id ∈ held) : RuleTable.Reaches rules ids id

/-- What is reached from rules that are reached themselves. -/
theorem RuleTable.Reaches.trans
    {rules : RuleTable}
    {ids held : List RuleId}
    {id : RuleId}
    (h : rules.Reaches held id)
    (hheld : ∀ i ∈ held, rules.Reaches ids i) :
    rules.Reaches ids id := by
  induction h with
  | listed h =>
      exact hheld _ h
  | held hgroup h hid ih =>
      exact .held ih h hid

/-- How many rules a walk has not met. -/
def unmet
    (rules : RuleTable)
    (met : List RuleId) : Nat :=
  (List.range rules.size).countP (· ∉ met)

theorem unmet_lt
    {rules : RuleTable}
    {met met' : List RuleId}
    {id : RuleId}
    (hid : id < rules.size)
    (hnew : id ∉ met)
    (hmore : id :: met ⊆ met') :
    unmet rules met' < unmet rules met := by
  obtain ⟨hmem, hsubset⟩ := List.cons_subset.mp hmore
  refine countP_lt_countP (fun i _ hi => ?_) (List.mem_range.mpr hid) (by simpa using hmem)
    (by simpa using hnew)
  simp only [decide_eq_true_eq] at hi ⊢
  exact fun h => hi (hsubset h)

/-- From everywhere there is a walk. -/
theorem exists_walks
    (rules : RuleTable)
    (met ids : List RuleId) :
    ∃ found met', Walks rules met ids found met' ∧ met ⊆ met' := by
  -- a group that is replaced is one rule less that is unmet
  induction hn : unmet rules met using Nat.strongRecOn generalizing met ids with
  | ind n ih =>
      induction ids with
      | nil =>
          exact ⟨[], met, .done, List.Subset.refl met⟩
      | cons id ids ihids =>
          obtain ⟨found, met', hrest, hsubset⟩ := ihids
          cases hopening : rules.opening? id with
          | some source =>
              exact ⟨id :: found, met', .starts hopening hrest, hsubset⟩
          | none =>
              cases hheld : rules.held? id with
              | none =>
                  exact ⟨found, met', .nothing hopening hheld hrest, hsubset⟩
              | some held =>
                  by_cases hseen : id ∈ met
                  · exact ⟨found, met', .again hheld hseen hrest, hsubset⟩
                  · have hlt := fun {m : List RuleId} (hm : id :: met ⊆ m) =>
                      hn ▸ unmet_lt (RuleTable.lt_size_of_held? hheld) hseen hm
                    obtain ⟨inner, met₁, hinner, hmet₁⟩ :=
                      ih _ (hlt (List.Subset.refl _)) (id :: met) held rfl
                    obtain ⟨later, met₂, hlater, hmet₂⟩ := ih _ (hlt hmet₁) met₁ ids rfl
                    exact ⟨inner ++ later, met₂, .replaced hheld hseen hinner hlater,
                      fun i hi => hmet₂ (hmet₁ (List.mem_cons_of_mem id hi))⟩

section Order

variable {rules : RuleTable}

/-- Nothing new comes from a rule: it has come up, or it is a group that has been met. -/
structure Exhausted
    (rules : RuleTable)
    (met : List RuleId)
    (out : List PatternLabel)
    (id : RuleId) : Prop where
  opening : ∀ source, rules.opening? id = some source → .rule id ∈ out
  held : ∀ held, rules.held? id = some held → id ∈ met

theorem Exhausted.mono
    {met met' : List RuleId}
    {out out' : List PatternLabel}
    {id : RuleId}
    (h : Exhausted rules met out id)
    (hmet : met ⊆ met')
    (hout : out ⊆ out') :
    Exhausted rules met' out' id :=
  ⟨fun source hsource => hout (h.opening source hsource),
    fun held hheld => hmet (h.held held hheld)⟩

/-- A group has no pattern of its own. -/
theorem Exhausted.of_held
    {met held : List RuleId}
    {out : List PatternLabel}
    {id : RuleId}
    (hheld : rules.held? id = some held)
    (hmem : id ∈ met) :
    Exhausted rules met out id where
  opening source hsource := by
    rw [RuleTable.opening?_of_held? hheld] at hsource
    cases hsource
  held _ _ := hmem

/-- The groups that have been met and are not being replaced have been replaced as a whole. -/
def Explored
    (rules : RuleTable)
    (path met : List RuleId)
    (out : List PatternLabel) : Prop :=
  ∀ group ∈ met, group ∉ path → ∀ held, rules.held? group = some held →
    ∀ i ∈ held, Exhausted rules met out i

theorem Explored.mono
    {path met : List RuleId}
    {out out' : List PatternLabel}
    (h : Explored rules path met out)
    (hout : out ⊆ out') :
    Explored rules path met out' :=
  fun group hmet hpath held hheld i hi =>
    (h group hmet hpath held hheld i hi).mono (List.Subset.refl met) hout

/-- Inside a group the group itself is being replaced. -/
theorem Explored.inside
    {path met : List RuleId}
    {out : List PatternLabel}
    (h : Explored rules path met out)
    (id : RuleId) :
    Explored rules (id :: path) (id :: met) out := by
  intro group hmet hgroup held hheld i hi
  obtain ⟨hne, hpath⟩ := List.ne_and_not_mem_of_not_mem_cons hgroup
  exact (h group (List.mem_of_ne_of_mem hne hmet) hpath held hheld i hi).mono
    (List.subset_cons_self id met) (List.Subset.refl out)

/-- Nothing new is collected from rules that are exhausted. -/
theorem Collects.subset_of_exhausted
    {path ids : List RuleId}
    {items : List PatternItem}
    (h : Collects rules path ids items)
    {outer met : List RuleId}
    {out : List PatternLabel}
    (houter : outer ⊆ path)
    (hexplored : Explored rules outer met out)
    (hids : ∀ i ∈ ids, Exhausted rules met out i) :
    items.map PatternItem.label ⊆ out := by
  induction h with
  | done =>
      exact List.nil_subset out
  | starts h hrest ih =>
      obtain ⟨hid, hids⟩ := List.forall_mem_cons.mp hids
      rw [List.map_cons]
      exact List.cons_subset.mpr ⟨hid.opening _ h, ih houter hids⟩
  | replaced h hnew hinner hrest ihinner ihrest =>
      obtain ⟨hid, hids⟩ := List.forall_mem_cons.mp hids
      have hheld := hexplored _ (hid.held _ h) (fun hmem => hnew (houter hmem)) _ h
      rw [List.map_append]
      exact List.append_subset.mpr
        ⟨ihinner (fun i hi => List.mem_cons_of_mem _ (houter hi)) hheld, ihrest houter hids⟩
  | cut h hseen hrest ih =>
      exact ih houter (List.forall_mem_cons.mp hids).2
  | nothing hopening hheld hrest ih =>
      exact ih houter (List.forall_mem_cons.mp hids).2

section First

variable {α : Type} [BEq α] [LawfulBEq α] {l l' r : List α}

theorem eraseDups_append_of_subset
    (h : r ⊆ l) :
    (l ++ r).eraseDups = l.eraseDups := by
  have hnone : r.removeAll l = [] := by
    rw [List.removeAll, List.filter_eq_nil_iff]
    intro a ha
    simpa using h ha
  rw [List.eraseDups_append, hnone]
  simp

theorem eraseDups_append_congr
    (h : l.eraseDups = l'.eraseDups) :
    (l ++ r).eraseDups = (l' ++ r).eraseDups := by
  have hmem : ∀ a, a ∈ l ↔ a ∈ l' := fun a => by
    rw [← List.mem_eraseDups, h, List.mem_eraseDups]
  have hsame : r.removeAll l = r.removeAll l' := by
    refine List.filter_congr fun a _ => ?_
    simp [hmem]
  rw [List.eraseDups_append, List.eraseDups_append, h, hsame]

end First

/-- What holds behind a walk beside which patterns were collected. -/
structure WalksAlong
    (rules : RuleTable)
    (path met ids found met' : List RuleId)
    (out : List PatternLabel)
    (items : List PatternItem) : Prop where
  met : met ⊆ met'
  explored : Explored rules path met' (out ++ found.map PatternLabel.rule)
  exhausted : ∀ i ∈ ids, Exhausted rules met' (out ++ found.map PatternLabel.rule) i
  first : (out ++ items.map PatternItem.label).eraseDups =
    (out ++ found.map PatternLabel.rule).eraseDups

namespace WalksAlong

variable {path met met' ids found : List RuleId} {id : RuleId} {out : List PatternLabel}
variable {items : List PatternItem}

/-- A rule that is exhausted before the others are visited makes no difference. -/
theorem cons
    (h : WalksAlong rules path met ids found met' out items)
    (hid : Exhausted rules met out id) :
    WalksAlong rules path met (id :: ids) found met' out items where
  met := h.met
  explored := h.explored
  exhausted := List.forall_mem_cons.mpr
    ⟨hid.mono h.met (List.subset_append_left _ _), h.exhausted⟩
  first := h.first

/-- A rule that has been found is put in front. -/
theorem starts
    {source : PatternSource}
    (hopening : rules.opening? id = some source)
    (h : WalksAlong rules path met ids found met' (out ++ [.rule id]) items) :
    WalksAlong rules path met (id :: ids) (id :: found) met' out (⟨.rule id, source⟩ :: items) := by
  have hout : out ++ (id :: found).map PatternLabel.rule =
      out ++ [.rule id] ++ found.map PatternLabel.rule := by
    simp
  have hid : Exhausted rules met (out ++ [.rule id]) id := by
    refine ⟨fun _ _ => by simp, fun held hheld => ?_⟩
    rw [RuleTable.opening?_of_held? hheld] at hopening
    cases hopening
  have hcons := h.cons hid
  refine ⟨hcons.met, ?_, ?_, ?_⟩
  · rw [hout]
    exact hcons.explored
  · rw [hout]
    exact hcons.exhausted
  · rw [hout, ← hcons.first]
    simp

/-- Behind a group that has been replaced, it has been replaced as a whole. -/
theorem outside
    {held inner : List RuleId}
    (hheld : rules.held? id = some held)
    (h : WalksAlong rules (id :: path) (id :: met) held inner met' out items) :
    Explored rules path met' (out ++ inner.map PatternLabel.rule) := by
  intro group hmet hpath held' hheld'
  by_cases hsame : group = id
  · subst hsame
    obtain rfl := Option.some.inj (hheld.symm.trans hheld')
    exact h.exhausted
  · exact h.explored group hmet (List.not_mem_cons_of_ne_of_not_mem hsame hpath) held' hheld'

/-- What comes from a group is put in front of what comes later. -/
theorem replaced
    {held inner met₁ : List RuleId}
    {innerItems : List PatternItem}
    (hheld : rules.held? id = some held)
    (hinner : WalksAlong rules (id :: path) (id :: met) held inner met₁ out innerItems)
    (h : WalksAlong rules path met₁ ids found met' (out ++ inner.map PatternLabel.rule) items) :
    WalksAlong rules path met (id :: ids) (inner ++ found) met' out (innerItems ++ items) := by
  have hcons := h.cons (.of_held hheld (hinner.met List.mem_cons_self))
  have hout : out ++ (inner ++ found).map PatternLabel.rule =
      out ++ inner.map PatternLabel.rule ++ found.map PatternLabel.rule := by
    simp
  refine ⟨fun i hi => hcons.met (hinner.met (List.mem_cons_of_mem id hi)), ?_, ?_, ?_⟩
  · rw [hout]
    exact hcons.explored
  · rw [hout]
    exact hcons.exhausted
  · rw [hout, List.map_append, ← List.append_assoc, ← hcons.first]
    exact eraseDups_append_congr hinner.first

/-- What has come up already is put in front of what comes later. -/
theorem again
    {old : List PatternItem}
    (h : WalksAlong rules path met ids found met' out items)
    (hold : old.map PatternItem.label ⊆ out) :
    WalksAlong rules path met ids found met' out (old ++ items) := by
  refine ⟨h.met, h.explored, h.exhausted, ?_⟩
  rw [List.map_append, ← List.append_assoc, ← h.first]
  exact eraseDups_append_congr (eraseDups_append_of_subset hold)

end WalksAlong

/-- What comes up first beside a walk is what the walk finds. -/
theorem Walks.walksAlong
    {met ids found met' : List RuleId}
    (h : Walks rules met ids found met')
    {path : List RuleId}
    {out : List PatternLabel}
    {items : List PatternItem}
    (hpath : path ⊆ met)
    (hexplored : Explored rules path met out)
    (hitems : Collects rules path ids items) :
    WalksAlong rules path met ids found met' out items := by
  induction h generalizing path out items with
  | @done met =>
      cases hitems
      exact ⟨List.Subset.refl met, by simpa using hexplored, by simp, rfl⟩
  | @starts met met' ids found id source h hrest ih =>
      obtain ⟨rest, rfl, hlater⟩ := hitems.of_starts h
      exact (ih hpath (hexplored.mono (List.subset_append_left _ _)) hlater).starts h
  | @replaced met met₁ met₂ ids held inner found id h hnew hinner hrest ihinner ihrest =>
      obtain ⟨innerItems, rest, rfl, hinside, hlater⟩ :=
        hitems.of_held_not_mem h fun hmem => hnew (hpath hmem)
      have hgroup := ihinner (List.cons_subset_cons id hpath) (hexplored.inside id) hinside
      have hpath₁ : path ⊆ met₁ := fun i hi => hgroup.met (List.mem_cons_of_mem id (hpath hi))
      exact hgroup.replaced h (ihrest hpath₁ (hgroup.outside h) hlater)
  | @again met met' ids held found id h hseen hrest ih =>
      have hid : Exhausted rules met out id := .of_held h hseen
      by_cases hmem : id ∈ path
      · exact (ih hpath hexplored (hitems.of_held_mem h hmem)).cons hid
      · -- the group is replaced once more, and nothing new comes from it
        obtain ⟨old, rest, rfl, hinside, hlater⟩ := hitems.of_held_not_mem h hmem
        have hold := hinside.subset_of_exhausted (List.subset_cons_self id path) hexplored
          (hexplored id hseen hmem held h)
        exact ((ih hpath hexplored hlater).again hold).cons hid
  | @nothing met met' ids found id hopening hheld hrest ih =>
      have hid : Exhausted rules met out id := ⟨by simp [hopening], by simp [hheld]⟩
      exact (ih hpath hexplored (hitems.of_nothing hopening hheld)).cons hid

end Order

/-- A pattern starts a rule that can be reached from some rules. -/
def PatternItem.Starts
    (item : PatternItem)
    (rules : RuleTable)
    (ids : List RuleId) : Prop :=
  ∃ id source, item = ⟨.rule id, source⟩ ∧ rules.opening? id = some source ∧ rules.Reaches ids id

/-- The patterns that can start some rules, with groups replaced by what they hold. -/
structure Flattened
    (rules : RuleTable)
    (ids : List RuleId)
    (items : List PatternItem) : Prop where
  /-- Collecting the patterns comes to an end, and these are collected. -/
  collects : ∀ other, Collects rules [] ids other ↔ other = items
  /-- They start the rules that can be reached through groups. -/
  mem_iff : ∀ item, item ∈ items ↔ item.Starts rules ids
  walks : ∃ found met, Walks rules [] ids found met
  /-- They come up first in the order of a walk. -/
  first : ∀ found met, Walks rules [] ids found met →
    (items.map PatternItem.label).eraseDups = (found.map PatternLabel.rule).eraseDups

section Flattened

variable {rules : RuleTable} {ids : List RuleId} {item : PatternItem}

theorem PatternItem.Starts.trans
    {held : List RuleId}
    (h : item.Starts rules held)
    (hheld : ∀ i ∈ held, rules.Reaches ids i) :
    item.Starts rules ids := by
  obtain ⟨id, source, hitem, hopening, hreach⟩ := h
  exact ⟨id, source, hitem, hopening, hreach.trans hheld⟩

theorem PatternItem.Starts.cons
    (h : item.Starts rules ids)
    (id : RuleId) :
    item.Starts rules (id :: ids) :=
  h.trans fun _ hi => .listed (List.mem_cons_of_mem id hi)

/-- What is collected starts rules that can be reached. -/
theorem Collects.starts_of_mem
    {path : List RuleId}
    {items : List PatternItem}
    (h : Collects rules path ids items)
    (hitem : item ∈ items) :
    item.Starts rules ids := by
  induction h with
  | done =>
      cases hitem
  | @starts path ids id source items h hrest ih =>
      rcases List.mem_cons.mp hitem with rfl | hitem
      · exact ⟨id, source, rfl, h, .listed List.mem_cons_self⟩
      · exact (ih hitem).cons id
  | @replaced path ids held id inner items h hnew hinner hrest ihinner ihrest =>
      rcases List.mem_append.mp hitem with hitem | hitem
      · exact (ihinner hitem).trans fun i hi => .held (.listed List.mem_cons_self) h hi
      · exact (ihrest hitem).cons id
  | cut h hseen hrest ih =>
      exact (ih hitem).cons _
  | nothing hopening hheld hrest ih =>
      exact (ih hitem).cons _

/-- Whatever can be reached is exhausted behind a walk. -/
theorem WalksAlong.exhausted_of_reaches
    {found met' : List RuleId}
    {items : List PatternItem}
    (h : WalksAlong rules [] [] ids found met' [] items)
    {id : RuleId}
    (hid : rules.Reaches ids id) :
    Exhausted rules met' (found.map PatternLabel.rule) id := by
  induction hid with
  | listed hid =>
      exact h.exhausted _ hid
  | held hgroup hheld hid ih =>
      exact h.explored _ (ih.held _ hheld) List.not_mem_nil _ hheld _ hid

/-- What can be reached is collected. -/
theorem Collects.mem_of_starts
    {items : List PatternItem}
    (h : Collects rules [] ids items)
    (hitem : item.Starts rules ids) :
    item ∈ items := by
  obtain ⟨id, source, rfl, hopening, hreach⟩ := hitem
  obtain ⟨found, met', hwalk, -⟩ := exists_walks rules [] ids
  have halong : WalksAlong rules [] [] ids found met' [] items :=
    hwalk.walksAlong (List.Subset.refl []) (by simp [Explored]) h
  have hfound := (halong.exhausted_of_reaches hreach).opening source hopening
  have hlabel : PatternLabel.rule id ∈ items.map PatternItem.label := by
    rw [← List.mem_eraseDups, ← List.nil_append (items.map PatternItem.label), halong.first,
      List.mem_eraseDups]
    exact hfound
  obtain ⟨other, hother, hsame⟩ := List.mem_map.mp hlabel
  obtain ⟨id', source', rfl, hopening', -⟩ := h.starts_of_mem hother
  obtain rfl := PatternLabel.rule.inj hsame
  obtain rfl := Option.some.inj (hopening'.symm.trans hopening)
  exact hother

theorem flattened_flattenAll
    (rules : RuleTable)
    (ids : List RuleId) :
    Flattened rules ids (flattenAll rules ids) := by
  have hcollects : Collects rules [] ids (flattenAll rules ids) := collects_iff.mpr rfl
  obtain ⟨found, met', hwalk, -⟩ := exists_walks rules [] ids
  refine ⟨fun other => collects_iff, fun item => ⟨hcollects.starts_of_mem, hcollects.mem_of_starts⟩,
    ⟨found, met', hwalk⟩, fun found' met₁ hwalk' => ?_⟩
  have halong : WalksAlong rules [] [] ids found' met₁ [] (flattenAll rules ids) :=
    hwalk'.walksAlong (List.Subset.refl []) (by simp [Explored]) hcollects
  exact halong.first

/-- No end pattern is collected from other rules. -/
theorem Flattened.count_closing
    {items : List PatternItem}
    (h : Flattened rules ids items) :
    (items.map PatternItem.label).count .closing = 0 := by
  rw [List.count_eq_zero]
  intro hmem
  obtain ⟨item, hitem, hlabel⟩ := List.mem_map.mp hmem
  obtain ⟨id, source, rfl, -, -⟩ := (h.mem_iff item).mp hitem
  cases hlabel

/-- The patterns of a rule that is no region are those that start the rules it offers. -/
theorem ruleItems_of_not_region
    {id : RuleId}
    (h : ∀ r, rules[id]? ≠ some (.region r))
    (resolved : Option String) :
    ruleItems rules id resolved = flattenAll rules (rules.offered id) := by
  cases hrule : rules[id]? with
  | none =>
      simp [ruleItems, RuleTable.offered, hrule, flattenAll]
  | some rule =>
      cases rule with
      | region r => exact absurd hrule (h r)
      | _ => simp [ruleItems, RuleTable.offered, hrule, flattenAll]

end Flattened

/-- Flattening some rules loses nothing and keeps the order of preference. The patterns of a rule
are those of the rules it offers; a region has its end pattern besides, once, first or last. -/
theorem ruleItems_flattened
    (rules : RuleTable) :
    (∀ ids, Flattened rules ids (flattenAll rules ids)) ∧
      ∀ id resolved, ∃ inner, Flattened rules (rules.offered id) inner ∧
        (∀ r, rules[id]? = some (.region r) →
          ruleItems rules id resolved =
              (if r.closingLast then inner ++ [r.closingItem resolved]
                else r.closingItem resolved :: inner) ∧
            ((ruleItems rules id resolved).map PatternItem.label).count .closing = 1) ∧
        ((∀ r, rules[id]? ≠ some (.region r)) →
          ruleItems rules id resolved = inner ∧
            ((ruleItems rules id resolved).map PatternItem.label).count .closing = 0) := by
  refine ⟨flattened_flattenAll rules, fun id resolved => ?_⟩
  have hinner := flattened_flattenAll rules (rules.offered id)
  have hnone := hinner.count_closing
  refine ⟨_, hinner, fun r hrule => ?_, fun hother => ?_⟩
  · have hitems : ruleItems rules id resolved =
        (if r.closingLast then flattenAll rules (rules.offered id) ++ [r.closingItem resolved]
          else r.closingItem resolved :: flattenAll rules (rules.offered id)) := by
      simp [ruleItems, RuleTable.offered, hrule, RegionRule.closingItem]
    refine ⟨hitems, ?_⟩
    rw [hitems]
    split <;> simp [hnone, RegionRule.closingItem]
  · have hitems := ruleItems_of_not_region hother resolved
    refine ⟨hitems, ?_⟩
    rw [hitems]
    exact hnone

end LineScopes
