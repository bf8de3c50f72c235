import LineScopes.Proofs.Rule.Flattening
import LineScopes.Proofs.Rule.Rearranged
import Mathlib.Data.List.Forall2

/-!
# What root patterns contribute

At the root of a grammar the patterns of all its root patterns can match. When the root patterns are
put in another order, the table gets other numbers. Rules that correspond hold rules that
correspond, so each root pattern contributes what it contributed before.

**Main definitions.** `Compared`, `Twins`, `rootContribution`.

**Main statements.** `Compared.flatten_eq`: twins stand for the same patterns. `ruleItems_root`: the
patterns at the root are what the root patterns contribute. `Compared.rootContribution_eq`: a root
pattern contributes the same at its new place.
-/

namespace LineScopes

open List (Forall₂)

theorem flatMap_eq_of_forall₂
    {α β γ : Type}
    {R : α → β → Prop}
    {l : List α}
    {l' : List β}
    (h : Forall₂ R l l')
    {f : α → List γ}
    {f' : β → List γ}
    (hf : ∀ {a b}, R a b → f a = f' b) :
    l.flatMap f = l'.flatMap f' := by
  induction h with
  | nil =>
      rfl
  | cons hab _ ih =>
      rw [List.flatMap_cons, List.flatMap_cons, hf hab, ih]

/-- The pattern that starts the rule of a target. -/
def Target.opening? : Target → Option PatternSource
  | .root _ => none
  | .rule _ p =>
    match p.rule.kind with
    | .simple pattern => some (.ofPattern pattern)
    | .region opening _ => some (.ofPattern opening)
    | .lines opening _ => some (.ofPattern opening)
    | .group _ => none

theorem Rearrangement.opening?_target
    (m : Rearrangement)
    (t : Target) :
    (m.target t).opening? = t.opening? := by
  cases t <;> rfl

section Bodies

variable {sources : Sources} {tested : Target → Bool → Prop} {b : Build} {t : Target} {r : Rule}

theorem Body.opening?_eq
    (h : Body sources tested b t r) :
    r.opening? = t.opening? := by
  cases h with
  | root =>
      rfl
  | simple hkind =>
      simp [Rule.opening?, Target.opening?, hkind]
  | region hkind =>
      simp [Rule.opening?, Target.opening?, hkind]
  | lines hkind =>
      simp [Rule.opening?, Target.opening?, hkind]
  | held hkind =>
      simp [Rule.opening?, Target.opening?, hkind]
  | unresolved hkind =>
      simp [Rule.opening?, Target.opening?, hkind]
  | group hkind =>
      simp [Rule.opening?, Target.opening?, hkind]

/-- A rule that stands for what it includes holds its number. -/
theorem Body.patterns_of_held
    {s : Surroundings}
    {p : PlacedRule}
    {text : String}
    (hkind : p.rule.kind = .group (some text))
    (h : Body sources tested b (.rule s p) r) :
    (patternTarget? sources (s.within p) p = none ∧ r.patterns = []) ∨
      ∃ u id, patternTarget? sources (s.within p) p = some u ∧ b.number? u.key = some id ∧
        r.patterns = [id] := by
  cases h with
  | held _ hu hid =>
      exact Or.inr ⟨_, _, hu, hid, rfl⟩
  | unresolved _ hu =>
      exact Or.inl ⟨hu, rfl⟩
  | simple hkind' =>
      cases hkind.symm.trans hkind'
  | region hkind' =>
      cases hkind.symm.trans hkind'
  | lines hkind' =>
      cases hkind.symm.trans hkind'
  | group hkind' =>
      cases hkind.symm.trans hkind'

/-- All other rules hold what is listed for their patterns. -/
theorem Body.lists_of_not_held
    {s : Surroundings}
    {p : PlacedRule}
    (hkind : ∀ text, p.rule.kind ≠ .group (some text))
    (h : Body sources tested b (.rule s p) r) :
    Lists sources tested b (s.within p) p.items r.patterns r.missing := by
  cases h with
  | held hkind' =>
      exact absurd hkind' (hkind _)
  | unresolved hkind' =>
      exact absurd hkind' (hkind _)
  | simple hkind' =>
      rw [items_of_simple hkind']
      exact .nil
  | region _ hpatterns =>
      exact hpatterns
  | lines _ hpatterns =>
      exact hpatterns
  | group _ hpatterns =>
      exact hpatterns

end Bodies

/-- Two tables, of sources whose root patterns are rearranged, that say what all chains ask for. -/
structure Compared (m : Rearrangement) (A B : Sources) (b c : Build) : Prop where
  between : m.Between A B
  renders : ∀ {t}, A.InReach t → b.Renders A t
  renders' : ∀ {t}, B.InReach t → c.Renders B t
  unique : ∀ {key key' id}, b.number? key = some id → b.number? key' = some id → key = key'
  unique' : ∀ {key key' id}, c.number? key = some id → c.number? key' = some id → key = key'
  root : b.number? (.inr m.before.scopeName) = some rootRule
  root' : c.number? (.inr m.before.scopeName) = some rootRule

/-- Numbers that a target has in the one table and the rearranged target in the other. -/
def Twins
    (m : Rearrangement)
    (A : Sources)
    (b c : Build)
    (id id' : RuleId) : Prop :=
  ∃ t, A.InReach t ∧ b.number? t.key = some id ∧ c.number? (m.target t).key = some id'

namespace Compared

variable {m : Rearrangement} {A B : Sources} {b c : Build} (h : Compared m A B b c)
include h

/-- What has a number in the one table has a twin in the other. -/
theorem exists_twin
    {t : Target}
    (ht : A.InReach t)
    {id : RuleId}
    (hid : b.number? t.key = some id) :
    ∃ id', c.number? (m.target t).key = some id' ∧ Twins m A b c id id' := by
  obtain ⟨id', -, hid', -⟩ := h.renders' (h.between.inReach ht)
  exact ⟨id', hid', t, ht, hid, hid'⟩

theorem eq_iff_of_twins
    {i j i' j' : RuleId}
    (hi : Twins m A b c i i')
    (hj : Twins m A b c j j') :
    i = j ↔ i' = j' := by
  obtain ⟨t, ht, hid, hid'⟩ := hi
  obtain ⟨u, hu, hjd, hjd'⟩ := hj
  constructor
  · rintro rfl
    have hkey : (m.target t).key = (m.target u).key := by
      rw [m.key_target, m.key_target, h.unique hid hjd]
    exact Option.some.inj (hid'.symm.trans (hkey ▸ hjd'))
  · rintro rfl
    have hkey := h.unique' hid' hjd'
    rw [m.key_target, m.key_target] at hkey
    exact Option.some.inj (hid.symm.trans (m.key_injective hkey ▸ hjd))

theorem mem_iff_of_twins
    {i i' : RuleId}
    (hi : Twins m A b c i i')
    {path path' : List RuleId}
    (hpath : Forall₂ (Twins m A b c) path path') :
    i ∈ path ↔ i' ∈ path' := by
  induction hpath with
  | nil =>
      simp
  | cons hj _ ih =>
      rw [List.mem_cons, List.mem_cons, ih, h.eq_iff_of_twins hi hj]

/-- What is listed for some patterns has twins listed for them afterwards. -/
theorem lists_twins
    {t : Target}
    (ht : A.InReach t)
    {items : List PlacedRule}
    (hitems : ∀ q ∈ items, q ∈ t.items)
    {ids ids' : List RuleId}
    {missing missing' : Bool}
    (hlists : ListsLive A b t.scene items ids missing)
    (hlists' : ListsLive B c (m.target t).scene (items.map m.placed) ids' missing') :
    Forall₂ (Twins m A b c) ids ids' := by
  have hbetween := h.between
  have hsome : ∀ {q u}, patternTarget? A t.scene q = some u →
      patternTarget? B (m.target t).scene (m.placed q) = some (m.target u) := by
    intro q u hu
    rw [hbetween.item_eq ht.within, hu]
    rfl
  induction hlists generalizing ids' missing' with
  | nil =>
      cases hlists'
      exact .nil
  | @missing q rest ids _ hq _ ih =>
      have hrest := fun q hq => hitems q (List.mem_cons_of_mem _ hq)
      have hnone := (hbetween.eq_none_iff ht q).mpr hq
      cases hlists' with
      | missing _ hrest' =>
          exact ih hrest hrest'
      | left hq' =>
          cases hnone.symm.trans hq'
      | listed hq' =>
          cases hnone.symm.trans hq'
  | @left q u id rest ids _ hq hid htested _ ih =>
      have hrest := fun q hq => hitems q (List.mem_cons_of_mem _ hq)
      have hu := ht.tail (.pattern (hitems q List.mem_cons_self) hq)
      cases hlists' with
      | missing hq' =>
          cases (hsome hq).symm.trans hq'
      | left _ _ _ hrest' =>
          exact ih hrest hrest'
      | listed hq' _ htested' =>
          obtain rfl := Option.some.inj ((hsome hq).symm.trans hq')
          have hdead := (hbetween.dead_iff hu).mpr (htested.mp rfl)
          cases htested'.mpr hdead
  | @listed q u id rest ids _ hq hid htested _ ih =>
      have hrest := fun q hq => hitems q (List.mem_cons_of_mem _ hq)
      have hu := ht.tail (.pattern (hitems q List.mem_cons_self) hq)
      cases hlists' with
      | missing hq' =>
          cases (hsome hq).symm.trans hq'
      | left hq' _ htested' =>
          obtain rfl := Option.some.inj ((hsome hq).symm.trans hq')
          have hdead := (hbetween.dead_iff hu).mp (htested'.mp rfl)
          cases htested.mpr hdead
      | listed hq' hid' _ hrest' =>
          obtain rfl := Option.some.inj ((hsome hq).symm.trans hq')
          exact .cons ⟨u, hu, hid, hid'⟩ (ih hrest hrest')

/-- A rule holds the twins of what it held before, the root of the rearranged grammar apart. -/
theorem patterns_twins
    {t : Target}
    (ht : A.InReach t)
    (hroot : t ≠ .root m.before)
    {r r' : Rule}
    (hr : LiveBody A b t r)
    (hr' : LiveBody B c (m.target t) r') :
    Forall₂ (Twins m A b c) r.patterns r'.patterns := by
  cases t with
  | root g =>
      have hscope : g.scopeName ≠ m.before.scopeName := fun hscope =>
        hroot (congrArg Target.root (h.between.tells ht.within hscope))
      have hitems : (m.target (.root g)).items = (Target.root g).items.map m.placed := by
        rw [Rearrangement.target, m.grammar_of_ne hscope]
        exact ((List.map_congr_left fun q hq => m.placed_of_mem_items_root hscope hq).trans
          (List.map_id _)).symm
      cases hr with
      | root hlists =>
          cases hr' with
          | root hlists' =>
              exact h.lists_twins (t := .root g) ht (fun q hq => hq) hlists (hitems ▸ hlists')
  | rule s p =>
      have hitems : (m.placed p).items = p.items.map m.placed :=
        m.items_placed ht.within.steps_ne_nil
      have hsome := h.between.item_eq ht.within p
      by_cases hheld : ∃ text, p.rule.kind = .group (some text)
      · obtain ⟨text, hkind⟩ := hheld
        have hkind' : (m.placed p).rule.kind = .group (some text) := hkind
        have hitem : p ∈ (Target.rule s p).items := mem_items_of_held hkind
        simp only [Target.scene, Rearrangement.target] at hsome
        rcases hr.patterns_of_held hkind with ⟨hnone, hpatterns⟩ | ⟨u, id, hu, hid, hpatterns⟩
        · rcases hr'.patterns_of_held hkind' with ⟨-, hpatterns'⟩ | ⟨u', id', hu', -⟩
          · rw [hpatterns, hpatterns']
            exact .nil
          · rw [hnone] at hsome
            cases hsome.symm.trans hu'
        · rw [hu] at hsome
          rcases hr'.patterns_of_held hkind' with ⟨hnone, -⟩ | ⟨u', id', hu', hid', hpatterns'⟩
          · cases hsome.symm.trans hnone
          · obtain rfl := Option.some.inj (hsome.symm.trans hu')
            rw [hpatterns, hpatterns']
            exact .cons ⟨u, ht.tail (.pattern hitem hu), hid, hid'⟩ .nil
      · have hkind : ∀ text, p.rule.kind ≠ .group (some text) := fun text h => hheld ⟨text, h⟩
        have hlists := hr.lists_of_not_held hkind
        have hlists' := Body.lists_of_not_held (p := m.placed p) hkind hr'
        rw [hitems] at hlists'
        exact h.lists_twins ht (fun q hq => hq) hlists hlists'

theorem exists_rules
    {i i' : RuleId}
    (hi : Twins m A b c i i') :
    ∃ t r r', A.InReach t ∧ b.number? t.key = some i ∧ b.rules[i]? = some r ∧
      c.rules[i']? = some r' ∧ LiveBody A b t r ∧ LiveBody B c (m.target t) r' := by
  obtain ⟨t, ht, hid, hid'⟩ := hi
  obtain ⟨_, r, heq, hr, hbody⟩ := h.renders ht
  obtain ⟨_, r', heq', hr', hbody'⟩ := h.renders' (h.between.inReach ht)
  obtain rfl := Option.some.inj (hid.symm.trans heq)
  obtain rfl := Option.some.inj (hid'.symm.trans heq')
  exact ⟨t, r, r', ht, hid, hr, hr', hbody, hbody'⟩

/-- Twins stand for the same patterns, if the root has been replaced already. -/
theorem flatten_eq
    (bound : Nat)
    {path path' : List RuleId}
    (hpath : Forall₂ (Twins m A b c) path path')
    (hroot : rootRule ∈ path)
    {i i' : RuleId}
    (hi : Twins m A b c i i') :
    (flatten b.rules bound path i).map PatternItem.source =
      (flatten c.rules bound path' i').map PatternItem.source := by
  induction bound generalizing path path' i i' with
  | zero =>
      obtain ⟨t, r, r', -, -, hr, hr', hbody, hbody'⟩ := h.exists_rules hi
      have hopening' := hbody'.opening?_eq.trans (m.opening?_target t)
      rw [← hbody.opening?_eq] at hopening'
      cases hopening : r.opening? with
      | some source =>
          rw [flatten_of_opening hr hopening, flatten_of_opening hr' (hopening'.trans hopening)]
          rfl
      | none =>
          rw [flatten_zero hr hopening, flatten_zero hr' (hopening'.trans hopening)]
  | succ bound ih =>
      obtain ⟨t, r, r', ht, hid, hr, hr', hbody, hbody'⟩ := h.exists_rules hi
      have hopening' := hbody'.opening?_eq.trans (m.opening?_target t)
      rw [← hbody.opening?_eq] at hopening'
      cases hopening : r.opening? with
      | some source =>
          rw [flatten_of_opening hr hopening, flatten_of_opening hr' (hopening'.trans hopening)]
          rfl
      | none =>
          rw [hopening] at hopening'
          by_cases hseen : i ∈ path
          · have hseen' := (h.mem_iff_of_twins hi hpath).mp hseen
            rw [flatten_of_seen hr hopening hseen, flatten_of_seen hr' hopening' hseen']
          · have hseen' := fun hmem => hseen ((h.mem_iff_of_twins hi hpath).mpr hmem)
            have hne : t ≠ .root m.before := by
              rintro rfl
              exact hseen (Option.some.inj (h.root.symm.trans hid) ▸ hroot)
            have htwins := h.patterns_twins ht hne hbody hbody'
            rw [flatten_of_new hr hopening hseen, flatten_of_new hr' hopening' hseen',
              List.map_flatMap, List.map_flatMap]
            exact flatMap_eq_of_forall₂ htwins fun hj =>
              ih (.cons hi hpath) (List.mem_cons_of_mem _ hroot) hj

end Compared

section Contributions

/-- What a root pattern contributes to the patterns that can match at the root. -/
def rootContribution
    (sources : Sources)
    (b : Build)
    (q : PlacedRule) : List PatternSource :=
  match (patternTarget? sources (.root sources.base) q).bind b.idOf? with
  | some id =>
    if b.isInert id then []
    else (flatten b.rules b.rules.size [rootRule] id).map PatternItem.source
  | none => []

variable {sources : Sources} {b : Build}

theorem rootContribution_of_none
    {q : PlacedRule}
    (hq : patternTarget? sources (.root sources.base) q = none) :
    rootContribution sources b q = [] := by
  simp [rootContribution, hq]

theorem rootContribution_of_some
    {q : PlacedRule}
    {u : Target}
    (hq : patternTarget? sources (.root sources.base) q = some u)
    {id : RuleId}
    (hid : b.number? u.key = some id) :
    rootContribution sources b q =
      if b.isInert id then []
      else (flatten b.rules b.rules.size [rootRule] id).map PatternItem.source := by
  simp [rootContribution, hq, b.idOf?_eq, hid]

theorem Build.Renders.lt_size
    {t : Target}
    (h : b.Renders sources t)
    {id : RuleId}
    (hid : b.number? t.key = some id) :
    id < b.rules.size := by
  obtain ⟨_, r, heq, hr, -⟩ := h
  obtain rfl := Option.some.inj (hid.symm.trans heq)
  exact (Array.getElem?_eq_some_iff.mp hr).1

/-- At the root more room than there are rules makes no difference. -/
theorem flatten_root_eq
    (hsize : rootRule < b.rules.size)
    {bound : Nat}
    (hle : b.rules.size ≤ bound + 1)
    (id : RuleId) :
    flatten b.rules bound [rootRule] id = flatten b.rules b.rules.size [rootRule] id := by
  have hnodup := List.nodup_singleton rootRule
  have hlt : ∀ i ∈ [rootRule], i < b.rules.size := by
    simpa using hsize
  rcases Nat.le_total bound b.rules.size with hbound | hbound
  · exact flatten_eq_of_le hbound hnodup hlt (by simpa using hle) id
  · exact (flatten_eq_of_le hbound hnodup hlt (Nat.le_add_right _ _) id).symm

/-- A place is inert if its target is dead. -/
theorem Build.Renders.isInert_iff
    {t : Target}
    (h : b.Renders sources t)
    {id : RuleId}
    (hid : b.number? t.key = some id) :
    b.isInert id = true ↔ sources.Dead t := by
  obtain ⟨_, r, heq, hr, hbody⟩ := h
  obtain rfl := Option.some.inj (hid.symm.trans heq)
  rw [← hbody.isInert_iff]
  simp [Build.isInert, hr]

/-- What a pattern stands for is listed, unless it is dead. -/
theorem Build.Renders.lists_pattern
    {t : Target}
    (h : b.Renders sources t)
    {q : PlacedRule}
    (hq : q ∈ t.items)
    {u : Target}
    (hu : patternTarget? sources t.scene q = some u) :
    ∃ id r i, b.number? t.key = some id ∧ b.rules[id]? = some r ∧ b.number? u.key = some i ∧
      (sources.Dead u ∨ i ∈ r.patterns) := by
  obtain ⟨id, r, hid, hr, hbody⟩ := h
  obtain ⟨i, hi, hlisted⟩ := hbody.exists_listed hq hu
  exact ⟨id, r, i, hid, hr, hi, hlisted.imp_left fun htested => htested.mp rfl⟩

theorem patternTarget?_of_named
    (sources : Sources)
    {s : Surroundings}
    {q : PlacedRule}
    {name : String}
    (hname : q.RefersTo (.named name))
    (hbase : name ≠ "$base")
    (hself : name ≠ "$self")
    {found : PlacedRule}
    (hfound : s.lookup name = some found) :
    patternTarget? sources s q = some (.rule s found) := by
  obtain ⟨text, hreference, hr⟩ := Option.map_eq_some_iff.mp hname
  simp [patternTarget?, hreference, hr, targetOf?, hfound]

theorem flatMap_rootContribution
    (hrenders : ∀ {t}, sources.InReach t → b.Renders sources t)
    {items : List PlacedRule}
    (hitems : ∀ q ∈ items, q ∈ (Target.root sources.base).items)
    {ids : List RuleId}
    {m : Bool}
    (h : ListsLive sources b (.root sources.base) items ids m) :
    items.flatMap (rootContribution sources b) =
      (ids.flatMap (flatten b.rules b.rules.size [rootRule])).map PatternItem.source := by
  have hinert : ∀ {q u id}, q ∈ (Target.root sources.base).items →
      patternTarget? sources (.root sources.base) q = some u → b.number? u.key = some id →
      (b.isInert id = true ↔ sources.Dead u) := by
    intro q u id hq hu hid
    have hreach : sources.InReach (.root sources.base) := .refl
    exact (hrenders (hreach.tail (.pattern hq hu))).isInert_iff hid
  induction h with
  | nil =>
      rfl
  | missing hq _ ih =>
      rw [List.flatMap_cons, rootContribution_of_none hq, List.nil_append]
      exact ih fun q hq => hitems q (List.mem_cons_of_mem _ hq)
  | left hq hid htested _ ih =>
      have hdead := (hinert (hitems _ List.mem_cons_self) hq hid).mpr (htested.mp rfl)
      rw [List.flatMap_cons, rootContribution_of_some hq hid, if_pos hdead, List.nil_append]
      exact ih fun q hq => hitems q (List.mem_cons_of_mem _ hq)
  | listed hq hid htested _ ih =>
      have hlive := fun hdead =>
        Bool.false_ne_true (htested.mpr ((hinert (hitems _ List.mem_cons_self) hq hid).mp hdead))
      rw [List.flatMap_cons, rootContribution_of_some hq hid, if_neg hlive, List.flatMap_cons,
        List.map_append, ih fun q hq => hitems q (List.mem_cons_of_mem _ hq)]

/-- The patterns at the root are what the root patterns contribute, one after the other. -/
theorem ruleItems_root
    (hrenders : ∀ {t}, sources.InReach t → b.Renders sources t)
    (hroot : b.number? (.inr sources.base.scopeName) = some rootRule) :
    (ruleItems b.rules rootRule none).map PatternItem.source =
      (Target.root sources.base).items.flatMap (rootContribution sources b) := by
  have hreach : sources.InReach (.root sources.base) := .refl
  obtain ⟨_, r, heq, hr, hbody⟩ := hrenders hreach
  obtain rfl := Option.some.inj (hroot.symm.trans heq)
  have hsize := (Array.getElem?_eq_some_iff.mp hr).1
  obtain ⟨n, hn⟩ : ∃ n, b.rules.size = n + 1 := ⟨b.rules.size - 1, by omega⟩
  have hmore := flatten_root_eq hsize (Nat.le_of_eq hn)
  cases hbody with
  | @root _ ids m hlists =>
      rw [flatMap_rootContribution hrenders (fun q hq => hq) hlists]
      have hflatten := flatten_of_new hr rfl List.not_mem_nil n
      rw [← hn, funext hmore] at hflatten
      simp only [ruleItems, hr]
      exact congrArg _ hflatten

end Contributions

namespace Compared

variable {m : Rearrangement} {A B : Sources} {b c : Build} (h : Compared m A B b c)
include h

theorem twins_root :
    Twins m A b c rootRule rootRule := by
  refine ⟨.root A.base, .refl, ?_, ?_⟩
  · rw [h.between.base]
    exact h.root
  · rw [h.between.base, Rearrangement.target, m.grammar_before]
    exact h.root'

/-- A root pattern contributes the same at its new place. -/
theorem rootContribution_eq
    {q : PlacedRule}
    (hq : q ∈ (Target.root A.base).items) :
    rootContribution B c (m.placed q) = rootContribution A b q := by
  have hreach : A.InReach (.root A.base) := .refl
  have hscene := h.between.item_eq hreach.within q
  have hroot : m.target (.root A.base) = .root B.base := by
    rw [Rearrangement.target, h.between.base, m.grammar_before, h.between.after]
  rw [hroot] at hscene
  simp only [Target.scene] at hscene
  cases hu : patternTarget? A (.root A.base) q with
  | none =>
      rw [hu] at hscene
      rw [rootContribution_of_none hu, rootContribution_of_none hscene]
  | some u =>
      rw [hu] at hscene
      have hureach := hreach.tail (.pattern hq hu)
      obtain ⟨id, -, hid, -⟩ := h.renders hureach
      obtain ⟨id', hid', htwins⟩ := h.exists_twin hureach hid
      have hinert : b.isInert id = c.isInert id' := by
        rw [Bool.eq_iff_iff, (h.renders hureach).isInert_iff hid,
          (h.renders' (h.between.inReach hureach)).isInert_iff hid', h.between.dead_iff hureach]
      rw [rootContribution_of_some hu hid, rootContribution_of_some hscene hid', hinert]
      -- the tables may differ in size, so there is room for both
      let bound := max b.rules.size c.rules.size
      have hsize : rootRule < b.rules.size := (h.renders hreach).lt_size (by
        rw [h.between.base]
        exact h.root)
      have hsize' : rootRule < c.rules.size := (h.renders' (t := .root B.base) .refl).lt_size (by
        rw [h.between.after]
        exact h.root')
      have hpath := Forall₂.cons h.twins_root .nil
      have hsame := h.flatten_eq bound hpath List.mem_cons_self htwins
      rw [flatten_root_eq hsize (by omega), flatten_root_eq hsize' (by omega)] at hsame
      rw [hsame]

end Compared

end LineScopes
