import LineScopes.Proofs.Rule.Twins
import Mathlib.Logic.Equiv.Nat

/-!
# The order of root patterns

The numbers of a table depend on the order of the root patterns. If names are unambiguous and no
dead target leads back to itself, what includes mean does not. Both conditions can be checked on a
list of the targets in reach.

**Main definitions.** `CompileRequest.rearrange`, `Grammar.rootSources`, `Sources.inside`.

**Main statements.** `Grammar.rootSources_rearrange`: in every order all includes mean what the
repositories along their chains say, and each root pattern contributes the same.
`Grammar.rootSources_of_helper`: a helper shared by rules that have different repositories means
what the first of them says.
-/

namespace LineScopes

open Relation (ReflTransGen TransGen)

section Places

theorem nodup_placedPatterns
    (a : RuleAddress)
    (patterns : List RawRule) :
    (placedPatterns a patterns).Nodup := by
  have haddresses : (placedPatterns a patterns).map PlacedRule.address =
      (List.range patterns.length).map fun i => a.step (.pattern i) := by
    apply List.ext_getElem <;> simp [placedPatterns]
  refine List.Nodup.of_map PlacedRule.address ?_
  rw [haddresses]
  refine List.Nodup.map (fun i j heq => ?_) List.nodup_range
  simpa [RuleAddress.step] using heq

/-- The root patterns of the rearranged grammar are the same ones at their new places. -/
theorem Rearrangement.items_perm
    (m : Rearrangement) :
    (Target.root m.after).items.Perm ((Target.root m.before).items.map m.placed) := by
  have hinjective : ∀ {p q : PlacedRule}, m.placed p = m.placed q → p = q := by
    intro p q heq
    obtain ⟨haddress, hrule⟩ := PlacedRule.mk.inj heq
    have hsame := congrArg m.symm.address haddress
    rw [m.symm_address, m.symm_address] at hsame
    cases p
    cases q
    simp_all
  have hnodup := nodup_placedPatterns ⟨m.after.scopeName, []⟩ m.after.patterns
  have hnodup' := nodup_placedPatterns ⟨m.before.scopeName, []⟩ m.before.patterns
  refine (List.perm_ext_iff_of_nodup hnodup (hnodup'.map fun _ _ => hinjective)).mpr fun q =>
    ⟨fun hq => ?_, fun hq => ?_⟩
  · have hback := m.symm.placed_mem_items_root hq
    refine List.mem_map.mpr ⟨m.symm.placed q, hback, ?_⟩
    have hsame : m.address (m.symm.address q.address) = q.address :=
      m.symm.symm_address q.address
    simp only [Rearrangement.placed, hsame]
  · obtain ⟨p, hp, rfl⟩ := List.mem_map.mp hq
    exact m.placed_mem_items_root hp

/-- A permutation of the numbers from one on. -/
def succPlaces (σ : Equiv.Perm Nat) : Equiv.Perm Nat where
  toFun
    | 0 => 0
    | i + 1 => σ i + 1
  invFun
    | 0 => 0
    | i + 1 => σ.symm i + 1
  left_inv i := by cases i <;> simp
  right_inv i := by cases i <;> simp

/-- Every permutation of a list moves each element to some place. -/
theorem exists_places
    {α : Type}
    {l l' : List α}
    (h : l.Perm l') :
    ∃ σ : Equiv.Perm Nat, ∀ i, l'[σ i]? = l[i]? := by
  induction h with
  | nil =>
      exact ⟨Equiv.refl _, fun i => rfl⟩
  | cons x _ ih =>
      obtain ⟨σ, hσ⟩ := ih
      refine ⟨succPlaces σ, fun i => ?_⟩
      cases i with
      | zero =>
          rfl
      | succ i =>
          exact hσ i
  | swap x y rest =>
      refine ⟨Equiv.swap 0 1, fun i => ?_⟩
      match i with
      | 0 =>
          simp
      | 1 =>
          simp
      | i + 2 =>
          rw [Equiv.swap_apply_of_ne_of_ne (by omega) (by omega)]
          rfl
  | trans _ _ ih ih' =>
      obtain ⟨σ, hσ⟩ := ih
      obtain ⟨τ, hτ⟩ := ih'
      exact ⟨σ.trans τ, fun i => (hτ (σ i)).trans (hσ i)⟩

end Places

section Inside

namespace Sources

variable (sources : Sources)

/-- The targets that are compiled inside a target: what its patterns stand for, and its captures
with patterns. -/
def inside (t : Target) : List Target :=
  t.items.filterMap (patternTarget? sources t.scene) ++
    match t with
    | .rule s p => p.captures.flatMap fun list => (numbered list.2).filterMap fun capture =>
      if capture.2.2.patterns.isSome then
        some (.rule s ⟨p.address.step (.capture list.1 capture.2.1), capture.2.2⟩)
      else none
    | .root _ => []

variable {sources}

theorem Nests.mem_inside
    {t u : Target}
    (h : sources.Nests t u) :
    u ∈ sources.inside t := by
  cases h with
  | pattern hq hu =>
      exact List.mem_append_left _ (List.mem_filterMap.mpr ⟨_, hq, hu⟩)
  | capture hcaptures hr hpatterns =>
      refine List.mem_append_right _ (List.mem_flatMap.mpr ⟨_, hcaptures, ?_⟩)
      exact List.mem_filterMap.mpr ⟨_, hr, if_pos hpatterns⟩

variable {targets : List Target} (hroot : .root sources.base ∈ targets)
  (hclosed : ∀ t ∈ targets, ∀ u ∈ sources.inside t, u ∈ targets)
include hroot hclosed

/-- A list with the root and everything inside its members has all targets in reach. -/
theorem InReach.mem_of_closed
    {t : Target}
    (h : sources.InReach t) :
    t ∈ targets := by
  induction h with
  | refl =>
      exact hroot
  | tail _ hnests ih =>
      exact hclosed _ ih _ hnests.mem_inside

omit hroot hclosed in
/-- Everything inside the members is in a list if its places can be given. -/
theorem closed_of_places
    (places : List (List Nat))
    (h : targets.map (fun t => (sources.inside t).map some) =
      places.map fun found => found.map (targets[·]?)) :
    ∀ t ∈ targets, ∀ u ∈ sources.inside t, u ∈ targets := by
  intro t ht u hu
  have hmem := List.mem_map_of_mem (f := fun t => (sources.inside t).map some) ht
  rw [h] at hmem
  obtain ⟨found, -, heq⟩ := List.mem_map.mp hmem
  have hsome := List.mem_map_of_mem (f := some) hu
  rw [← heq] at hsome
  obtain ⟨i, -, hi⟩ := List.mem_map.mp hsome
  exact List.mem_of_getElem? hi

theorem unambiguous_of_targets
    (hagree : ∀ t ∈ targets, ∀ t' ∈ targets, t.key = t'.key →
      t.items.map (fun q => (patternTarget? sources t.scene q).map Target.key) =
        t'.items.map fun q => (patternTarget? sources t'.scene q).map Target.key) :
    sources.Unambiguous := by
  intro s s' p q name hs hs' hq hname
  obtain ⟨text, hreference, hr⟩ := Option.map_eq_some_iff.mp hname
  have hmap := hagree _ (hs.mem_of_closed hroot hclosed) _ (hs'.mem_of_closed hroot hclosed) rfl
  have hsame := List.map_inj_left.mp hmap q hq
  simpa only [patternTarget?, hreference, hr, Target.scene] using hsame

/-- No dead target leads back to itself if all of them lead nowhere. -/
theorem grounded_of_targets
    (hdead : ∀ t ∈ targets, (t.items.all fun q => (patternTarget? sources t.scene q).isSome) ∨
      (sources.inside t).isEmpty) :
    sources.Grounded := by
  intro t u ht hdead' hchain
  obtain ⟨⟨q, hq, hnone⟩, -⟩ := hdead'
  obtain ⟨v, hnests, -⟩ := TransGen.head'_iff.mp hchain
  rcases hdead t (ht.mem_of_closed hroot hclosed) with hall | hempty
  · have hsome := List.all_eq_true.mp hall q hq
    rw [hnone] at hsome
    cases hsome
  · have hmem := hnests.mem_inside
    rw [List.isEmpty_iff.mp hempty] at hmem
    cases hmem

end Sources

theorem RawGrammar.keyed_of_sites
    {g : RawGrammar}
    (h : (g.sites.map fun x => x.2.address).Nodup) :
    g.Keyed := by
  intro s s' p p' hwritten hwritten' haddress
  exact congrArg Prod.snd
    (List.inj_on_of_nodup_map h (mem_sites hwritten) (mem_sites hwritten') haddress)

end Inside

/-- The same request for a grammar with other root patterns. -/
def CompileRequest.rearrange
    (r : CompileRequest)
    (patterns : List RawRule) : CompileRequest :=
  let base := { r.sources.base with patterns }
  { r with sources := ⟨r.sources.library.insert base, base⟩ }

theorem between_rearrange
    {m : Rearrangement}
    {r : CompileRequest}
    (hbefore : m.before = r.sources.base)
    (hbase : r.sources.grammar? r.sources.base.scopeName = some r.sources.base) :
    m.Between r.sources (r.rearrange m.patterns).sources := by
  have hafter : m.after = (r.rearrange m.patterns).sources.base := by
    rw [Rearrangement.after, hbefore]
    rfl
  refine ⟨hbefore.symm, hafter.symm, by rw [hbefore, hbase], fun scope => ?_⟩
  have hlibrary : (r.rearrange m.patterns).sources.library = r.sources.library.insert m.after := by
    rw [hafter]
    rfl
  by_cases hscope : scope = m.before.scopeName
  · have hinsert : (r.sources.library.insert m.after).get? scope = some m.after := by
      rw [hscope]
      exact Library.get?_insert_self r.sources.library m.after
    have hknown : r.sources.grammar? scope = some m.before := by
      rw [hscope, hbefore, hbase]
    rw [hknown, Option.map_some, m.grammar_before]
    simp only [Sources.grammar?, hlibrary, hinsert]
  · have hinsert := Library.get?_insert_of_ne r.sources.library (g := m.after) (Ne.symm hscope)
    have hne : (r.rearrange m.patterns).sources.base.scopeName ≠ scope := by
      rw [← hafter]
      exact Ne.symm hscope
    have hne' : r.sources.base.scopeName ≠ scope := by
      rw [← hbefore]
      exact Ne.symm hscope
    simp only [Sources.grammar?, hlibrary, hinsert, hne, hne', if_false]
    cases hg : r.sources.library.get? scope with
    | none =>
        rfl
    | some g =>
        have hother : g.scopeName ≠ m.before.scopeName := by
          rw [scopeName_of_get? hg]
          exact hscope
        simp [m.grammar_of_ne hother]

namespace Grammar

/-- The root patterns of a grammar, each with what it contributes to the patterns that can match at
the root. -/
def rootSources (r : CompileRequest) : List (RawRule × List PatternSource) :=
  (Target.root r.sources.base).items.map fun q =>
    (q.rule, rootContribution r.sources (compileRules r).2 q)

theorem number?_root
    (r : CompileRequest) :
    (compileRules r).2.number? (.inr r.sources.base.scopeName) = some rootRule := by
  have hsurveys := surveys_within r.sources
  obtain ⟨-, hroot⟩ := exists_settled_root r.sources hsurveys (Or.inl rfl)
  exact (goes_compileRules r).1.numbers hroot

/-- The tables of a grammar and of its rearrangement can be compared. -/
theorem compared_rearrange
    {m : Rearrangement}
    {r : CompileRequest}
    (hbefore : m.before = r.sources.base)
    (hbase : r.sources.grammar? r.sources.base.scopeName = some r.sources.base)
    (hcons : r.sources.Consistent)
    (hgrounded : r.sources.Grounded) :
    Compared m r.sources (r.rearrange m.patterns).sources (compileRules r).2
      (compileRules (r.rearrange m.patterns)).2 := by
  have hbetween := between_rearrange hbefore hbase
  have hroot := number?_root r
  have hroot' := number?_root (r.rearrange m.patterns)
  have hscope : (r.rearrange m.patterns).sources.base.scopeName = m.before.scopeName := by
    rw [hbetween.after]
    rfl
  rw [← hbefore] at hroot
  rw [hscope] at hroot'
  exact ⟨hbetween, renders_of_inReach hcons hgrounded,
    renders_of_inReach (hbetween.consistent hcons) (hbetween.grounded hgrounded),
    (goes_compileRules _).2.1.unique, (goes_compileRules _).2.1.unique, hroot, hroot'⟩

/-- A root pattern of the one order contributes what it contributes in the other. -/
theorem rootSources_perm
    {m : Rearrangement}
    {r : CompileRequest}
    (h : Compared m r.sources (r.rearrange m.patterns).sources (compileRules r).2
      (compileRules (r.rearrange m.patterns)).2) :
    (rootSources (r.rearrange m.patterns)).Perm (rootSources r) := by
  have hperm := m.items_perm
  rw [← h.between.base, ← h.between.after] at hperm
  refine (hperm.map _).trans (List.Perm.of_eq ?_)
  rw [List.map_map]
  exact List.map_congr_left fun q hq => congrArg (q.rule, ·) (h.rootContribution_eq hq)

/-- What an include means does not depend on the order of the root patterns. If names are
unambiguous and no dead target leads back to itself, then in every order each chain of rules and
includes finds in the table what it asks for: a rule that includes a name lists the rule that the
repositories along the chain have for it, unless it is dead. At the root each pattern contributes
the same in any order. -/
theorem rootSources_rearrange
    {r : CompileRequest}
    (hbase : r.sources.grammar? r.sources.base.scopeName = some r.sources.base)
    (hkeyed : ∀ g, r.sources.Knows g → g.Keyed)
    (hnames : r.sources.Unambiguous)
    (hgrounded : r.sources.Grounded)
    {patterns : List RawRule}
    (hperm : patterns.Perm r.sources.base.patterns) :
    let r' := r.rearrange patterns
    let b := (compileRules r').2
    (∀ t, r'.sources.InReach t → b.Renders r'.sources t) ∧
      (∀ t q name found, r'.sources.InReach t → q ∈ t.items → q.RefersTo (.named name) →
        name ≠ "$base" → name ≠ "$self" → t.scene.lookup name = some found →
        ∃ id rule i, b.number? t.key = some id ∧ b.rules[id]? = some rule ∧
          b.number? (.inl found.address) = some i ∧
          (r'.sources.Dead (.rule t.scene found) ∨ i ∈ rule.patterns)) ∧
      (ruleItems b.rules rootRule none).map PatternItem.source = (rootSources r').flatMap Prod.snd ∧
      (rootSources r').Perm (rootSources r) := by
  obtain ⟨places, hplaces⟩ := exists_places hperm.symm
  let m : Rearrangement := ⟨r.sources.base, patterns, places, hplaces⟩
  have hcompared := compared_rearrange (m := m) rfl hbase (hnames.consistent hbase hkeyed) hgrounded
  refine ⟨fun t ht => hcompared.renders' ht, ?_, ?_, rootSources_perm hcompared⟩
  · intro t q name found ht hq hname hne hne' hfound
    have hu := patternTarget?_of_named (r.rearrange patterns).sources hname hne hne' hfound
    exact (hcompared.renders' ht).lists_pattern hq hu
  · rw [ruleItems_root hcompared.renders' (number?_root _), rootSources, List.flatMap_map]

/-- Two boxes in which `x` is one rule each, a tag within tags that starts over inside, and a region
for which nothing is found. -/
def boxesRequest : CompileRequest where
  sources :=
    { base :=
        { scopeName := "source"
          patterns := [
            { patterns := some [{ reference := some "#x" }]
              repository := some [("x", { matchPattern := some "a" })] },
            { patterns := some [{ reference := some "#x" }, { reference := some "#tag" }]
              repository := some [("x", { matchPattern := some "b" })] },
            { reference := some "#tag" },
            { beginPattern := some "[", endPattern := some "]"
              patterns := some [{ reference := some "#none" }] }]
          repository := some [
            ("tag", {
              beginPattern := some "<"
              endPattern := some ">"
              patterns := some [{ reference := some "#tag" }, { reference := some "$self" }] }),
            ("x", { matchPattern := some "c" })] }
      library := ⟨[]⟩ }

/-- What the root patterns of the boxes stand for, and what is inside both boxes. -/
def boxesTargets : List Target :=
  let base := boxesRequest.sources.base
  let outer := boxesRequest.sources.inside (.root base)
  .root base :: outer ++ (outer.take 2).flatMap boxesRequest.sources.inside

theorem closed_boxes :
    ∀ t ∈ boxesTargets, ∀ u ∈ boxesRequest.sources.inside t, u ∈ boxesTargets :=
  Sources.closed_of_places [[1, 2, 3, 4], [5], [6, 7], [3, 0], [], [], [], [7, 0]] rfl

/-- Each of the four patterns contributes the same if their order is reversed. -/
theorem rootSources_rearrange_boxes :
    boxesRequest.sources.Unambiguous ∧ boxesRequest.sources.Grounded ∧
      (rootSources boxesRequest).map Prod.snd =
        [[.ofPattern "a"], [.ofPattern "b", .ofPattern "<"], [.ofPattern "<"], []] ∧
      (rootSources (boxesRequest.rearrange boxesRequest.sources.base.patterns.reverse)).Perm
        (rootSources boxesRequest) := by
  have hroot : Target.root boxesRequest.sources.base ∈ boxesTargets := List.mem_cons_self
  have hnames : boxesRequest.sources.Unambiguous :=
    Sources.unambiguous_of_targets hroot closed_boxes (by decide +kernel)
  have hgrounded : boxesRequest.sources.Grounded :=
    Sources.grounded_of_targets hroot closed_boxes (by decide +kernel)
  have hkeyed : ∀ g, boxesRequest.sources.Knows g → g.Keyed := by
    rintro g (rfl | hg)
    · exact RawGrammar.keyed_of_sites (by decide +kernel)
    · cases hg
  obtain ⟨-, -, -, hperm⟩ := rootSources_rearrange (r := boxesRequest) rfl hkeyed hnames hgrounded
    (List.reverse_perm _)
  exact ⟨hnames, hgrounded, by decide +kernel, hperm⟩

/-- Two boxes in which `x` is one rule each share a helper that includes `x`. -/
def helperRequest : CompileRequest where
  sources :=
    { base :=
        { scopeName := "source"
          patterns := [
            { patterns := some [{ reference := some "#helper" }]
              repository := some [("x", { name := some "first", matchPattern := some "a" })] },
            { patterns := some [{ reference := some "#helper" }]
              repository := some [("x", { name := some "second", matchPattern := some "b" })] }]
          repository := some [("helper", { patterns := some [{ reference := some "#x" }] })] }
      library := ⟨[]⟩ }

/-- A region for which nothing is found, with a group in its captured text that includes it again.
-/
def captionRequest : CompileRequest where
  sources :=
    { base :=
        { scopeName := "source"
          patterns := [{ reference := some "#caption" }, { reference := some "#group" }]
          repository := some [
            ("caption", {
              beginPattern := some "["
              endPattern := some "]"
              beginCaptures := some [("0", { patterns := some [{ reference := some "#group" }] })]
              patterns := some [{ reference := some "#none" }] }),
            ("group", { patterns := some [{ reference := some "#caption" }] })] }
      library := ⟨[]⟩ }

/-- The region, the group, and the captured text. -/
def captionTargets : List Target :=
  let base := captionRequest.sources.base
  let outer := captionRequest.sources.inside (.root base)
  .root base :: outer ++ (outer.take 1).flatMap captionRequest.sources.inside

/-- Both conditions are needed. The helper is compiled for the first box only, and the rule `x` of
the second one is not in the table; in the other order it is the other way round. The region that
leads back to itself is left out unless the group asks for it while it waits. -/
theorem rootSources_of_helper :
    (∃ t q found, helperRequest.sources.InReach t ∧ q ∈ t.items ∧ q.RefersTo (.named "x") ∧
        t.scene.lookup "x" = some found ∧ found.rule.name = some "second" ∧
        (compileRules helperRequest).2.number? (.inl found.address) = none) ∧
      ¬ (rootSources (helperRequest.rearrange helperRequest.sources.base.patterns.reverse)).Perm
        (rootSources helperRequest) ∧
      captionRequest.sources.Unambiguous ∧
      ¬ (rootSources (captionRequest.rearrange captionRequest.sources.base.patterns.reverse)).Perm
        (rootSources captionRequest) := by
  refine ⟨?_, fun hperm => ?_, ?_, fun hperm => ?_⟩
  · let s : Surroundings := .root helperRequest.sources.base
    let box : PlacedRule := ⟨⟨"source", [.pattern 1]⟩, helperRequest.sources.base.patterns[1]⟩
    let helper : PlacedRule :=
      ⟨⟨"source", [.named "helper"]⟩, { patterns := some [{ reference := some "#x" }] }⟩
    have hbox : helperRequest.sources.Nests (.root helperRequest.sources.base) (.rule s box) :=
      .pattern (List.mem_of_getElem? (i := 1) rfl) rfl
    have hhelper : helperRequest.sources.Nests (.rule s box) (.rule (s.within box) helper) :=
      .pattern (List.mem_of_getElem? (i := 0) rfl) rfl
    exact ⟨.rule (s.within box) helper, _, _, .tail (.single hbox) hhelper, List.mem_cons_self,
      rfl, rfl, rfl, by decide +kernel⟩
  · have hcontributions := hperm.map Prod.snd
    revert hcontributions
    decide +kernel
  · have hclosed : ∀ t ∈ captionTargets, ∀ u ∈ captionRequest.sources.inside t,
        u ∈ captionTargets :=
      Sources.closed_of_places [[1, 2], [3], [1], [2]] rfl
    have hroot : Target.root captionRequest.sources.base ∈ captionTargets := List.mem_cons_self
    exact Sources.unambiguous_of_targets hroot hclosed (by decide +kernel)
  · have hcontributions := hperm.map Prod.snd
    revert hcontributions
    decide +kernel

end Grammar

end LineScopes
