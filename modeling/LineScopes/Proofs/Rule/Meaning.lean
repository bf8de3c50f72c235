import LineScopes.Proofs.Rule.Closed

/-!
# What includes mean in a compiled table

Chains of rules and includes lead from the root patterns to a rule, and each chain brings its own
repositories into force. A rule is compiled once, for the chain that leads to it first. If every
chain finds the same under the names that the rule includes, its place says what any of them asks
for.

**Main definitions.** `Sources.InReach`, `Sources.Dead`, `Sources.Unambiguous`, `Sources.Grounded`,
`Target.Agrees`, `Build.Renders`.

**Main statements.** `Body.isInert_iff`: a body is inert if its target is dead. `Body.transfer`: a
body for one chain is a body for any other one. `Grammar.renders_of_inReach`: every place says what
all chains to it ask for.
-/

namespace LineScopes

open Relation (ReflTransGen TransGen)

namespace Sources

/-- A chain of rules and includes leads from the root patterns to a target. -/
def InReach
    (sources : Sources)
    (t : Target) : Prop :=
  ReflTransGen sources.Nests (.root sources.base) t

/-- Some pattern of a target stands for nothing, and all others for dead targets. -/
inductive Dead (sources : Sources) : Target → Prop
  | intro {t : Target} (hmissing : ∃ q ∈ t.items, patternTarget? sources t.scene q = none)
    (hrest : ∀ q ∈ t.items, ∀ u, patternTarget? sources t.scene q = some u → sources.Dead u) :
    sources.Dead t

/-- Whatever chains lead to a rule, a name that it includes refers to the same. -/
def Unambiguous (sources : Sources) : Prop :=
  ∀ ⦃s s' : Surroundings⦄ ⦃p q : PlacedRule⦄ ⦃name : String⦄, sources.InReach (.rule s p) →
    sources.InReach (.rule s' p) → q ∈ p.items → q.RefersTo (.named name) →
    (targetOf? sources (s.within p) (.named name)).map Target.key =
      (targetOf? sources (s'.within p) (.named name)).map Target.key

/-- No dead target leads back to itself. -/
def Grounded (sources : Sources) : Prop :=
  ∀ ⦃t u : Target⦄, sources.InReach t → sources.Dead t → TransGen sources.Nests t u → u.key ≠ t.key

end Sources

/-- Addresses tell the rules of a grammar apart. -/
def RawGrammar.Keyed (g : RawGrammar) : Prop :=
  ∀ ⦃s s' : Surroundings⦄ ⦃p p' : PlacedRule⦄, g.Writes s p → g.Writes s' p' →
    p.address = p'.address → p = p'

/-- The targets are of one grammar or one rule, whose patterns stand for the same. -/
inductive Target.Agrees (sources : Sources) : Target → Target → Prop
  | root (g : RawGrammar) : Target.Agrees sources (.root g) (.root g)
  | rule {s s' : Surroundings} {p : PlacedRule}
    (h : ∀ q ∈ p.items, (patternTarget? sources (s.within p) q).map Target.key =
      (patternTarget? sources (s'.within p) q).map Target.key) :
    Target.Agrees sources (.rule s p) (.rule s' p)

/-- Targets in reach that are known by the same key agree. -/
def Sources.Consistent (sources : Sources) : Prop :=
  ∀ ⦃t t' : Target⦄, sources.InReach t → sources.InReach t' → t.key = t'.key → t.Agrees sources t'

section Consistent

variable {sources : Sources}

theorem Sources.InReach.within
    {t : Target}
    (h : sources.InReach t) :
    t.Within sources := by
  induction h with
  | refl =>
      exact Or.inl rfl
  | tail _ hnests ih =>
      exact ih.of_nests hnests

/-- Known grammars of one scope are the same, if the grammar being tokenized is found under its own
scope. -/
theorem eq_of_knows
    (hbase : sources.grammar? sources.base.scopeName = some sources.base)
    {g g' : RawGrammar}
    (hg : sources.Knows g)
    (hg' : sources.Knows g')
    (hscope : g.scopeName = g'.scopeName) :
    g = g' := by
  have hfound : ∀ {g}, sources.Knows g → sources.grammar? g.scopeName = some g := by
    rintro g (rfl | hg)
    · exact hbase
    · simp only [Sources.grammar?, hg]
  have hsame := hfound hg
  rw [hscope, hfound hg'] at hsame
  exact (Option.some.inj hsame).symm

/-- An address is the address of one rule, if it is in each grammar. -/
theorem eq_of_address_of_within
    (hbase : sources.grammar? sources.base.scopeName = some sources.base)
    (hkeyed : ∀ g, sources.Knows g → g.Keyed)
    {s s' : Surroundings}
    {p p' : PlacedRule}
    (h : (Target.rule s p).Within sources)
    (h' : (Target.rule s' p').Within sources)
    (haddress : p.address = p'.address) :
    s.grammar = s'.grammar ∧ p = p' := by
  obtain ⟨hknown, ⟨s₀, hwritten⟩, -⟩ := h
  obtain ⟨hknown', ⟨s₁, hwritten'⟩, -⟩ := h'
  have hscope : s.grammar.scopeName = s'.grammar.scopeName := by
    rw [← hwritten.scope_eq, ← hwritten'.scope_eq, haddress]
  have hgrammar := eq_of_knows hbase hknown hknown' hscope
  rw [← hgrammar] at hwritten'
  exact ⟨hgrammar, hkeyed _ hknown hwritten hwritten' haddress⟩

/-- Targets with one key agree if names are unambiguous: all other includes depend on the grammar
alone. -/
theorem Sources.Unambiguous.consistent
    (h : sources.Unambiguous)
    (hbase : sources.grammar? sources.base.scopeName = some sources.base)
    (hkeyed : ∀ g, sources.Knows g → g.Keyed) :
    sources.Consistent := by
  intro t t' ht ht' hkey
  cases t with
  | root g =>
      cases t' with
      | root g' =>
          obtain rfl := eq_of_knows hbase ht.within ht'.within (Sum.inr.inj hkey)
          exact .root g
      | rule s' p' =>
          cases hkey
  | rule s p =>
      cases t' with
      | root g' =>
          cases hkey
      | rule s' p' =>
          obtain ⟨hgrammar, rfl⟩ :=
            eq_of_address_of_within hbase hkeyed ht.within ht'.within (Sum.inl.inj hkey)
          refine .rule fun q hq => ?_
          have hgrammar' : (s.within p).grammar = (s'.within p).grammar := by
            simpa using hgrammar
          unfold patternTarget?
          cases hreference : q.rule.reference with
          | none =>
              rfl
          | some text =>
              dsimp only
              cases hr : Reference.ofText text with
              | named name =>
                  exact h ht ht' hq (by simp [PlacedRule.RefersTo, hreference, hr])
              | self =>
                  simp only [targetOf?, hgrammar']
              | _ =>
                  rfl

namespace Target.Agrees

variable {t t' : Target} (h : t.Agrees sources t')
include h

theorem items_eq :
    t.items = t'.items := by
  cases h <;> rfl

theorem keys_eq
    {q : PlacedRule}
    (hq : q ∈ t.items) :
    (patternTarget? sources t.scene q).map Target.key =
      (patternTarget? sources t'.scene q).map Target.key := by
  cases h with
  | root g =>
      rfl
  | rule hkeys =>
      exact hkeys q hq

theorem eq_none
    {q : PlacedRule}
    (hq : q ∈ t.items)
    (hnone : patternTarget? sources t.scene q = none) :
    patternTarget? sources t'.scene q = none := by
  have hkeys := h.keys_eq hq
  rw [hnone] at hkeys
  exact Option.map_eq_none_iff.mp hkeys.symm

theorem eq_some
    {q : PlacedRule}
    (hq : q ∈ t.items)
    {u : Target}
    (hu : patternTarget? sources t.scene q = some u) :
    ∃ u', patternTarget? sources t'.scene q = some u' ∧ u'.key = u.key := by
  have hkeys := h.keys_eq hq
  rw [hu] at hkeys
  exact Option.map_eq_some_iff.mp hkeys.symm

end Target.Agrees

/-- Whether a target is dead does not depend on the chain that leads to it. -/
theorem Sources.Dead.of_key_eq
    (hcons : sources.Consistent)
    {t t' : Target}
    (hdead : sources.Dead t)
    (ht : sources.InReach t)
    (ht' : sources.InReach t')
    (hkey : t.key = t'.key) :
    sources.Dead t' := by
  induction hdead generalizing t' with
  | @intro t hmissing _ ih =>
      have hagrees := hcons ht ht' hkey
      have hback := hcons ht' ht hkey.symm
      have hitems := hagrees.items_eq
      obtain ⟨q, hq, hnone⟩ := hmissing
      refine .intro ⟨q, hitems ▸ hq, hagrees.eq_none hq hnone⟩ fun q hq u' hu' => ?_
      obtain ⟨u, hu, hukey⟩ := hback.eq_some hq hu'
      have hq' : q ∈ t.items := hitems ▸ hq
      exact ih q hq' u hu (ht.tail (.pattern hq' hu)) (ht'.tail (.pattern hq hu')) hukey

theorem dead_iff_of_key_eq
    (hcons : sources.Consistent)
    {t t' : Target}
    (ht : sources.InReach t)
    (ht' : sources.InReach t')
    (hkey : t.key = t'.key) :
    sources.Dead t ↔ sources.Dead t' :=
  ⟨fun h => h.of_key_eq hcons ht ht' hkey, fun h => h.of_key_eq hcons ht' ht hkey.symm⟩

end Consistent

section Bodies

variable {sources : Sources} {b : Build}

/-- The numbers that are listed for some patterns: those of what they stand for, unless it is dead.
-/
abbrev ListsLive
    (sources : Sources) :=
  Lists sources fun u inert => inert = true ↔ sources.Dead u

/-- The rule of a target leaves out what is dead. -/
abbrev LiveBody
    (sources : Sources) :=
  Body sources fun u inert => inert = true ↔ sources.Dead u

/-- Includes are missing if some pattern stands for nothing. -/
theorem Lists.missing_iff
    {tested : Target → Bool → Prop}
    {s : Surroundings}
    {items : List PlacedRule}
    {ids : List RuleId}
    {m : Bool}
    (h : Lists sources tested b s items ids m) :
    m = true ↔ ∃ q ∈ items, patternTarget? sources s q = none := by
  induction h with
  | nil =>
      simp
  | missing hq _ ih =>
      simp [hq]
  | left hq _ _ _ ih =>
      simpa [hq] using ih
  | listed hq _ _ _ ih =>
      simpa [hq] using ih

/-- Nothing is listed if all that the patterns stand for is of the sort that the test is about. -/
theorem Lists.isEmpty_iff
    {tested : Target → Bool → Prop}
    {D : Target → Prop}
    {s : Surroundings}
    {items : List PlacedRule}
    (hD : ∀ q ∈ items, ∀ u inert, patternTarget? sources s q = some u → tested u inert →
      (inert = true ↔ D u))
    {ids : List RuleId}
    {m : Bool}
    (h : Lists sources tested b s items ids m) :
    ids.isEmpty = true ↔ ∀ q ∈ items, ∀ u, patternTarget? sources s q = some u → D u := by
  induction h with
  | nil =>
      simp
  | missing hq _ ih =>
      simpa [hq] using ih fun q hq => hD q (List.mem_cons_of_mem _ hq)
  | left hq _ htested _ ih =>
      have hdead := (hD _ List.mem_cons_self _ _ hq htested).mp rfl
      simpa [hq, hdead] using ih fun q hq => hD q (List.mem_cons_of_mem _ hq)
  | @listed q u id rest ids m hq hid htested hrest ih =>
      have hlive : ¬ D u := fun hdead =>
        Bool.false_ne_true ((hD _ List.mem_cons_self _ _ hq htested).mpr hdead)
      simp [hq, hlive]

theorem dead_iff
    {t : Target} :
    sources.Dead t ↔ (∃ q ∈ t.items, patternTarget? sources t.scene q = none) ∧
      ∀ q ∈ t.items, ∀ u, patternTarget? sources t.scene q = some u → sources.Dead u :=
  ⟨fun ⟨hmissing, hrest⟩ => ⟨hmissing, hrest⟩, fun ⟨hmissing, hrest⟩ => .intro hmissing hrest⟩

/-- A body is inert if its target is dead. -/
theorem LiveBody.isInert_iff
    {t : Target}
    {r : Rule}
    (h : LiveBody sources b t r) :
    r.isInert = true ↔ sources.Dead t := by
  have hlists : ∀ {ids m}, ListsLive sources b t.scene t.items ids m →
      ((m && ids.isEmpty) = true ↔ sources.Dead t) := by
    intro ids m hlists
    rw [Bool.and_eq_true, hlists.missing_iff,
      hlists.isEmpty_iff fun q _ u inert _ htested => htested, dead_iff]
  cases h with
  | root hpatterns =>
      exact hlists hpatterns
  | @simple s p pattern captures hkind =>
      have hitems : (Target.rule s p).items = [] := items_of_simple hkind
      rw [dead_iff, hitems]
      simp [Rule.isInert, Rule.missing]
  | region _ hpatterns =>
      exact hlists hpatterns
  | lines _ hpatterns =>
      exact hlists hpatterns
  | @held s p text u id hkind hu hid =>
      have hitems : (Target.rule s p).items = [p] := items_of_held hkind
      rw [dead_iff, hitems]
      simp [Rule.isInert, Rule.missing, Target.scene, hu]
  | @unresolved s p text hkind hu =>
      have hitems : (Target.rule s p).items = [p] := items_of_held hkind
      rw [dead_iff, hitems]
      simp [Rule.isInert, Rule.missing, Rule.patterns, Target.scene, hu]
  | group _ hpatterns =>
      exact hlists hpatterns

/-- What is listed for one chain is listed for any other one that leads to the same targets. -/
theorem ListsLive.transfer
    (hcons : sources.Consistent)
    {t t' : Target}
    (ht : sources.InReach t)
    (ht' : sources.InReach t')
    (hagrees : t.Agrees sources t')
    {items : List PlacedRule}
    (hitems : ∀ q ∈ items, q ∈ t.items)
    {ids : List RuleId}
    {m : Bool}
    (h : ListsLive sources b t.scene items ids m) :
    ListsLive sources b t'.scene items ids m := by
  have heq := hagrees.items_eq
  -- what a pattern stands for along the other chain
  have hother : ∀ {q u}, q ∈ t.items → patternTarget? sources t.scene q = some u →
      ∃ u', patternTarget? sources t'.scene q = some u' ∧ u'.key = u.key ∧
        (sources.Dead u ↔ sources.Dead u') := by
    intro q u hq hu
    obtain ⟨u', hu', hkey⟩ := hagrees.eq_some hq hu
    have hreach := ht.tail (.pattern hq hu)
    have hreach' := ht'.tail (.pattern (heq ▸ hq) hu')
    exact ⟨u', hu', hkey, dead_iff_of_key_eq hcons hreach hreach' hkey.symm⟩
  induction h with
  | nil =>
      exact .nil
  | missing hq _ ih =>
      have hmem := hitems _ List.mem_cons_self
      exact .missing (hagrees.eq_none hmem hq) (ih fun q hq => hitems q (List.mem_cons_of_mem _ hq))
  | left hq hid htested _ ih =>
      obtain ⟨u', hu', hkey, hdead⟩ := hother (hitems _ List.mem_cons_self) hq
      exact .left hu' (hkey ▸ hid) (htested.trans hdead)
        (ih fun q hq => hitems q (List.mem_cons_of_mem _ hq))
  | listed hq hid htested _ ih =>
      obtain ⟨u', hu', hkey, hdead⟩ := hother (hitems _ List.mem_cons_self) hq
      exact .listed hu' (hkey ▸ hid) (htested.trans hdead)
        (ih fun q hq => hitems q (List.mem_cons_of_mem _ hq))

/-- A body for one chain is a body for any other one. -/
theorem LiveBody.transfer
    (hcons : sources.Consistent)
    {t t' : Target}
    (ht : sources.InReach t)
    (ht' : sources.InReach t')
    (hkey : t.key = t'.key)
    {r : Rule}
    (h : LiveBody sources b t r) :
    LiveBody sources b t' r := by
  have hagrees := hcons ht ht' hkey
  have hlists : ∀ {ids m}, ListsLive sources b t.scene t.items ids m →
      ListsLive sources b t'.scene t.items ids m :=
    ListsLive.transfer hcons ht ht' hagrees fun q hq => hq
  cases hagrees with
  | root g =>
      exact h
  | @rule s s' p hkeys =>
      cases h with
      | simple hkind hcaptures hnumbered =>
          exact .simple hkind hcaptures hnumbered
      | region hkind hpatterns hopening hclosing hnumbered =>
          exact .region hkind (hlists hpatterns) hopening hclosing hnumbered
      | lines hkind hpatterns hopening hcontinuing hnumbered =>
          exact .lines hkind (hlists hpatterns) hopening hcontinuing hnumbered
      | held hkind hu hid =>
          have hitem := mem_items_of_held hkind
          obtain ⟨u', hu', hkey'⟩ := (Target.Agrees.rule hkeys).eq_some (t := .rule s p) hitem hu
          exact .held hkind hu' (hkey' ▸ hid)
      | unresolved hkind hu =>
          have hitem := mem_items_of_held hkind
          exact .unresolved hkind ((Target.Agrees.rule hkeys).eq_none (t := .rule s p) hitem hu)
      | group hkind hpatterns =>
          exact .group hkind (hlists hpatterns)

/-- What a pattern stands for has a number, and unless it was left out the number is listed. -/
theorem Lists.exists_listed
    {tested : Target → Bool → Prop}
    {s : Surroundings}
    {items : List PlacedRule}
    {ids : List RuleId}
    {m : Bool}
    (h : Lists sources tested b s items ids m)
    {q : PlacedRule}
    (hq : q ∈ items)
    {u : Target}
    (hu : patternTarget? sources s q = some u) :
    ∃ i, b.number? u.key = some i ∧ (tested u true ∨ i ∈ ids) := by
  induction h with
  | nil =>
      cases hq
  | missing hnone _ ih =>
      rcases List.mem_cons.mp hq with rfl | hq
      · cases hnone.symm.trans hu
      · exact ih hq
  | left hsome hid htested _ ih =>
      rcases List.mem_cons.mp hq with rfl | hq
      · obtain rfl := Option.some.inj (hsome.symm.trans hu)
        exact ⟨_, hid, Or.inl htested⟩
      · exact ih hq
  | listed hsome hid _ _ ih =>
      rcases List.mem_cons.mp hq with rfl | hq
      · obtain rfl := Option.some.inj (hsome.symm.trans hu)
        exact ⟨_, hid, Or.inr List.mem_cons_self⟩
      · obtain ⟨i, hi, hlisted⟩ := ih hq
        exact ⟨i, hi, hlisted.imp_right (List.mem_cons_of_mem _)⟩

theorem Body.exists_listed
    {tested : Target → Bool → Prop}
    {t : Target}
    {r : Rule}
    (h : Body sources tested b t r)
    {q : PlacedRule}
    (hq : q ∈ t.items)
    {u : Target}
    (hu : patternTarget? sources t.scene q = some u) :
    ∃ i, b.number? u.key = some i ∧ (tested u true ∨ i ∈ r.patterns) := by
  cases h with
  | root hpatterns =>
      exact hpatterns.exists_listed hq hu
  | simple hkind =>
      rw [Target.items, items_of_simple hkind] at hq
      cases hq
  | region _ hpatterns =>
      exact hpatterns.exists_listed hq hu
  | lines _ hpatterns =>
      exact hpatterns.exists_listed hq hu
  | held hkind hu' hid =>
      rw [Target.items, items_of_held hkind] at hq
      obtain rfl := List.mem_singleton.mp hq
      obtain rfl := Option.some.inj (hu'.symm.trans hu)
      exact ⟨_, hid, Or.inr List.mem_cons_self⟩
  | unresolved hkind hu' =>
      rw [Target.items, items_of_held hkind] at hq
      obtain rfl := List.mem_singleton.mp hq
      cases hu'.symm.trans hu
  | group _ hpatterns =>
      exact hpatterns.exists_listed hq hu

/-- Every target inside one with a body has a number. -/
theorem Body.exists_number
    {tested : Target → Bool → Prop}
    {t u : Target}
    {r : Rule}
    (h : Body sources tested b t r)
    (hnests : sources.Nests t u) :
    ∃ id, b.number? u.key = some id := by
  cases hnests with
  | pattern hq hu =>
      obtain ⟨i, hi, -⟩ := h.exists_listed hq hu
      exact ⟨i, hi⟩
  | @capture s p role captures n key r' hcaptures hr hpatterns =>
      have hnumbered : ∀ list ∈ p.captures, Numbered b p list := by
        cases h with
        | simple _ _ hnumbered =>
            exact hnumbered
        | region _ _ _ _ hnumbered =>
            exact hnumbered
        | lines _ _ _ _ hnumbered =>
            exact hnumbered
        | held hkind =>
            rw [captures_of_group hkind]
            exact List.forall_mem_nil _
        | unresolved hkind =>
            rw [captures_of_group hkind]
            exact List.forall_mem_nil _
        | group hkind =>
            rw [captures_of_group hkind]
            exact List.forall_mem_nil _
      exact hnumbered _ hcaptures _ hr hpatterns

end Bodies

section Compiled

variable {sources : Sources}

/-- What a compilation finds out by testing a place is whether its target is dead. A target that
still waits is not, as it leads to the one that includes it. -/
theorem surveys_inReach
    (hcons : sources.Consistent)
    (hgrounded : sources.Grounded) :
    Surveys sources sources.InReach fun u inert => inert = true ↔ sources.Dead u := by
  refine ⟨fun h => h.within, fun h hnests => h.tail hnests, fun {room b t u id} ht hnests hid => ?_⟩
  have hu : sources.InReach u := ht.inReach.tail hnests
  obtain ⟨r, hr, hne⟩ := ht.sound.placed hid
  have hinert : b.isInert id = r.isInert := by
    simp [Build.isInert, hr]
  rw [hinert]
  cases ht.sound.explained hr with
  | waits =>
      obtain ⟨w, hw, hwid, hwt⟩ := ht.waiting hr
      have hkey := ht.sound.unique hwid hid
      refine ⟨nofun, fun hdead => ?_⟩
      have hwdead := hdead.of_key_eq hcons hu hw hkey.symm
      exact absurd hkey.symm (hgrounded hw hwdead (TransGen.tail' hwt hnests))
  | @body w _ hw hwid hbody =>
      have hkey := ht.sound.unique hwid hid
      rw [LiveBody.isInert_iff hbody]
      exact dead_iff_of_key_eq hcons hw hu hkey
  | capture =>
      exact absurd rfl (hne _)

/-- The place of a target says what the chain to it asks for. -/
def Build.Renders
    (sources : Sources)
    (b : Build)
    (t : Target) : Prop :=
  ∃ id r, b.number? t.key = some id ∧ b.rules[id]? = some r ∧ LiveBody sources b t r

theorem Build.Renders.grows
    {b c : Build}
    {t : Target}
    (h : b.Renders sources t)
    (hgrows : b.Grows c) :
    c.Renders sources t := by
  obtain ⟨id, r, hid, hr, hbody⟩ := h
  exact ⟨id, r, hgrows.numbers hid, hgrows.get? hr, hbody.carry hgrows.carries⟩

/-- If the root has a number in a settled table, every target in reach has one, and its place says
what any chain to it asks for. -/
theorem Build.Settled.renders
    (hcons : sources.Consistent)
    {room : Nat}
    {b : Build}
    (h : Build.Settled sources sources.InReach (fun u inert => inert = true ↔ sources.Dead u) room b)
    (hroot : b.number? (.inr sources.base.scopeName) = some rootRule)
    {t : Target}
    (ht : sources.InReach t) :
    b.Renders sources t := by
  have hrenders : ∀ {t id}, sources.InReach t → b.number? t.key = some id →
      b.Renders sources t := by
    intro t id ht hid
    obtain ⟨w, r, hw, hkey, hr, hbody⟩ := h.sound.body h.filled hid
    exact ⟨id, r, hid, hr, LiveBody.transfer hcons hw ht hkey hbody⟩
  induction ht with
  | refl =>
      exact hrenders .refl hroot
  | tail hreach hnests ih =>
      obtain ⟨_, _, -, -, hbody⟩ := ih
      obtain ⟨id, hid⟩ := hbody.exists_number hnests
      exact hrenders (hreach.tail hnests) hid

end Compiled

namespace Grammar

/-- Whatever chain leads from the root patterns to a target, the compiled rule of the target says
what this chain asks for. -/
theorem renders_of_inReach
    {r : CompileRequest}
    (hcons : r.sources.Consistent)
    (hgrounded : r.sources.Grounded)
    {t : Target}
    (ht : r.sources.InReach t) :
    (compileRules r).2.Renders r.sources t := by
  obtain ⟨hsettled, hroot⟩ := exists_settled_root r.sources (surveys_inReach hcons hgrounded) .refl
  exact (hsettled.renders hcons hroot ht).grows (goes_compileRules r).1

end Grammar

end LineScopes
