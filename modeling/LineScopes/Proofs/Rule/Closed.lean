import LineScopes.Proofs.Rule.Injections

/-!
# Compiled tables are closed

When a compilation is over, no place waits any more, every number in the table is the number of a
rule of the right sort, and every rule of a grammar has at most one place. A compilation ends on its
own: more room for nested targets than there are rules and grammars changes nothing.

**Main definitions.** `RuleTable.HasBody`, `Build.Owns`, `Build.Closed`.

**Main statements.** `Sound.closed`: a table whose places are all explained, and none of which
waits, is closed. `Grammar.compileRules_closed`.
-/

namespace LineScopes

namespace Rule

/-- A rule that can match, or holds rules that can. -/
def isBody : Rule → Bool
  | simple _ => true
  | group _ => true
  | region _ => true
  | lines _ => true
  | capture _ => false
  | pending => false

/-- The rules of the captured groups. -/
def slots : Rule → List (Option RuleId)
  | simple r => r.captures
  | region r => r.openingCaptures ++ r.closingCaptures
  | lines r => r.openingCaptures ++ r.continuingCaptures
  | _ => []

/-- The rule that tokenizes a captured text again. -/
def retokenize : Rule → Option RuleId
  | capture r => r.retokenize
  | _ => none

end Rule

namespace RuleTable

/-- A number of a rule that can match, or holds rules that can. -/
def HasBody
    (rules : RuleTable)
    (id : RuleId) : Prop :=
  ∃ r, rules[id]? = some r ∧ r.isBody

/-- A number of a capture. -/
def HasCapture
    (rules : RuleTable)
    (id : RuleId) : Prop :=
  ∃ c, rules[id]? = some (.capture c)

end RuleTable

namespace Build

/-- A number has been given to the rule with an address, or to the grammar of a scope. -/
def Owns
    (b : Build)
    (id : RuleId) : RuleAddress ⊕ String → Prop
  | .inl a => (a, id) ∈ b.ruleIds
  | .inr scope => (scope, id) ∈ b.grammarIds

/-- What a table refers to is there. -/
structure Closed (sources : Sources) (b : Build) : Prop where
  /-- The root patterns of the grammar being tokenized come first. -/
  root : b.Owns rootRule (.inr sources.base.scopeName) ∧ ∃ patterns missing,
    b.rules[rootRule]? = some (.group {
      name := NameTemplate.ofName? (some sources.base.scopeName), contentName := none
      patterns, missing })
  filled : ∀ id : RuleId, b.rules[id]? ≠ some .pending
  patterns : ∀ {id : RuleId} {r : Rule}, b.rules[id]? = some r → ∀ i ∈ r.patterns, b.rules.HasBody i
  retokenize : ∀ {id : RuleId} {r : Rule}, b.rules[id]? = some r → ∀ i, r.retokenize = some i →
    b.rules.HasBody i
  slots : ∀ {id : RuleId} {r : Rule}, b.rules[id]? = some r → ∀ i, some i ∈ r.slots →
    b.rules.HasCapture i
  /-- Whatever is no capture belongs to exactly one rule or grammar. -/
  owner : ∀ {id : RuleId}, b.rules.HasBody id → ∃! key, b.Owns id key
  /-- What belongs to a rule or grammar has been compiled from it. -/
  body : ∀ {key id}, b.Owns id key → ∃ t r, t.Within sources ∧ t.key = key ∧
    b.rules[id]? = some r ∧ r.isBody ∧ Body sources (fun _ _ => True) b t r
  /-- No rule and no grammar has two places. -/
  once : ∀ {key id id'}, b.Owns id key → b.Owns id' key → id = id'

end Build

/-- The only value that is found under a key of an association list without repeated keys. -/
theorem mem_iff_lookup_eq_some
    {α β : Type}
    [BEq α]
    [LawfulBEq α]
    {l : List (α × β)}
    (h : (l.map Prod.fst).Nodup)
    {a : α}
    {b : β} :
    (a, b) ∈ l ↔ l.lookup a = some b := by
  induction l with
  | nil =>
      simp
  | cons e rest ih =>
      obtain ⟨a', b'⟩ := e
      obtain ⟨hnot, hrest⟩ := List.nodup_cons.mp h
      rw [List.lookup_cons, List.mem_cons]
      cases heq : a == a' with
      | true =>
          obtain rfl := eq_of_beq heq
          have hno : (a, b) ∉ rest := fun hmem => hnot (List.mem_map.mpr ⟨_, hmem, rfl⟩)
          simp [hno, eq_comm]
      | false =>
          have hne : a ≠ a' := fun h => by simp [h] at heq
          simp [hne, ih hrest]

theorem Body.isBody
    {sources : Sources}
    {tested : Target → Bool → Prop}
    {b : Build}
    {t : Target}
    {r : Rule}
    (h : Body sources tested b t r) :
    r.isBody := by
  cases h <;> rfl

namespace Sound

variable {sources : Sources} {T : Target → Prop} {tested : Target → Bool → Prop} {b : Build}
variable (h : Sound sources T tested b)
include h

theorem owns_iff
    {key : RuleAddress ⊕ String}
    {id : RuleId} :
    b.Owns id key ↔ b.number? key = some id := by
  cases key with
  | inl a =>
      exact mem_iff_lookup_eq_some h.keyed.1
  | inr scope =>
      exact mem_iff_lookup_eq_some h.keyed.2

/-- A place that is no capture belongs to exactly one rule or grammar. -/
theorem exists_unique_owner
    {id : RuleId}
    (hid : b.rules.HasBody id) :
    ∃! key, b.Owns id key := by
  obtain ⟨r, hr, hisBody⟩ := hid
  have howned : ∃ key, b.number? key = some id := by
    cases h.explained hr with
    | waits ht hid =>
        exact ⟨_, hid⟩
    | body ht hid _ =>
        exact ⟨_, hid⟩
    | capture =>
        cases hisBody
  obtain ⟨key, hkey⟩ := howned
  exact ⟨key, h.owns_iff.mpr hkey, fun key' hkey' => h.unique (h.owns_iff.mp hkey') hkey⟩

variable (hfilled : ∀ id : RuleId, b.rules[id]? ≠ some .pending)
include hfilled

/-- A number that has been given is that of the body of its target, if no place waits. -/
theorem body
    {key : RuleAddress ⊕ String}
    {id : RuleId}
    (hid : b.number? key = some id) :
    ∃ t r, T t ∧ t.key = key ∧ b.rules[id]? = some r ∧ Body sources tested b t r := by
  obtain ⟨r, hr, hne⟩ := h.placed hid
  cases h.explained hr with
  | waits =>
      exact absurd hr (hfilled id)
  | @body t _ ht hid' hbody =>
      exact ⟨t, r, ht, h.unique hid' hid, hr, hbody⟩
  | capture =>
      exact absurd rfl (hne _)

theorem hasBody
    {key : RuleAddress ⊕ String}
    {id : RuleId}
    (hid : b.number? key = some id) :
    b.rules.HasBody id := by
  obtain ⟨t, r, -, -, hr, hbody⟩ := h.body hfilled hid
  exact ⟨r, hr, hbody.isBody⟩

theorem hasBody_of_lists
    {s : Surroundings}
    {items : List PlacedRule}
    {ids : List RuleId}
    {m : Bool}
    (hlists : Lists sources tested b s items ids m) :
    ∀ i ∈ ids, b.rules.HasBody i := by
  induction hlists with
  | nil =>
      exact List.forall_mem_nil _
  | missing _ _ ih =>
      exact ih
  | left _ _ _ _ ih =>
      exact ih
  | listed _ hid _ _ ih =>
      exact List.forall_mem_cons.mpr ⟨h.hasBody hfilled hid, ih⟩

/-- The numbers in the body of a target are those of bodies and captures. -/
theorem refers_of_body
    {t : Target}
    {r : Rule}
    (hbody : Body sources tested b t r) :
    (∀ i ∈ r.patterns, b.rules.HasBody i) ∧ r.retokenize = none ∧
      ∀ i, some i ∈ r.slots → b.rules.HasCapture i := by
  have hlists : ∀ {s items ids m}, Lists sources tested b s items ids m →
      ∀ i ∈ ids, b.rules.HasBody i :=
    h.hasBody_of_lists hfilled
  cases hbody with
  | root hpatterns =>
      exact ⟨hlists hpatterns, rfl, nofun⟩
  | simple hkind hcaptures hnumbered =>
      exact ⟨List.forall_mem_nil _, rfl, hcaptures⟩
  | region hkind hpatterns hopening hclosing hnumbered =>
      refine ⟨hlists hpatterns, rfl, fun i hi => ?_⟩
      exact (List.mem_append.mp hi).elim (hopening i) (hclosing i)
  | lines hkind hpatterns hopening hcontinuing hnumbered =>
      refine ⟨hlists hpatterns, rfl, fun i hi => ?_⟩
      exact (List.mem_append.mp hi).elim (hopening i) (hcontinuing i)
  | held hkind hu hid =>
      exact ⟨List.forall_mem_singleton.mpr (h.hasBody hfilled hid), rfl, nofun⟩
  | unresolved hkind hu =>
      exact ⟨List.forall_mem_nil _, rfl, nofun⟩
  | group hkind hpatterns =>
      exact ⟨hlists hpatterns, rfl, nofun⟩

/-- What stands at a place refers to bodies and captures. -/
theorem refers
    {id : RuleId}
    {r : Rule}
    (hr : b.rules[id]? = some r) :
    (∀ i ∈ r.patterns, b.rules.HasBody i) ∧ (∀ i, r.retokenize = some i → b.rules.HasBody i) ∧
      ∀ i, some i ∈ r.slots → b.rules.HasCapture i := by
  cases h.explained hr with
  | waits ht hid =>
      exact absurd hr (hfilled id)
  | body ht hid hbody =>
      obtain ⟨hpatterns, hnone, hslots⟩ := h.refers_of_body hfilled hbody
      refine ⟨hpatterns, fun i hi => ?_, hslots⟩
      rw [hnone] at hi
      cases hi
  | capture hagain =>
      refine ⟨List.forall_mem_nil _, fun i hi => ?_, nofun⟩
      obtain ⟨key, hkey⟩ := hagain i hi
      exact h.hasBody hfilled hkey

/-- The place of the root patterns of a grammar holds a group with the name of its scope. -/
theorem root
    {scope : String}
    {id : RuleId}
    (hid : b.number? (.inr scope) = some id) :
    ∃ patterns missing, b.rules[id]? = some (.group {
      name := NameTemplate.ofName? (some scope), contentName := none, patterns, missing }) := by
  obtain ⟨t, r, -, hkey, hr, hbody⟩ := h.body hfilled hid
  cases hbody with
  | root hpatterns =>
      obtain rfl := Sum.inr.inj hkey
      exact ⟨_, _, hr⟩
  | _ =>
      cases hkey

end Sound

section Written

/-- The compiler stays within what is written in its sources. -/
theorem surveys_within
    (sources : Sources) :
    Surveys sources (·.Within sources) fun _ _ => True :=
  ⟨fun h => h, fun h hnests => h.of_nests hnests, fun _ _ _ => trivial⟩

/-- What a compilation comes to does not depend on how deep it may go. -/
theorem resolveAlike_self
    (sources : Sources) :
    sources.ResolveAlike sources (·.Within sources) := by
  refine ⟨fun {s p} h => ?_, fun {s p q} h hq => ?_, fun {g q} h hq => ?_,
    fun {s p text} h htext => ?_⟩
  · obtain ⟨hknown, ⟨s₀, hwritten⟩, hlayers⟩ := h
    exact ⟨by simpa using hknown, ⟨s₀, by simpa using hwritten⟩,
      by simpa using Surroundings.holds_enter hwritten hlayers⟩
  · obtain ⟨hknown, hlayers⟩ := h.scene
    obtain ⟨-, ⟨s₀, hwritten⟩, -⟩ := h
    rw [← Surroundings.grammar_within s p] at hwritten
    exact ⟨hknown, ⟨_, .inside hwritten (mem_children_of_mem_innerRules hq)⟩, hlayers⟩
  · exact ⟨h, ⟨_, .outermost (mem_children_of_mem_rootRules hq)⟩, List.forall_mem_nil _⟩
  · exact ⟨rfl, fun t ht => Target.Within.of_targetOf? h.1 h.2.2 ht⟩

/-- A rule that a grammar injects into itself is written in the sources. -/
theorem within_injection
    {sources : Sources}
    {text : String}
    {r : RawRule}
    (h : (text, r) ∈ sources.base.injections.getD []) :
    (Target.rule (.root sources.base)
      ⟨RuleAddress.step ⟨sources.base.scopeName, []⟩ (.injection text), r⟩).Within sources := by
  refine ⟨Or.inl rfl, ⟨_, .outermost ?_⟩, List.forall_mem_nil _⟩
  exact List.mem_append_right _ (List.mem_map.mpr ⟨_, h, rfl⟩)

/-- Whatever is injected is written in the sources. -/
theorem within_declared
    {sources : Sources}
    {scopes : List String}
    {e : String × Target}
    (h : e ∈ sources.declared scopes) :
    e.2.Within sources := by
  rcases List.mem_append.mp h with h | h
  · obtain ⟨written, hwritten, rfl⟩ := List.mem_map.mp h
    exact within_injection hwritten
  · obtain ⟨scope, -, hscope⟩ := List.mem_filterMap.mp h
    obtain ⟨g, hg, hselector⟩ := Option.bind_eq_some_iff.mp hscope
    obtain ⟨text, -, rfl⟩ := Option.map_eq_some_iff.mp hselector
    exact knows_of_grammar? hg

end Written

/-- A table is closed if all its places are explained, none waits, and the first one is the root of
the grammar being tokenized. -/
theorem Sound.closed
    {sources : Sources}
    {b : Build}
    (h : Sound sources (·.Within sources) (fun _ _ => True) b)
    (hfilled : ∀ id : RuleId, b.rules[id]? ≠ some .pending)
    (hroot : b.number? (.inr sources.base.scopeName) = some rootRule) :
    b.Closed sources := by
  refine ⟨⟨h.owns_iff.mpr hroot, h.root hfilled hroot⟩, hfilled, fun hr => (h.refers hfilled hr).1,
    fun hr => (h.refers hfilled hr).2.1, fun hr => (h.refers hfilled hr).2.2,
    h.exists_unique_owner, fun {key id} hid => ?_, fun {key id id'} hid hid' => ?_⟩
  · obtain ⟨t, r, ht, hkey, hr, hbody⟩ := h.body hfilled (h.owns_iff.mp hid)
    exact ⟨t, r, ht, hkey, hr, hbody.isBody, hbody⟩
  · have hsame := (h.owns_iff.mp hid).symm.trans (h.owns_iff.mp hid')
    exact Option.some.inj hsame

namespace Grammar

/-- More room for nested targets than there are rules and grammars makes no difference. -/
theorem compileWithin_eq
    (r : CompileRequest)
    {bound : Nat}
    (hbound : compileBound r.sources ≤ bound) :
    compileWithin bound r = compileRules r := by
  have hkeys := fun t (ht : Target.Within r.sources t) => And.intro ht.key_mem ht.key_mem
  have hvisitor := fun t ht => compileTarget_alike (resolveAlike_self r.sources) hkeys bound
    (compileBound r.sources) (t := t) ht
  have hinjections := collectInjections_alike hvisitor rfl (fun e he => within_injection he)
    (fun scope _ => rfl) (fun scope (_ : scope ∈ r.injected) => knows_of_grammar?)
    fun b entry hb => hb
  have hempty := unknown_keys_lt_compileBound r.sources
  have hbase : (Target.root r.sources.base).Within r.sources := Or.inl rfl
  obtain ⟨hroot, hroom⟩ := hvisitor _ hbase {} ⟨Nat.lt_of_lt_of_le hempty hbound, hempty⟩
  have hrest := (hinjections _ hroom).1
  have hbuild : buildWithin bound r = buildWithin (compileBound r.sources) r := by
    unfold buildWithin
    dsimp only
    rw [← hroot]
    exact hrest
  unfold compileRules compileWithin
  rw [hbuild]

/-- The table after the root patterns: none of its places waits, and the first one is the root. -/
theorem exists_settled_root
    (sources : Sources)
    {T : Target → Prop}
    {tested : Target → Bool → Prop}
    (hsurveys : Surveys sources T tested)
    (hbase : T (.root sources.base)) :
    let b := ((compileTarget sources (compileBound sources) (.root sources.base)).run {}).2
    Build.Settled sources T tested (compileBound sources) b ∧
      b.number? (.inr sources.base.scopeName) = some rootRule := by
  have hempty : Build.Settled sources T tested (compileBound sources) {} :=
    ⟨.empty, fun id h => by simp at h, unknown_keys_lt_compileBound sources⟩
  obtain ⟨hgrows, hsound, hnumber⟩ := compileTarget_goes hsurveys _ (hempty.ready hbase)
  refine ⟨hempty.grows hgrows hsound, ?_⟩
  obtain ⟨n, hn⟩ : ∃ n, compileBound sources = n + 1 := ⟨_, rfl⟩
  rw [hn] at hnumber ⊢
  have hvisit := @run_visit_of_new sources (compileTarget sources n) {} (.root sources.base) rfl
  exact hnumber.trans (congrArg (fun x => some x.1) hvisit)

/-- The injections are compiled into the table of the root patterns, and what is said about its
places stays true. -/
theorem compileRules_goes
    (r : CompileRequest)
    {T : Target → Prop}
    {tested : Target → Bool → Prop}
    (hsurveys : Surveys r.sources T tested)
    (hbase : T (.root r.sources.base))
    (hdeclared : ∀ e ∈ r.sources.declared r.injected, T e.2) :
    let b := ((compileTarget r.sources (compileBound r.sources) (.root r.sources.base)).run {}).2
    b.Grows (compileRules r).2 ∧
      Build.Settled r.sources T tested (compileBound r.sources) (compileRules r).2 ∧
      ∀ injections, (compileRules r).1 = .ok injections → ∃ declared,
        Introduces (compileRules r).2 (r.sources.declared r.injected) declared ∧
          injections = Injection.sort declared := by
  obtain ⟨hsettled, -⟩ := exists_settled_root r.sources hsurveys hbase
  obtain ⟨hgrows, hsound, hintroduces⟩ := collectInjections_goes
    (fun hb ht => compileTarget_goes hsurveys (compileBound r.sources) (hb.ready ht))
    r.injected hdeclared hsettled
  refine ⟨hgrows, hsettled.grows hgrows hsound, fun injections hok => ?_⟩
  exact hintroduces injections (compileRules_eq_ok_iff.mp hok).2

/-- A compilation has room for all captures if no target in reach has too many groups. -/
theorem fits_of_surveys
    (r : CompileRequest)
    {T : Target → Prop}
    {tested : Target → Bool → Prop}
    (hsurveys : Surveys r.sources T tested)
    (hbase : T (.root r.sources.base))
    (hdeclared : ∀ e ∈ r.sources.declared r.injected, T e.2)
    (hfits : ∀ t, T t → ¬ t.Oversized) :
    (compileRules r).2.overflowed = false := by
  obtain ⟨-, hsettled, -⟩ := compileRules_goes r hsurveys hbase hdeclared
  refine Bool.eq_false_iff.mpr fun hoverflowed => ?_
  obtain ⟨t, ht, hoversized⟩ := hsettled.sound.oversized hoverflowed
  exact hfits t ht hoversized

/-- The injections are those that are declared, sorted by their priorities. -/
theorem introduces_compileRules
    (r : CompileRequest) :
    let b := ((compileTarget r.sources (compileBound r.sources) (.root r.sources.base)).run {}).2
    b.Grows (compileRules r).2 ∧
      Sound r.sources (·.Within r.sources) (fun _ _ => True) (compileRules r).2 ∧
      ∀ injections, (compileRules r).1 = .ok injections → ∃ declared,
        Introduces (compileRules r).2 (r.sources.declared r.injected) declared ∧
          injections = Injection.sort declared := by
  obtain ⟨hgrows, hsettled, hintroduces⟩ := compileRules_goes r (surveys_within r.sources)
    (Or.inl rfl) fun e he => within_declared he
  exact ⟨hgrows, hsettled.sound, hintroduces⟩

/-- All injections have a rule in the table. -/
theorem goes_compileRules
    (r : CompileRequest) :
    let b := ((compileTarget r.sources (compileBound r.sources) (.root r.sources.base)).run {}).2
    b.Grows (compileRules r).2 ∧
      Sound r.sources (·.Within r.sources) (fun _ _ => True) (compileRules r).2 ∧
      ∀ injections, (compileRules r).1 = .ok injections →
        Injected injections (compileRules r).2 := by
  obtain ⟨hgrows, hsound, hdeclared⟩ := introduces_compileRules r
  refine ⟨hgrows, hsound, fun injections hok i hi => ?_⟩
  obtain ⟨declared, hintroduces, rfl⟩ := hdeclared injections hok
  exact hintroduces.injected i (List.mem_mergeSort.mp hi)

/-- The table of a compilation is closed, even if captures did not get their slots. -/
theorem closed_compileRules
    (r : CompileRequest) :
    (compileRules r).2.Closed r.sources := by
  have hsurveys := surveys_within r.sources
  have hbase : (Target.root r.sources.base).Within r.sources := Or.inl rfl
  obtain ⟨hsettled, hroot⟩ := exists_settled_root r.sources hsurveys hbase
  obtain ⟨hgrows, hsound, -⟩ := goes_compileRules r
  exact hsound.closed (hsettled.grows hgrows hsound).filled (hgrows.numbers hroot)

/-- A compilation ends. It panics only if a group of some rule has a number that no list has a slot
for. Otherwise the table it ends with is closed, and the rules of all injections are in the
table. -/
theorem compileRules_closed
    (r : CompileRequest) :
    (∀ bound, compileBound r.sources ≤ bound → compileWithin bound r = compileRules r) ∧
      ((compileRules r).2.overflowed = true →
        (compileRules r).1 = .error .groupOverflow ∧
          ∃ t : Target, t.Within r.sources ∧ t.Oversized) ∧
      ((compileRules r).2.overflowed = false → (compileRules r).2.Closed r.sources) ∧
      ∀ injections, (compileRules r).1 = .ok injections →
        (compileRules r).2.overflowed = false ∧
          ∀ i ∈ injections, (compileRules r).2.rules.HasBody i.rule := by
  obtain ⟨-, hsound, hinjected⟩ := goes_compileRules r
  have hclosed := closed_compileRules r
  refine ⟨fun bound => compileWithin_eq r, fun hoverflowed => ⟨?_, hsound.oversized hoverflowed⟩,
    fun _ => hclosed, fun injections hok => ⟨?_, fun i hi => ?_⟩⟩
  · exact if_pos hoverflowed
  · exact (compileRules_eq_ok_iff.mp hok).1
  · obtain ⟨key, hkey⟩ := hinjected injections hok i hi
    exact hsound.hasBody hclosed.filled hkey

/-- A group with the greatest number that a machine word holds. -/
def farGroupRequest : CompileRequest where
  sources :=
    { base :=
        { scopeName := "source"
          patterns := [{
            matchPattern := some "a"
            captures := some [("18446744073709551615", { name := some "far" })] }] }
      library := ⟨[]⟩ }

example : (compileRules farGroupRequest).1 = .error .groupOverflow := by
  rfl

/-- Tags within tags and within their captured text, and notes that include the tags again; notes
are also injected everywhere. -/
def tagRequest : CompileRequest where
  sources :=
    { base :=
        { scopeName := "source"
          patterns := [{ reference := some "#tag" }, { reference := some "$self" }]
          repository := some [("tag", {
            name := some "tag"
            beginPattern := some "<"
            endPattern := some ">"
            beginCaptures := some [("0", { patterns := some [{ reference := some "#tag" }] })]
            patterns := some [{ reference := some "text.notes" }, { reference := some "#none" }] })]
          injections := some [("L:source", {
            patterns := some [{ reference := some "text.notes#note" }] })] }
      library := ⟨[
        { scopeName := "text.notes"
          patterns := [{ reference := some "source" }, { reference := some "#note" }]
          repository := some [("note", { matchPattern := some "n", name := some "note" })] }]⟩ }

/-- The compilation of the tags ends with one injection, whose rule is in the table. -/
theorem compileRules_closed_tags :
    (compileRules tagRequest).2.Closed tagRequest.sources ∧
      ∃ injection, (compileRules tagRequest).1 = .ok [injection] ∧
        (compileRules tagRequest).2.rules.HasBody injection.rule := by
  obtain ⟨-, -, hclosed, hinjections⟩ := compileRules_closed tagRequest
  have hfits : (compileRules tagRequest).2.overflowed = false := by
    rw [compileRules_of_single rfl rfl parseSelector_source]
    decide +kernel
  obtain ⟨injection, hok⟩ := exists_injection_of_single rfl rfl parseSelector_source hfits
  exact ⟨hclosed hfits, injection, hok, (hinjections _ hok).2 injection List.mem_cons_self⟩

end Grammar

end LineScopes
