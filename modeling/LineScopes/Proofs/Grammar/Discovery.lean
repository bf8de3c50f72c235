import LineScopes.Proofs.Grammar.Rounds
import LineScopes.Proofs.Rule.Resolution

/-!
# What has been discovered is enough to resolve includes

Once the queue is empty, a rule that a walk came to refers only to rules that a walk came to, and the
grammars they are in have been loaded. So a compiler that knows what has been loaded resolves every
include it comes to as one that knows everything available.

**Main definitions.** `PartsWithin`, `Reached`, `Target.Reached`.

**Main statements.** `Requests.Discovered.resolve_reference`: one include.
`Requests.Discovered.resolveAlike`: all includes that a compilation comes to.
-/

namespace LineScopes

/-- A rule of a grammar that is asked for by name is within reach of the root patterns, if the grammar
is requested as a whole. -/
def PartsWithin
    (available : Library)
    (base : RawGrammar)
    (q : Requests) : Prop :=
  ∀ {p target : PlacedRule} {scope name : String} {g : RawGrammar}, scope ∈ q.wholes →
    Asks available base p (.part scope name) → available.get? scope = some g →
    (Surroundings.root g).lookup name = some target →
    ∃ first ∈ rootRules g, Reaches available base first target

/-- The walk of one of the handled requests comes to a rule. -/
def Reached
    (available : Library)
    (base : RawGrammar)
    (handled : List Request)
    (p : PlacedRule) : Prop :=
  ∃ r ∈ handled, ∃ first ∈ requestedRules available r, Reaches available base first p

/-- The targets a compilation comes to: rules that a walk comes to, and the root patterns of loaded
grammars. -/
def Target.Reached
    (available loaded : Library)
    (base : RawGrammar)
    (handled : List Request) : Target → Prop
  | .rule s p => s.Serves available p ∧ LineScopes.Reached available base handled p
  | .root g => available.get? g.scopeName = some g ∧ loaded.get? g.scopeName = some g ∧
      ∀ q ∈ rootRules g, LineScopes.Reached available base handled q

theorem Reached.leads
    {available : Library}
    {base : RawGrammar}
    {handled : List Request}
    {p q : PlacedRule}
    (h : Reached available base handled p)
    (hleads : Leads available base p q) :
    Reached available base handled q := by
  obtain ⟨r, hr, first, hfirst, hreaches⟩ := h
  exact ⟨r, hr, first, hfirst, hreaches.tail hleads⟩

/-- The initial grammar does not have to be looked for if it has been loaded. -/
theorem grammar?_eq_get?
    {library : Library}
    {base : RawGrammar}
    (hbase : library.get? base.scopeName = some base)
    (scope : String) :
    Sources.grammar? ⟨library, base⟩ scope = library.get? scope := by
  unfold Sources.grammar?
  dsimp only
  cases h : library.get? scope with
  | some g =>
      rfl
  | none =>
      have hne : base.scopeName ≠ scope := by
        rintro rfl
        rw [hbase] at h
        cases h
      simp [hne]

theorem scope_of_mem_requestedRules
    {available : Library}
    {r : Request}
    {q : PlacedRule}
    (hq : q ∈ requestedRules available r) :
    q.address.scope = r.scope := by
  unfold requestedRules at hq
  cases hg : available.get? r.scope with
  | none =>
      simp [hg] at hq
  | some g =>
      have hmem : q ∈ startRules g r := by
        simpa [hg] using hq
      rw [scope_of_mem_children_grammar (mem_children_of_mem_startRules hmem), scopeName_of_get? hg]

namespace Requests.Discovered

variable {available loaded : Library} {base : RawGrammar} {q : Requests} {handled : List Request}
variable (h : q.Discovered available base loaded handled) (hqueue : q.queue = [])
include h hqueue

/-- Once the queue is empty, everything that was requested has been handled. -/
theorem mem_handled_of_mem_wholes
    {scope : String}
    (hscope : scope ∈ q.wholes) :
    .whole scope ∈ handled := by
  simpa [hqueue] using h.wholes scope hscope

theorem mem_handled_of_mem_parts
    {scope name : String}
    (hplain : (Request.part scope name).Plain)
    (hpart : (Request.part scope name).key ∈ q.parts) :
    .part scope name ∈ handled := by
  obtain ⟨scope', name', hplain', hkey, hmem⟩ := h.parts _ hpart
  rw [← Request.eq_of_key_eq hplain' hplain hkey]
  simpa [hqueue] using hmem

/-- The root patterns of a grammar that was requested as a whole are reached. -/
theorem reached_of_mem_wholes
    {scope : String}
    (hscope : scope ∈ q.wholes)
    {g : RawGrammar}
    (hg : available.get? scope = some g)
    {p : PlacedRule}
    (hp : p ∈ rootRules g) :
    Reached available base handled p := by
  refine ⟨_, h.mem_handled_of_mem_wholes hqueue hscope, p, ?_, .refl⟩
  simpa [requestedRules, Request.scope, hg, startRules] using hp

theorem loaded_of_covers
    {r : Request}
    (hplain : r.Plain)
    (hcovers : q.covers r) :
    loaded.get? r.scope = available.get? r.scope := by
  cases r with
  | whole scope =>
      refine h.loaded _ (h.mem_handled_of_mem_wholes hqueue ?_)
      simpa [covers] using hcovers
  | part scope name =>
      rcases (by simpa [covers] using hcovers : scope ∈ q.wholes ∨ _ ∈ q.parts) with hmem | hmem
      · exact h.loaded (.whole scope) (h.mem_handled_of_mem_wholes hqueue hmem)
      · exact h.loaded _ (h.mem_handled_of_mem_parts hqueue hplain hmem)

variable (hregular : available.Regular) (hbase : available.get? base.scopeName = some base)
include hbase

theorem loaded_base :
    loaded.get? base.scopeName = some base := by
  rw [← hbase]
  refine h.loaded _ (h.mem_handled_of_mem_wholes hqueue ?_)
  simpa [covers] using h.first

include hregular

/-- The grammar of a rule that is reached has been loaded. -/
theorem loaded_of_reached
    {p : PlacedRule}
    (hp : Reached available base handled p) :
    loaded.get? p.address.scope = available.get? p.address.scope := by
  obtain ⟨r, hr, first, hfirst, hreaches⟩ := hp
  induction hreaches with
  | refl =>
      rw [scope_of_mem_requestedRules hfirst]
      exact h.loaded r hr
  | tail _ hleads ih =>
      cases hleads with
      | inner hq =>
          rwa [scope_of_mem_children (mem_children_of_mem_innerRules hq)]
      | follow hs hrefers hrules hq =>
          obtain ⟨hgrammar, hserved⟩ := hs.of_followReference hregular hbase hrefers hrules
          rw [(hserved _ hq).scope_eq]
          rcases hgrammar with heq | heq
          · rwa [heq, ← hs.scope_eq]
          · rw [heq, hbase]
            exact h.loaded_base hqueue hbase

omit h hqueue hregular hbase in
/-- What an include leads to is reached with the rule that has the include. -/
theorem reached_of_follow
    {s s' : Surroundings}
    {p p' : PlacedRule}
    (hs : s.Serves available p)
    (hp : Reached available base handled p)
    {r : Reference}
    (hr : p.RefersTo r)
    {rules : List PlacedRule}
    (hrules : followReference base s r = .inl (s', rules))
    (hp' : p' ∈ rules) :
    Reached available base handled p' :=
  hp.leads (.follow hs hr hrules hp')

/-- The grammars that a walk knows have been loaded. -/
theorem loaded_of_known
    {s : Surroundings}
    {p : PlacedRule}
    (hs : s.Serves available p)
    (hp : Reached available base handled p)
    {scope : String}
    {g : RawGrammar}
    (hg : knownGrammar base s.grammar scope = some g) :
    available.get? scope = some g ∧ loaded.get? scope = some g := by
  obtain ⟨rfl | rfl, rfl⟩ := knownGrammar_eq_some hg
  · refine ⟨hs.known, ?_⟩
    rw [← hs.scope_eq, h.loaded_of_reached hqueue hregular hbase hp, hs.scope_eq, hs.known]
  · exact ⟨hbase, h.loaded_base hqueue hbase⟩

omit hqueue hregular hbase in
theorem covers_of_asks
    {p : PlacedRule}
    (hp : Reached available base handled p)
    {r : Request}
    (hr : Asks available base p r) :
    q.covers r := by
  obtain ⟨r', hr', first, hfirst, hreaches⟩ := hp
  exact h.answered r' hr' first hfirst p hreaches r hr

/-- The root patterns of another grammar: they are known, or their grammar is requested. -/
theorem resolve_whole
    {s : Surroundings}
    {p : PlacedRule}
    (hs : s.Serves available p)
    (hp : Reached available base handled p)
    {scope : String}
    (hr : p.RefersTo (.whole scope)) :
    loaded.get? scope = available.get? scope ∧ ∀ g, available.get? scope = some g →
      Target.Reached available loaded base handled (.root g) := by
  cases hknown : knownGrammar base s.grammar scope with
  | some g =>
      obtain ⟨havailable, hloaded⟩ := h.loaded_of_known hqueue hregular hbase hs hp hknown
      refine ⟨hloaded.trans havailable.symm, fun g' hg' => ?_⟩
      obtain rfl : g = g' := Option.some.inj (havailable.symm.trans hg')
      obtain rfl := scopeName_of_get? havailable
      have hfollow : followReference base s (.whole g.scopeName) = .inl (.root g, rootRules g) := by
        simp [followReference, hknown]
      exact ⟨havailable, hloaded, fun p' hp' => reached_of_follow hs hp hr hfollow hp'⟩
  | none =>
      have hasks : Asks available base p (.whole scope) :=
        ⟨s, _, hs, hr, by simp [followReference, hknown]⟩
      have hcovers := h.covers_of_asks hp hasks
      have hloaded := h.loaded_of_covers hqueue hasks.plain hcovers
      refine ⟨hloaded, fun g hg => ?_⟩
      obtain rfl := scopeName_of_get? hg
      refine ⟨hg, hloaded.trans hg, fun p' hp' => h.reached_of_mem_wholes hqueue ?_ hg hp'⟩
      simpa [covers] using hcovers

/-- A named rule of another grammar: it is known, or requested by name, or within reach of the root
patterns that are requested. -/
theorem resolve_part
    (hparts : PartsWithin available base q)
    {s : Surroundings}
    {p : PlacedRule}
    (hs : s.Serves available p)
    (hp : Reached available base handled p)
    {scope name : String}
    (hr : p.RefersTo (.part scope name)) :
    loaded.get? scope = available.get? scope ∧ ∀ g target, available.get? scope = some g →
      (Surroundings.root g).lookup name = some target →
      Target.Reached available loaded base handled (.rule (.root g) target) := by
  have hserves : ∀ {g target}, available.get? scope = some g →
      (Surroundings.root g).lookup name = some target →
      (Surroundings.root g).Serves available target := by
    intro g target hg htarget
    refine Surroundings.serves_root ?_ (mem_children_of_lookup_root htarget)
    rw [scopeName_of_get? hg, hg]
  cases hknown : knownGrammar base s.grammar scope with
  | some g =>
      obtain ⟨havailable, hloaded⟩ := h.loaded_of_known hqueue hregular hbase hs hp hknown
      refine ⟨hloaded.trans havailable.symm, fun g' target hg' htarget => ?_⟩
      obtain rfl : g = g' := Option.some.inj (havailable.symm.trans hg')
      have hfollow : followReference base s (.part scope name) = .inl (.root g, [target]) := by
        simp [followReference, hknown, htarget]
      exact ⟨hserves hg' htarget, reached_of_follow hs hp hr hfollow List.mem_cons_self⟩
  | none =>
      have hasks : Asks available base p (.part scope name) :=
        ⟨s, _, hs, hr, by simp [followReference, hknown]⟩
      have hcovers := h.covers_of_asks hp hasks
      refine ⟨h.loaded_of_covers hqueue hasks.plain hcovers, fun g target hg htarget => ?_⟩
      refine ⟨hserves hg htarget, ?_⟩
      rcases (by simpa [covers] using hcovers : scope ∈ q.wholes ∨ _ ∈ q.parts) with hmem | hmem
      · obtain ⟨first, hfirst, hreaches⟩ := hparts hmem hasks hg htarget
        obtain ⟨r, hr, start, hstart, hto⟩ := h.reached_of_mem_wholes hqueue hmem hg hfirst
        exact ⟨r, hr, start, hstart, hto.trans hreaches⟩
      · refine ⟨_, h.mem_handled_of_mem_parts hqueue hasks.plain hmem, target, ?_, .refl⟩
        simp [requestedRules, Request.scope, hg, startRules, htarget]

omit hregular in
theorem root_reached :
    Target.Reached available loaded base handled (.root base) := by
  refine ⟨hbase, h.loaded_base hqueue hbase, fun p hp => ?_⟩
  refine h.reached_of_mem_wholes hqueue ?_ hbase hp
  simpa [covers] using h.first

/-- A name means the same to the walk and to the compiler, which both look it up around the rule. -/
theorem resolve_named
    {s : Surroundings}
    {p : PlacedRule}
    (hs : s.Serves available p)
    (hp : Reached available base handled p)
    {name : String}
    (hr : p.RefersTo (.named name)) :
    targetOf? ⟨loaded, base⟩ s (.named name) = targetOf? ⟨available, base⟩ s (.named name) ∧
      ∀ t, targetOf? ⟨available, base⟩ s (.named name) = some t →
        t.Reached available loaded base handled := by
  by_cases hinitial : name = "$base"
  · subst hinitial
    refine ⟨rfl, ?_⟩
    rintro t ⟨⟩
    exact h.root_reached hqueue hbase
  · have hself : name ≠ "$self" := by
      rintro rfl
      obtain ⟨s₀, hwritten, -⟩ := hs.written
      exact (hregular hs.known).proper hwritten hr
    simp only [targetOf?]
    refine ⟨trivial, fun t ht => ?_⟩
    obtain ⟨target, htarget, rfl⟩ := Option.map_eq_some_iff.mp ht
    refine ⟨hs.of_lookup hregular hr htarget, reached_of_follow hs hp hr rfl ?_⟩
    simpa using htarget

/-- What has been loaded is enough to resolve an include, and the include stays in reach. -/
theorem resolve_reference
    (hparts : PartsWithin available base q)
    {s : Surroundings}
    {p : PlacedRule}
    (hs : s.Serves available p)
    (hp : Reached available base handled p)
    {r : Reference}
    (hr : p.RefersTo r) :
    targetOf? ⟨loaded, base⟩ s r = targetOf? ⟨available, base⟩ s r ∧
      ∀ t, targetOf? ⟨available, base⟩ s r = some t →
        t.Reached available loaded base handled := by
  have hloaded := h.loaded_base hqueue hbase
  cases r with
  | base =>
      refine ⟨rfl, ?_⟩
      rintro t ⟨⟩
      exact h.root_reached hqueue hbase
  | self =>
      refine ⟨rfl, ?_⟩
      rintro t ⟨⟩
      have hknown := h.loaded_of_reached hqueue hregular hbase hp
      rw [hs.scope_eq, hs.known] at hknown
      exact ⟨hs.known, hknown, fun p' hp' => reached_of_follow hs hp hr rfl hp'⟩
  | named name =>
      exact h.resolve_named hqueue hregular hbase hs hp hr
  | whole scope =>
      obtain ⟨hsame, hreached⟩ := h.resolve_whole hqueue hregular hbase hs hp hr
      simp only [targetOf?, grammar?_eq_get? hloaded, grammar?_eq_get? hbase, hsame]
      refine ⟨trivial, fun t ht => ?_⟩
      obtain ⟨g, hg, rfl⟩ := Option.map_eq_some_iff.mp ht
      exact hreached g hg
  | part scope name =>
      obtain ⟨hsame, hreached⟩ := h.resolve_part hqueue hregular hbase hparts hs hp hr
      simp only [targetOf?, grammar?_eq_get? hloaded, grammar?_eq_get? hbase, hsame]
      refine ⟨trivial, fun t ht => ?_⟩
      obtain ⟨g, hg, ht⟩ := Option.bind_eq_some_iff.mp ht
      obtain ⟨target, htarget, ht⟩ := Option.bind_eq_some_iff.mp ht
      cases ht
      exact hreached g target hg htarget

/-- Compilers that know what has been loaded and what is available resolve all includes alike. -/
theorem resolveAlike
    (hparts : PartsWithin available base q) :
    Sources.ResolveAlike ⟨loaded, base⟩ ⟨available, base⟩
      (Target.Reached available loaded base handled) := by
  constructor
  · rintro s p ⟨hs, hp⟩
    exact ⟨hs.enter, hp⟩
  · rintro s p p' ⟨hs, hp⟩ hp'
    have hchild := mem_children_of_mem_innerRules hp'
    refine ⟨?_, hp.leads (.inner hp')⟩
    unfold Surroundings.within
    split
    · exact hs.enter_child hchild
    · rename_i hgroup
      exact hs.child (by simpa using hgroup) hchild
  · rintro g p ⟨hg, -, hroot⟩ hp
    exact ⟨Surroundings.serves_root hg (mem_children_of_mem_rootRules hp), hroot p hp⟩
  · rintro s p text ⟨hs, hp⟩ htext
    have hr : p.RefersTo (.ofText text) := by
      simp [PlacedRule.RefersTo, htext]
    obtain ⟨hsame, hreached⟩ := h.resolve_reference hqueue hregular hbase hparts hs hp hr
    exact ⟨hsame, hsame ▸ hreached⟩

end Requests.Discovered

end LineScopes
