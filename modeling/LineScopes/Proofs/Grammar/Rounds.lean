import LineScopes.Proofs.Grammar.Requests
import Mathlib.Logic.Relation

/-!
# What the rounds load

In every round the queue is loaded, as far as grammars are available, and walked for new requests.
When the queue is empty, every request that was ever made has been walked, and whatever is reached
from it asks for nothing new. The rounds end, because every round with a new request leaves fewer
possible requests behind.

**Main definitions.** `Reaches`, `Library.supply`, `Rounds`, `Requests.Discovered`, `unrequested`.

**Main statements.** `Requests.Discovered.round`: what one round preserves. `Rounds.discovered`: by
induction over the rounds. `Rounds.exists_end`: the rounds end.
-/

namespace LineScopes

/-- A walk that comes to the first rule also comes to the second one. -/
abbrev Reaches
    (available : Library)
    (base : RawGrammar) : PlacedRule → PlacedRule → Prop :=
  Relation.ReflTransGen (Leads available base)

namespace Library

/-- Loads the grammar of a request, if it is available. -/
def supplyOne
    (available loaded : Library)
    (r : Request) : Library :=
  match available.get? r.scope with
  | some g => loaded.insert g
  | none => loaded

/-- Loads the grammars of a queue. -/
def supply
    (available loaded : Library)
    (queue : List Request) : Library :=
  queue.foldl (supplyOne available) loaded

/-- All grammars of a library are available. -/
def Within (l available : Library) : Prop :=
  ∀ {scope : String} {g : RawGrammar}, l.get? scope = some g → available.get? scope = some g

theorem get?_insert_of_ne
    (l : Library)
    {g : RawGrammar}
    {scope : String}
    (h : g.scopeName ≠ scope) :
    (l.insert g).get? scope = l.get? scope := by
  obtain ⟨gs⟩ := l
  simp only [insert, get?]
  induction gs with
  | nil =>
      simp [replaceGrammar, h]
  | cons g' rest ih =>
      by_cases hsame : g'.scopeName = g.scopeName
      · simp [replaceGrammar, hsame, h]
      · by_cases hscope : g'.scopeName = scope
        · simp [replaceGrammar, hscope, h.symm]
        · simpa [replaceGrammar, hsame, hscope] using ih

/-- A load changes at most the grammar of its request, to the one that is available. -/
theorem get?_supplyOne
    (available loaded : Library)
    (scope : String)
    (r : Request) :
    (supplyOne available loaded r).get? scope = loaded.get? scope ∨
      (supplyOne available loaded r).get? scope = available.get? scope := by
  unfold supplyOne
  cases h : available.get? r.scope with
  | none =>
      exact Or.inl rfl
  | some g =>
      by_cases hscope : g.scopeName = scope
      · subst hscope
        right
        rw [get?_insert_self, scopeName_of_get? h, h]
      · exact Or.inl (get?_insert_of_ne loaded hscope)

variable {available loaded : Library} {scope : String}

theorem Within.supplyOne
    (h : loaded.Within available)
    (r : Request) :
    (supplyOne available loaded r).Within available := by
  intro scope g hg
  rcases get?_supplyOne available loaded scope r with heq | heq
  · exact h (heq ▸ hg)
  · exact heq ▸ hg

theorem get?_supplyOne_self
    (h : loaded.Within available)
    (r : Request) :
    (supplyOne available loaded r).get? r.scope = available.get? r.scope := by
  unfold supplyOne
  cases hg : available.get? r.scope with
  | none =>
      cases hloaded : loaded.get? r.scope with
      | none =>
          rfl
      | some g =>
          rw [h hloaded] at hg
          cases hg
  | some g =>
      rw [← scopeName_of_get? hg, get?_insert_self]

theorem Within.supply
    (h : loaded.Within available)
    (queue : List Request) :
    (supply available loaded queue).Within available := by
  induction queue generalizing loaded with
  | nil =>
      exact h
  | cons r rest ih =>
      exact ih (h.supplyOne r)

/-- A grammar that has been loaded stays. -/
theorem get?_supply_of_eq
    (h : loaded.get? scope = available.get? scope)
    (queue : List Request) :
    (supply available loaded queue).get? scope = available.get? scope := by
  induction queue generalizing loaded with
  | nil =>
      exact h
  | cons r rest ih =>
      refine ih ?_
      rcases get?_supplyOne available loaded scope r with heq | heq
      · rw [heq, h]
      · exact heq

/-- The grammars of a queue are loaded. -/
theorem get?_supply_of_mem
    (h : loaded.Within available)
    {queue : List Request}
    {r : Request}
    (hr : r ∈ queue) :
    (supply available loaded queue).get? r.scope = available.get? r.scope := by
  induction queue generalizing loaded with
  | nil =>
      cases hr
  | cons r' rest ih =>
      rcases List.mem_cons.mp hr with rfl | hr
      · exact get?_supply_of_eq (get?_supplyOne_self h r) rest
      · exact ih (h.supplyOne r') hr

end Library

/-- What the rounds load and request, when everything that is available can be loaded. -/
inductive Rounds
    (available : Library)
    (injected : String → List String)
    (initial : String) : Library → Requests → Prop
  | start : Rounds _ _ _ .empty (.start initial)
  | round {loaded : Library} {q q' : Requests} (h : Rounds available injected initial loaded q)
    (hnext : q.next (available.supply loaded q.queue) injected = .ok q') :
    Rounds _ _ _ (available.supply loaded q.queue) q'

namespace Requests

/-- The walk of one request in a library that has the initial grammar. -/
def collected
    (base : RawGrammar)
    (library : Library)
    (injected : String → List String)
    (w : Walk)
    (r : Request) : Walk :=
  match library.get? r.scope with
  | none => w
  | some self => (injected r.scope).foldl (fun w s => w.add (.whole s)) (walkRequest base self r w)

variable {available library : Library} {base : RawGrammar} {injected : String → List String}

theorem collect_eq
    {initial : String}
    (hbase : library.get? initial = some base)
    (w : Walk)
    (r : Request) :
    collect initial library injected w r = .ok (collected base library injected w r) := by
  unfold collect collected
  cases hself : library.get? r.scope with
  | none =>
      have hne : r.scope ≠ initial := by
        rintro rfl
        rw [hself] at hbase
        cases hbase
      simp [hne]
  | some self =>
      simp [hbase]

/-- A round ends well if the initial grammar has been loaded. -/
theorem next_eq
    {q : Requests}
    (hbase : library.get? q.initial = some base) :
    q.next library injected =
      .ok ((q.queue.foldl (collected base library injected) {}).found.foldl enqueue
        { q with queue := [] }) := by
  have hfold : ∀ (queue : List Request) (w : Walk),
      queue.foldlM (collect q.initial library injected) w =
        .ok (queue.foldl (collected base library injected) w) := by
    intro queue
    induction queue with
    | nil =>
        exact fun w => rfl
    | cons r rest ih =>
        intro w
        rw [List.foldlM_cons, collect_eq hbase, List.foldl_cons, ← ih]
        rfl
  unfold next
  rw [hfold]
  rfl

end Requests

section Round

variable {available library : Library} {base : RawGrammar} (injected : String → List String)
variable (hregular : available.Regular) (hbase : available.get? base.scopeName = some base)
include hregular hbase

/-- The walk of a request whose grammar has been loaded. -/
theorem collected_explores
    {r : Request}
    (hr : library.get? r.scope = available.get? r.scope)
    (w : Walk) :
    w.Explores available base injected (Requests.collected base library injected w r) ∧
      ∀ q ∈ requestedRules available r,
        q.address ∈ (Requests.collected base library injected w r).visited := by
  unfold Requests.collected requestedRules
  rw [hr]
  cases hself : available.get? r.scope with
  | none =>
      exact ⟨.refl w, by simp⟩
  | some self =>
      have hscope := scopeName_of_get? hself
      have hknown : available.get? self.scopeName = some self := by
        rwa [hscope]
      obtain ⟨hwalk, hvisited⟩ := walkRequest_explores hregular hbase injected hknown r w
      have hrequested : ∀ scope ∈ injected r.scope,
          Requested available base injected (.whole scope) := by
        intro scope h
        exact .injected hknown (by rwa [hscope])
      have hinjected := Walk.explores_foldl_add hrequested (walkRequest base self r w)
      exact ⟨hwalk.trans hinjected, fun q hq => hinjected.visited (hvisited q hq)⟩

/-- The walk of a whole queue visits what the queue requests. -/
theorem foldl_collected_explores
    {queue : List Request}
    (hqueue : ∀ r ∈ queue, library.get? r.scope = available.get? r.scope)
    (w : Walk) :
    w.Explores available base injected (queue.foldl (Requests.collected base library injected) w) ∧
      ∀ r ∈ queue, ∀ q ∈ requestedRules available r,
        q.address ∈ (queue.foldl (Requests.collected base library injected) w).visited := by
  have h := foldl_explores (fun _ => True)
    (fun r => (requestedRules available r).map PlacedRule.address) (fun _ h => h)
    (fun r hr w _ => by
      simpa [List.subset_def] using
        collected_explores injected hregular hbase (hqueue r hr) w) w trivial
  simpa [List.subset_def] using h

omit hbase in
/-- A walk that is done with all it visited is done with whatever is reached from there. -/
theorem answers_of_reaches
    (hbase : available.get? base.scopeName = some base)
    {w : Walk}
    (hw : Walk.Explores available base injected {} w)
    {s : Surroundings}
    {p q : PlacedRule}
    (hs : s.Serves available p)
    (hp : p.address ∈ w.visited)
    (hreaches : Reaches available base p q) :
    w.Answers available base q := by
  have hanswers : ∀ {s q}, Surroundings.Serves available s q → q.address ∈ w.visited →
      w.Answers available base q :=
    fun hs hq => hw.answers hs hq (by simp)
  suffices h : (∃ s', Surroundings.Serves available s' q) ∧ q.address ∈ w.visited by
    obtain ⟨⟨s', hs'⟩, hq⟩ := h
    exact hanswers hs' hq
  induction hreaches with
  | refl =>
      exact ⟨⟨s, hs⟩, hp⟩
  | tail _ hleads ih =>
      obtain ⟨⟨s', hs'⟩, hmid⟩ := ih
      exact ⟨hleads.serves hregular hbase hs', (hanswers hs' hmid).leads hleads⟩

end Round

/-- What has been discovered: which requests have been handled, that their grammars are loaded, and
that all they ask for is covered. -/
structure Requests.Discovered
    (available : Library)
    (base : RawGrammar)
    (loaded : Library)
    (q : Requests)
    (handled : List Request) : Prop where
  initial : q.initial = base.scopeName
  first : q.covers (.whole base.scopeName)
  within : loaded.Within available
  loaded : ∀ r ∈ handled, loaded.get? r.scope = available.get? r.scope
  wholes : ∀ scope ∈ q.wholes, .whole scope ∈ handled ++ q.queue
  parts : ∀ key ∈ q.parts, ∃ scope name, (Request.part scope name).Plain ∧
    (Request.part scope name).key = key ∧ .part scope name ∈ handled ++ q.queue
  answered : ∀ r ∈ handled, ∀ p₀ ∈ requestedRules available r, ∀ p, Reaches available base p₀ p →
    ∀ r', Asks available base p r' → q.covers r'

namespace Requests.Discovered

variable {available loaded : Library} {base : RawGrammar} {injected : String → List String}
variable {q : Requests} {handled : List Request}

theorem start
    (base : RawGrammar)
    (available : Library) :
    Discovered available base .empty (.start base.scopeName) [] := by
  constructor
  · rfl
  · simp [covers, Requests.start]
  · intro scope g hg
    cases hg
  · simp
  · intro scope hscope
    simpa [Requests.start] using hscope
  · simp [Requests.start]
  · simp

/-- After the queue has been loaded, everything handled so far and in the queue has been. -/
theorem get?_supply
    (h : Discovered available base loaded q handled)
    {r : Request}
    (hr : r ∈ handled ++ q.queue) :
    (available.supply loaded q.queue).get? r.scope = available.get? r.scope := by
  rcases List.mem_append.mp hr with hr | hr
  · exact Library.get?_supply_of_eq (h.loaded r hr) q.queue
  · exact Library.get?_supply_of_mem h.within hr

variable (hbase : available.get? base.scopeName = some base)
include hbase

theorem get?_supply_initial
    (h : Discovered available base loaded q handled) :
    (available.supply loaded q.queue).get? q.initial = some base := by
  have hfirst : base.scopeName ∈ q.wholes := by
    simpa [covers] using h.first
  rw [h.initial, ← hbase]
  exact h.get?_supply (h.wholes _ hfirst)

variable (hregular : available.Regular)
  (hinjected : ∀ scope, ∀ scope' ∈ injected scope, '#' ∉ scope'.toList)
include hregular hinjected

/-- What a walk of the queue has found, and what is reached from it asks for. -/
theorem mem_found_of_asks
    {w : Walk}
    (hw : Walk.Explores available base injected {} w)
    {first p : PlacedRule}
    {s : Surroundings}
    (hfirst : s.Serves available first)
    (hvisited : first.address ∈ w.visited)
    (hreaches : Reaches available base first p)
    {r : Request}
    (hasks : Asks available base p r) :
    r ∈ w.found := by
  have hanswers := answers_of_reaches injected hregular hbase hw hfirst hvisited hreaches
  obtain ⟨r', hfound, hkey⟩ := hanswers.asks hasks
  have hrequested := (hw.requested r' hfound).resolve_left (by simp)
  obtain rfl := Request.eq_of_key_eq (hrequested.plain hinjected) hasks.plain hkey
  exact hfound

/-- A round handles its queue; the new queue has what was asked for and not covered. -/
theorem round
    (h : Discovered available base loaded q handled) :
    ∃ q' found, q.next (available.supply loaded q.queue) injected = .ok q' ∧
      Grows found { q with queue := [] } q' ∧
      (∀ r ∈ found, Requested available base injected r) ∧
      Discovered available base (available.supply loaded q.queue) q' (handled ++ q.queue) := by
  obtain ⟨hexplores, hvisited⟩ := foldl_collected_explores injected hregular hbase
    (fun r hr => h.get?_supply (List.mem_append_right _ hr)) {}
  have hnext : q.next (available.supply loaded q.queue) injected = _ :=
    next_eq (h.get?_supply_initial hbase)
  generalize q.queue.foldl (collected base (available.supply loaded q.queue) injected) {} = w
    at hexplores hvisited hnext
  have hrequested : ∀ r ∈ w.found, Requested available base injected r :=
    fun r hr => (hexplores.requested r hr).resolve_left (by simp)
  obtain ⟨hgrows, hcovered⟩ := foldl_enqueue_grows (fun _ h => h : w.found ⊆ w.found)
    { q with queue := [] }
  refine ⟨w.found.foldl enqueue { q with queue := [] }, w.found, hnext, hgrows, hrequested, ?_⟩
  constructor
  · rw [hgrows.initial, h.initial]
  · exact hgrows.covers h.first
  · exact Library.Within.supply h.within q.queue
  · exact fun r hr => h.get?_supply hr
  · intro scope hscope
    rcases hgrows.wholes scope hscope with hscope | hscope
    · exact List.mem_append_left _ (h.wholes scope hscope)
    · exact List.mem_append_right _ hscope
  · intro key hkey
    rcases hgrows.parts key hkey with hkey | ⟨scope, name, hmem, rfl⟩
    · obtain ⟨scope, name, hplain, rfl, hmem⟩ := h.parts key hkey
      exact ⟨scope, name, hplain, rfl, List.mem_append_left _ hmem⟩
    · obtain ⟨hfound, -⟩ := (hgrows.joined _ hmem).resolve_left (by simp)
      exact ⟨scope, name, (hrequested _ hfound).plain hinjected, rfl,
        List.mem_append_right _ hmem⟩
  · intro r hr first hfirst p hreaches r' hasks
    rcases List.mem_append.mp hr with hr | hr
    · exact hgrows.covers (h.answered r hr first hfirst p hreaches r' hasks)
    · obtain ⟨s, hs⟩ := exists_serves_of_mem_requestedRules hfirst
      exact hcovered r' (mem_found_of_asks hbase hregular hinjected hexplores hs
        (hvisited r hr first hfirst) hreaches hasks)

end Requests.Discovered

/-- How many of the possible requests are not covered. -/
def unrequested
    (available : Library)
    (base : RawGrammar)
    (injected : String → List String)
    (q : Requests) : Nat :=
  (possibleRequests available base injected).countP fun r => !q.covers r

namespace Rounds

variable {available : Library} {base : RawGrammar} {injected : String → List String}
variable (hregular : available.Regular) (hbase : available.get? base.scopeName = some base)
  (hinjected : ∀ scope, ∀ scope' ∈ injected scope, '#' ∉ scope'.toList)
include hregular hbase hinjected

/-- After every round, what has been handled is loaded and what it asks for is covered. -/
theorem discovered
    {loaded : Library}
    {q : Requests}
    (h : Rounds available injected base.scopeName loaded q) :
    ∃ handled, q.Discovered available base loaded handled := by
  induction h with
  | start =>
      exact ⟨[], .start base available⟩
  | round _ hnext ih =>
      obtain ⟨handled, hdiscovered⟩ := ih
      obtain ⟨q'', found, hok, -, -, hround⟩ := hdiscovered.round hbase hregular hinjected
      rw [hok] at hnext
      cases hnext
      exact ⟨_, hround⟩

omit hregular hbase hinjected in
/-- A round whose new queue is not empty covers a possible request that was not covered. -/
theorem unrequested_lt
    {q q' : Requests}
    {found : List Request}
    (hgrows : Requests.Grows found { q with queue := [] } q')
    (hfound : ∀ r ∈ found, Requested available base injected r)
    (hqueue : q'.queue ≠ []) :
    unrequested available base injected q' < unrequested available base injected q := by
  obtain ⟨r, hr⟩ := List.exists_mem_of_ne_nil _ hqueue
  obtain ⟨hmem, hnew, hcovered⟩ := (hgrows.joined r hr).resolve_left (by simp)
  refine countP_lt_countP ?_ (mem_possibleRequests (hfound r hmem)) (by simpa using hcovered) ?_
  · intro r' _ hr'
    simp only [Bool.not_eq_true'] at hr' ⊢
    exact Bool.eq_false_iff.mpr fun hold => Bool.eq_false_iff.mp hr' (hgrows.covers hold)
  · simpa using hnew

/-- The rounds end: no round fails, and sooner or later nothing new is requested. -/
theorem exists_end :
    ∃ loaded q, Rounds available injected base.scopeName loaded q ∧ q.queue = [] := by
  have hend : ∀ n loaded q, Rounds available injected base.scopeName loaded q →
      unrequested available base injected q < n →
      ∃ loaded' q', Rounds available injected base.scopeName loaded' q' ∧ q'.queue = [] := by
    intro n
    induction n with
    | zero =>
        intro loaded q _ hn
        omega
    | succ n ih =>
        intro loaded q hrounds hn
        obtain ⟨handled, hdiscovered⟩ := hrounds.discovered hregular hbase hinjected
        obtain ⟨q', found, hnext, hgrows, hfound, -⟩ :=
          hdiscovered.round hbase hregular hinjected
        have hround := hrounds.round hnext
        by_cases hqueue : q'.queue = []
        · exact ⟨_, q', hround, hqueue⟩
        · have hlt := unrequested_lt hgrows hfound hqueue
          exact ih _ q' hround (by omega)
  exact hend _ _ _ .start (Nat.lt_succ_self _)

end Rounds

end LineScopes
