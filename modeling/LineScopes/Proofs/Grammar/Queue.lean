import LineScopes.Proofs.Grammar.Completeness
import LineScopes.Proofs.Grammar.Traversal
import Mathlib.Data.List.Dedup
import Mathlib.Data.List.Perm.Subperm

/-!
# Nothing is queued twice

Each call takes the queue and fills it again, from grammars and injection lists of its own: between
two calls grammars may be missing, appear or be replaced, and a call may fail. Whatever is queued is
covered from then on, and nothing that is covered is queued. So a sequence of calls queues nothing
twice, and with finitely many references to queue the queue runs empty.

**Main definitions.** `Call`, `Requests.after`, `Requests.queued`, `Requests.Unrepeated`,
`suppliedRequests`.

**Main statements.** `Unrepeated.enqueue`: what one request preserves. `Unrepeated.queued`: by
induction over the calls. `requests_end`: over all calls nothing is queued twice, every walk ends,
and so do the calls.
-/

namespace LineScopes

/-- What one call is given. -/
structure Call where
  library : Library
  /-- The scopes of the grammars that are injected into the grammar of a scope. -/
  injected : String → List String

/-- The requests that grammars and injection lists make. -/
def suppliedRequests
    (grammars : List RawGrammar)
    (listed : List String) : List Request :=
  grammars.flatMap RawGrammar.requests ++ listed.map .whole

/-- A call is given nothing but these grammars and injects nothing but these scopes. -/
structure Call.Within
    (c : Call)
    (grammars : List RawGrammar)
    (listed : List String) : Prop where
  grammars : c.library.grammars ⊆ grammars
  listed : ∀ scope, c.injected scope ⊆ listed

namespace Requests

/-- The requests after one call. -/
def call
    (q : Requests)
    (c : Call) : Requests :=
  (q.advance c.library c.injected).1

/-- The requests after calls, one after the other. -/
def after
    (q : Requests)
    (calls : List Call) : Requests :=
  calls.foldl call q

/-- What is in the queue and what the calls put into it, in this order. -/
def queued
    (q : Requests) : List Call → List Request
  | [] => q.queue
  | c :: rest => q.queue ++ (q.call c).queued rest

section Supplied

variable {q : Requests} {c : Call} {grammars : List RawGrammar} {listed : List String}

/-- What is found for one request is among what the call supplies. -/
theorem found_collect
    (hc : c.Within grammars listed)
    {initial : String}
    {w w' : Walk}
    {r : Request}
    (h : collect initial c.library c.injected w r = .ok w') :
    w'.found ⊆ w.found ++ suppliedRequests grammars listed := by
  have hrequests : ∀ {scope g}, c.library.get? scope = some g →
      g.requests ⊆ suppliedRequests grammars listed := by
    intro scope g hg r hr
    have hmem := hc.grammars (List.mem_of_find?_eq_some hg)
    exact List.mem_append_left _ (List.mem_flatMap.mpr ⟨g, hmem, hr⟩)
  unfold collect at h
  cases hself : c.library.get? r.scope with
  | none =>
      simp only [hself] at h
      split at h
      · cases h
      · cases h
        exact List.subset_append_left _ _
  | some self =>
      cases hbase : c.library.get? initial with
      | none =>
          simp [hself, hbase] at h
      | some base =>
          simp only [hself, hbase, Except.ok.injEq] at h
          subst h
          refine List.foldlRecOn (motive := fun w' : Walk => w'.found ⊆ _) _ _ ?_ ?_
          · intro r' hr'
            rcases List.mem_append.mp (found_walkRequest base self r w hr') with hr' | hr'
            · exact List.mem_append_left _ hr'
            · rcases List.mem_append.mp hr' with hr' | hr'
              · exact List.mem_append_right _ (hrequests hbase hr')
              · exact List.mem_append_right _ (hrequests hself hr')
          · intro w₁ hw₁ scope hscope r' hr'
            rcases Walk.mem_found_add hr' with hr' | rfl
            · exact hw₁ hr'
            · refine List.mem_append_right _ (List.mem_append_right _ ?_)
              exact List.mem_map_of_mem (hc.listed _ hscope)

theorem found_foldlM_collect
    (hc : c.Within grammars listed)
    {initial : String}
    {queue : List Request}
    {w w' : Walk}
    (h : queue.foldlM (collect initial c.library c.injected) w = .ok w') :
    w'.found ⊆ w.found ++ suppliedRequests grammars listed := by
  induction queue generalizing w with
  | nil =>
      cases h
      exact List.subset_append_left _ _
  | cons r rest ih =>
      rw [List.foldlM_cons] at h
      cases hfirst : collect initial c.library c.injected w r with
      | error e =>
          simp [hfirst, bind, Except.bind] at h
      | ok w₁ =>
          rw [hfirst] at h
          intro r' hr'
          rcases List.mem_append.mp (ih h hr') with hr' | hr'
          · exact found_collect hc hfirst hr'
          · exact List.mem_append_right _ hr'

/-- A call takes the queue and enqueues what it finds, which is nothing if it fails. -/
theorem exists_found
    (q : Requests)
    (c : Call) :
    ∃ found, q.call c = found.foldl enqueue { q with queue := [] } ∧
      (q.queue = [] → found = []) ∧
      ∀ grammars listed, c.Within grammars listed → found ⊆ suppliedRequests grammars listed := by
  simp only [call, advance, next]
  cases hw : q.queue.foldlM (collect q.initial c.library c.injected) {} with
  | error e =>
      exact ⟨[], rfl, fun _ => rfl, fun _ _ _ => List.nil_subset _⟩
  | ok w =>
      refine ⟨w.found, rfl, fun hempty => ?_, fun grammars listed hc => ?_⟩
      · rw [hempty] at hw
        cases hw
        rfl
      · simpa using found_foldlM_collect hc hw

/-- What is in the queue after a call is supplied by the call. -/
theorem queue_call_subset
    (q : Requests)
    (hc : c.Within grammars listed) :
    (q.call c).queue ⊆ suppliedRequests grammars listed := by
  obtain ⟨found, hcall, -, hfound⟩ := q.exists_found c
  obtain ⟨hgrows, -⟩ := foldl_enqueue_grows (hfound grammars listed hc) { q with queue := [] }
  intro r hr
  rw [hcall] at hr
  rcases hgrows.joined r hr with hr | ⟨hr, -, -⟩
  · cases hr
  · exact hr

/-- What the calls put into the queue is supplied by them. -/
theorem queued_subset
    {calls : List Call}
    (hcalls : ∀ c ∈ calls, c.Within grammars listed) :
    q.queued calls ⊆ q.queue ++ suppliedRequests grammars listed := by
  induction calls generalizing q with
  | nil =>
      exact List.subset_append_left _ _
  | cons c rest ih =>
      obtain ⟨hc, hrest⟩ := List.forall_mem_cons.mp hcalls
      refine List.append_subset.mpr ⟨List.subset_append_left _ _, fun r hr => ?_⟩
      refine List.mem_append_right _ ?_
      rcases List.mem_append.mp (ih hrest hr) with hr | hr
      · exact queue_call_subset q hc hr
      · exact hr

/-- An empty queue stays empty. -/
theorem queue_after_of_empty
    (h : q.queue = [])
    (calls : List Call) :
    (q.after calls).queue = [] := by
  induction calls generalizing q with
  | nil =>
      exact h
  | cons c rest ih =>
      obtain ⟨found, hcall, hfound, -⟩ := q.exists_found c
      refine ih (q := q.call c) ?_
      rw [hcall, hfound h]
      rfl

/-- As long as the queue does not run empty, something is queued for every call. -/
theorem length_queued
    {calls : List Call}
    (h : (q.after calls).queue ≠ []) :
    calls.length + 1 ≤ (q.queued calls).length := by
  induction calls generalizing q with
  | nil =>
      exact List.length_pos_iff.mpr h
  | cons c rest ih =>
      have hrest := ih (q := q.call c) h
      have hqueue : q.queue ≠ [] := fun hempty =>
        h (queue_after_of_empty hempty (c :: rest))
      have hpos := List.length_pos_iff.mpr hqueue
      simp only [queued, List.length_append, List.length_cons]
      omega

end Supplied

section Unrepeated

/-- A request that comes later is no repetition of an earlier one, and is not a part of a grammar
that was requested as a whole. -/
def Repeats
    (earlier later : Request) : Prop :=
  earlier = later ∨ earlier = .whole later.scope

/-- All that has been queued is covered, and nothing was queued again. -/
structure Unrepeated
    (past : List Request)
    (q : Requests) : Prop where
  covered : ∀ r ∈ past ++ q.queue, q.covers r
  new : (past ++ q.queue).Pairwise fun earlier later => ¬ Repeats earlier later

theorem covers_of_covers_whole
    {q : Requests}
    {r : Request}
    (h : q.covers (.whole r.scope)) :
    q.covers r := by
  cases r with
  | whole scope =>
      exact h
  | part scope name =>
      have hscope : q.wholes.contains scope = true := h
      simp only [covers, hscope, Bool.true_or]

namespace Unrepeated

variable {past : List Request} {q : Requests}

theorem start
    (scope : String) :
    Unrepeated [] (Requests.start scope) := by
  constructor
  · simp [Requests.start, covers]
  · simp [Requests.start]

/-- What was in the queue is past once the queue is taken. -/
theorem take
    (h : Unrepeated past q) :
    Unrepeated (past ++ q.queue) { q with queue := [] } := by
  constructor
  · simpa using h.covered
  · simpa using h.new

/-- A request is queued only if nothing that was queued before covers it. -/
theorem enqueue
    (h : Unrepeated past q)
    (r : Request) :
    Unrepeated past (q.enqueue r) := by
  by_cases hcovers : q.covers r
  · rwa [enqueue_of_covers hcovers]
  · rw [enqueue_of_not_covers hcovers]
    have hgrows : Grows [r] q (q.join r) := join_grows List.mem_cons_self hcovers
    constructor
    · intro r' hr'
      rw [queue_join, ← List.append_assoc] at hr'
      rcases List.mem_append.mp hr' with hr' | hr'
      · exact hgrows.covers (h.covered r' hr')
      · obtain rfl := List.mem_singleton.mp hr'
        exact covers_join q r'
    · rw [queue_join, ← List.append_assoc, List.pairwise_append]
      refine ⟨h.new, List.pairwise_singleton _ _, ?_⟩
      rintro earlier hearlier later hlater hrepeats
      obtain rfl := List.mem_singleton.mp hlater
      have hcovered := h.covered earlier hearlier
      rcases hrepeats with rfl | rfl
      · exact hcovers hcovered
      · exact hcovers (covers_of_covers_whole hcovered)

/-- Between two calls nothing changes hands but the queue. -/
theorem call
    (h : Unrepeated past q)
    (c : Call) :
    Unrepeated (past ++ q.queue) (q.call c) := by
  obtain ⟨found, hcall, -, -⟩ := q.exists_found c
  rw [hcall]
  exact List.foldlRecOn (motive := Unrepeated _) _ _ h.take fun _ hq r _ => hq.enqueue r

/-- Over all calls nothing is queued again. -/
theorem queued
    (h : Unrepeated past q)
    (calls : List Call) :
    (past ++ q.queued calls).Pairwise fun earlier later => ¬ Repeats earlier later := by
  induction calls generalizing past q with
  | nil =>
      exact h.new
  | cons c rest ih =>
      simpa [Requests.queued] using ih (h.call c)

end Unrepeated

end Unrepeated

/-- The scope that everything starts from is queued first. -/
theorem exists_queued_start
    (scope : String)
    (calls : List Call) :
    ∃ later, (start scope).queued calls = .whole scope :: later := by
  cases calls with
  | nil =>
      exact ⟨[], rfl⟩
  | cons c rest =>
      exact ⟨_, rfl⟩

/-- Whatever the calls are given, nothing is queued twice, the initial scope is not queued again, and
no part of a grammar is queued after the grammar as a whole. The walks of each call end. If all that
the calls are given can request finitely many things, the queue is empty after one call more. -/
theorem requests_end
    (scope : String)
    (calls : List Call) :
    ((start scope).queued calls).Nodup ∧
      (∀ r ∈ ((start scope).queued calls).tail, r.scope ≠ scope) ∧
      (((start scope).queued calls).Pairwise fun earlier later => earlier ≠ .whole later.scope) ∧
      (∀ base self r w w', Traverses base (.root self) (startRules self r) w w' ↔
        w' = walkRequest base self r w) ∧
      ∀ grammars listed, (∀ c ∈ calls, c.Within grammars listed) →
        (suppliedRequests grammars listed).dedup.length + 1 ≤ calls.length →
        ((start scope).after calls).queue = [] := by
  have hnew : ((start scope).queued calls).Pairwise fun earlier later => ¬ Repeats earlier later := by
    simpa using (Unrepeated.start scope).queued calls
  have hnodup : ((start scope).queued calls).Nodup :=
    hnew.imp fun h heq => h (Or.inl heq)
  obtain ⟨later, hqueued⟩ := exists_queued_start scope calls
  refine ⟨hnodup, fun r hr heq => ?_, hnew.imp fun h heq => h (Or.inr heq),
    fun base self r w w' => traverses_iff, fun grammars listed hcalls hlength => ?_⟩
  · rw [hqueued] at hr hnew
    exact List.rel_of_pairwise_cons hnew hr (Or.inr (by rw [heq]))
  · -- else every call has queued something, and there are too many calls for that
    by_contra hne
    have hcount := length_queued hne
    have hsubset : later ⊆ (suppliedRequests grammars listed).dedup := by
      intro r hr
      have hmem : r ∈ (start scope).queued calls := by
        rw [hqueued]
        exact List.mem_cons_of_mem _ hr
      rcases List.mem_append.mp (queued_subset hcalls hmem) with hinitial | hmem
      · obtain rfl := List.mem_singleton.mp hinitial
        rw [hqueued] at hnodup
        exact absurd hr (List.nodup_cons.mp hnodup).1
      · exact List.mem_dedup.mpr hmem
    rw [hqueued] at hnodup hcount
    have hle := (List.subperm_of_subset (List.nodup_cons.mp hnodup).2 hsubset).length_le
    rw [List.length_cons] at hcount
    omega

/-- Three grammars that include each other make three requests, so four calls are enough. -/
theorem requests_end_page :
    (∀ c ∈ List.replicate 4 (Call.mk pageLibrary noInjections),
        c.Within pageLibrary.grammars []) ∧
      (suppliedRequests pageLibrary.grammars []).dedup.length + 1 ≤ 4 ∧
      ((start "text.page").after (List.replicate 4 ⟨pageLibrary, noInjections⟩)).queue = [] := by
  have hcalls : ∀ c ∈ List.replicate 4 (Call.mk pageLibrary noInjections),
      c.Within pageLibrary.grammars [] := by
    intro c hc
    obtain rfl := List.eq_of_mem_replicate hc
    exact ⟨fun _ h => h, fun _ => List.nil_subset _⟩
  have hcount : (suppliedRequests pageLibrary.grammars []).dedup.length + 1 ≤ 4 := by
    decide +kernel
  obtain ⟨-, -, -, -, hend⟩ :=
    requests_end "text.page" (List.replicate 4 ⟨pageLibrary, noInjections⟩)
  exact ⟨hcalls, hcount, hend _ _ hcalls (by simpa using hcount)⟩

end Requests

end LineScopes
