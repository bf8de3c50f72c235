import LineScopes.Proofs.Grammar.Walk
import Mathlib.Data.List.TakeWhile

/-!
# Requests and their queue

A request is put into the queue unless it is covered: its grammar was requested as a whole, or the
same part was. As long as no scope has a `#` in it, requests with the same key are the same. Only
finitely many requests can be made of the grammars of a library.

**Main definitions.** `Request.Plain`, `Requests.covers`, `Requests.join`, `Requests.Grows`,
`possibleRequests`.

**Main statements.** `Request.eq_of_key_eq`. `Requests.foldl_enqueue_grows`: the queue holds what
was not covered before, and afterwards everything is covered. `mem_possibleRequests`.
-/

namespace LineScopes

section Splitting

variable {sep : Char} {s : String}

theorem not_mem_of_splitOnce?_eq_none
    (h : Text.splitOnce? sep s = none) :
    sep ∉ s.toList := by
  unfold Text.splitOnce? at h
  dsimp only at h
  split at h
  · rename_i hdrop
    intro hmem
    have hall := List.dropWhile_eq_nil_iff.mp hdrop sep hmem
    simp at hall
  · cases h

theorem not_mem_of_splitOnce?_eq_some
    {before behind : String}
    (h : Text.splitOnce? sep s = some (before, behind)) :
    sep ∉ before.toList := by
  unfold Text.splitOnce? at h
  dsimp only at h
  split at h
  · cases h
  · obtain ⟨rfl, -⟩ := Prod.mk.inj (Option.some.inj h)
    intro hmem
    have hne := List.mem_takeWhile_imp (by simpa using hmem)
    simp at hne

/-- A text is cut at the first separator. -/
theorem splitOnce?_append
    {before behind : String}
    (h : '#' ∉ before.toList) :
    Text.splitOnce? '#' (before ++ "#" ++ behind) = some (before, behind) := by
  have hall : ∀ c ∈ before.toList, decide (c ≠ '#') = true := by
    rintro c hc
    simp only [decide_eq_true_eq]
    rintro rfl
    exact h hc
  have hchars : (before ++ "#" ++ behind).toList = before.toList ++ '#' :: behind.toList := by
    simp
  have hdrop : (before.toList ++ '#' :: behind.toList).dropWhile (· ≠ '#') =
      '#' :: behind.toList := by
    rw [List.dropWhile_append_of_pos hall]
    simp
  have htake : (before.toList ++ '#' :: behind.toList).takeWhile (· ≠ '#') = before.toList := by
    rw [List.takeWhile_append_of_pos hall]
    simp
  simp only [Text.splitOnce?, hchars, hdrop, htake, String.ofList_toList]

end Splitting

namespace Request

/-- The scope of a request has no separator in it. -/
def Plain (r : Request) : Prop :=
  '#' ∉ r.scope.toList

/-- Plain requests are told apart by their keys. -/
theorem eq_of_key_eq
    {r r' : Request}
    (hr : r.Plain)
    (hr' : r'.Plain)
    (h : r.key = r'.key) :
    r = r' := by
  have hpart : ∀ {scope name : String}, '#' ∈ (part scope name).key.toList := by
    simp [key]
  cases r with
  | whole scope =>
      cases r' with
      | whole scope' =>
          rw [show scope = scope' from h]
      | part scope' name' =>
          have hmem : '#' ∈ (whole scope).key.toList := by
            rw [h]
            exact hpart
          exact absurd hmem hr
  | part scope name =>
      cases r' with
      | whole scope' =>
          have hmem : '#' ∈ (whole scope').key.toList := by
            rw [← h]
            exact hpart
          exact absurd hmem hr'
      | part scope' name' =>
          have hsplit : some (scope, name) = some (scope', name') := by
            rw [← splitOnce?_append (show '#' ∉ scope.toList from hr),
              ← splitOnce?_append (show '#' ∉ scope'.toList from hr')]
            exact congrArg (Text.splitOnce? '#') h
          cases hsplit
          rfl

end Request

section Requested

variable {available : Library} {base : RawGrammar} {injected : String → List String}

/-- What a reference asks for has the scope in front of the first separator. -/
theorem plain_of_followReference
    {s : Surroundings}
    {text : String}
    {r : Request}
    (h : followReference base s (.ofText text) = .inr r) :
    r.Plain := by
  unfold Reference.ofText at h
  split at h
  · cases h
  · split at h
    · cases h
    · split at h
      · rename_i hsplit
        simp only [followReference] at h
        split at h
        · cases h
        · cases h
          exact not_mem_of_splitOnce?_eq_none hsplit
      · rename_i scope name hsplit
        split at h
        · cases h
        · simp only [followReference] at h
          split at h
          · cases h
          · cases h
            exact not_mem_of_splitOnce?_eq_some hsplit

theorem Asks.plain
    {p : PlacedRule}
    {r : Request}
    (h : Asks available base p r) :
    r.Plain := by
  obtain ⟨s, reference, -, hrefers, hfollow⟩ := h
  obtain ⟨text, -, rfl⟩ := Option.map_eq_some_iff.mp hrefers
  exact plain_of_followReference hfollow

theorem Requested.plain
    (hinjected : ∀ scope, ∀ scope' ∈ injected scope, '#' ∉ scope'.toList)
    {r : Request}
    (h : Requested available base injected r) :
    r.Plain := by
  cases h with
  | asked h =>
      exact h.plain
  | injected hg h =>
      exact hinjected _ _ h

/-- What the rules of a library can ask for, and the grammars injected into those of the library. -/
def possibleRequests
    (available : Library)
    (base : RawGrammar)
    (injected : String → List String) : List Request :=
  available.grammars.flatMap fun g =>
    (g.sites.filterMap fun x =>
      (x.2.rule.reference.map Reference.ofText).bind fun r =>
        (followReference base x.1 r).getRight?) ++
      (injected g.scopeName).map .whole

/-- What has to be loaded does not depend on the repositories in force. -/
theorem followReference_eq_inr
    {s s' : Surroundings}
    (hgrammar : s.grammar = s'.grammar)
    {reference : Reference}
    {r : Request}
    (h : followReference base s reference = .inr r) :
    followReference base s' reference = .inr r := by
  cases reference with
  | base =>
      cases h
  | self =>
      cases h
  | named name =>
      cases h
  | whole scope =>
      simpa [followReference, hgrammar] using h
  | part scope name =>
      simpa [followReference, hgrammar] using h

theorem mem_possibleRequests
    {r : Request}
    (h : Requested available base injected r) :
    r ∈ possibleRequests available base injected := by
  cases h with
  | asked h =>
      obtain ⟨s, reference, hs, hrefers, hfollow⟩ := h
      obtain ⟨s₀, hwritten, -⟩ := hs.written
      refine List.mem_flatMap.mpr ⟨s.grammar, List.mem_of_find?_eq_some hs.known, ?_⟩
      refine List.mem_append_left _ (List.mem_filterMap.mpr ⟨_, mem_sites hwritten, ?_⟩)
      rw [show Option.map Reference.ofText _ = some reference from hrefers, Option.bind_some,
        followReference_eq_inr hwritten.grammar_eq.symm hfollow]
      rfl
  | @injected g scope hg h =>
      refine List.mem_flatMap.mpr ⟨g, List.mem_of_find?_eq_some hg, ?_⟩
      exact List.mem_append_right _ (List.mem_map_of_mem h)

end Requested

namespace Requests

/-- A request is covered by an earlier one. -/
def covers
    (q : Requests) : Request → Bool
  | .whole scope => q.wholes.contains scope
  | .part scope name =>
    q.wholes.contains scope || q.parts.contains (Request.part scope name).key

@[simp] theorem covers_clear
    (q : Requests)
    (r : Request) :
    covers { q with queue := [] } r = q.covers r := by
  cases r <;> rfl

theorem covers_of_subset
    {q q' : Requests}
    (hwholes : q.wholes ⊆ q'.wholes)
    (hparts : q.parts ⊆ q'.parts)
    {r : Request}
    (h : q.covers r) :
    q'.covers r := by
  cases r with
  | whole scope =>
      simp only [covers, List.contains_eq_mem, decide_eq_true_eq] at h ⊢
      exact hwholes h
  | part scope name =>
      simp only [covers, Bool.or_eq_true, List.contains_eq_mem, decide_eq_true_eq] at h ⊢
      exact h.imp (fun hmem => hwholes hmem) fun hmem => hparts hmem

/-- Requests are made: those that join the queue are new and among the given ones. -/
structure Grows
    (rs : List Request)
    (q q' : Requests) : Prop where
  initial : q'.initial = q.initial
  covers : ∀ {r}, q.covers r → q'.covers r
  queue : q.queue ⊆ q'.queue
  wholes : ∀ scope ∈ q'.wholes, scope ∈ q.wholes ∨ .whole scope ∈ q'.queue
  parts : ∀ key ∈ q'.parts, key ∈ q.parts ∨
    ∃ scope name, .part scope name ∈ q'.queue ∧ (Request.part scope name).key = key
  joined : ∀ r ∈ q'.queue, r ∈ q.queue ∨ r ∈ rs ∧ ¬ q.covers r ∧ q'.covers r

variable {rs : List Request} {q q' q'' : Requests}

theorem Grows.refl
    (q : Requests) :
    Grows rs q q :=
  ⟨rfl, fun h => h, fun _ h => h, fun _ h => Or.inl h, fun _ h => Or.inl h, fun _ h => Or.inl h⟩

theorem Grows.trans
    (h : Grows rs q q')
    (h' : Grows rs q' q'') :
    Grows rs q q'' := by
  refine ⟨h'.initial.trans h.initial, fun hr => h'.covers (h.covers hr),
    fun _ hr => h'.queue (h.queue hr), ?_, ?_, ?_⟩
  · intro scope hscope
    rcases h'.wholes scope hscope with hscope | hscope
    · exact (h.wholes scope hscope).imp_right fun hmem => h'.queue hmem
    · exact Or.inr hscope
  · intro key hkey
    rcases h'.parts key hkey with hkey | hkey
    · refine (h.parts key hkey).imp_right ?_
      rintro ⟨scope, name, hmem, rfl⟩
      exact ⟨scope, name, h'.queue hmem, rfl⟩
    · exact Or.inr hkey
  · intro r hr
    rcases h'.joined r hr with hr | ⟨hmem, hnew, hcovered⟩
    · exact (h.joined r hr).imp_right fun ⟨hmem, hnew, hcovered⟩ =>
        ⟨hmem, hnew, h'.covers hcovered⟩
    · exact Or.inr ⟨hmem, fun hold => hnew (h.covers hold), hcovered⟩

/-- The requests after a new one. -/
def join
    (q : Requests) : Request → Requests
  | .whole scope => { q with wholes := scope :: q.wholes, queue := q.queue ++ [.whole scope] }
  | .part scope name =>
    { q with
      parts := (Request.part scope name).key :: q.parts
      queue := q.queue ++ [.part scope name] }

theorem enqueue_of_covers
    {r : Request}
    (h : q.covers r) :
    q.enqueue r = q := by
  cases r with
  | whole scope =>
      have hwhole : scope ∈ q.wholes := by
        simpa [covers] using h
      simp [enqueue, Request.scope, hwhole]
  | part scope name =>
      rcases (by simpa [covers] using h : scope ∈ q.wholes ∨ _ ∈ q.parts) with hwhole | hpart
      · simp [enqueue, Request.scope, hwhole]
      · simp [enqueue, hpart]

theorem enqueue_of_not_covers
    {r : Request}
    (h : ¬ q.covers r) :
    q.enqueue r = q.join r := by
  cases r with
  | whole scope =>
      have hwhole : scope ∉ q.wholes := by
        simpa [covers] using h
      simp [enqueue, join, Request.scope, hwhole]
  | part scope name =>
      have hnew : scope ∉ q.wholes ∧ (Request.part scope name).key ∉ q.parts := by
        simpa [covers] using h
      simp [enqueue, join, Request.scope, hnew]

@[simp] theorem covers_join
    (q : Requests)
    (r : Request) :
    (q.join r).covers r = true := by
  cases r <;> simp [join, covers]

@[simp] theorem queue_join
    (q : Requests)
    (r : Request) :
    (q.join r).queue = q.queue ++ [r] := by
  cases r <;> rfl

/-- A new request joins the queue. -/
theorem join_grows
    {r : Request}
    (hr : r ∈ rs)
    (hnew : ¬ q.covers r) :
    Grows rs q (q.join r) := by
  have hself : r ∈ (q.join r).queue := by
    simp
  have hwholes : q.wholes ⊆ (q.join r).wholes := by
    cases r <;> simp [join]
  have hparts : q.parts ⊆ (q.join r).parts := by
    cases r <;> simp [join]
  constructor
  · cases r <;> rfl
  · exact covers_of_subset hwholes hparts
  · simp
  · intro scope hscope
    cases r with
    | whole scope' =>
        rcases List.mem_cons.mp hscope with rfl | hscope
        · exact Or.inr hself
        · exact Or.inl hscope
    | part scope' name =>
        exact Or.inl hscope
  · intro key hkey
    cases r with
    | whole scope' =>
        exact Or.inl hkey
    | part scope' name =>
        rcases List.mem_cons.mp hkey with rfl | hkey
        · exact Or.inr ⟨scope', name, hself, rfl⟩
        · exact Or.inl hkey
  · intro r' hr'
    rw [queue_join] at hr'
    rcases List.mem_append.mp hr' with hmem | hmem
    · exact Or.inl hmem
    · obtain rfl := List.mem_singleton.mp hmem
      exact Or.inr ⟨hr, hnew, covers_join q r'⟩

/-- One request joins the queue unless it is covered, and is covered then. -/
theorem enqueue_grows
    {r : Request}
    (hr : r ∈ rs) :
    Grows rs q (q.enqueue r) ∧ (q.enqueue r).covers r := by
  by_cases hcovers : q.covers r
  · rw [enqueue_of_covers hcovers]
    exact ⟨.refl q, hcovers⟩
  · rw [enqueue_of_not_covers hcovers]
    exact ⟨join_grows hr hcovers, covers_join q r⟩

theorem foldl_enqueue_grows
    {found : List Request}
    (hfound : found ⊆ rs)
    (q : Requests) :
    Grows rs q (found.foldl enqueue q) ∧ ∀ r ∈ found, (found.foldl enqueue q).covers r := by
  induction found generalizing q with
  | nil =>
      exact ⟨.refl q, by simp⟩
  | cons r rest ih =>
      obtain ⟨hr, hrest⟩ := List.cons_subset.mp hfound
      obtain ⟨hfirst, hcovered⟩ := enqueue_grows (q := q) hr
      obtain ⟨hgrows, hall⟩ := ih hrest (q.enqueue r)
      refine ⟨hfirst.trans hgrows, fun r' hr' => ?_⟩
      rcases List.mem_cons.mp hr' with rfl | hr'
      · exact hgrows.covers hcovered
      · exact hall r' hr'

end Requests

end LineScopes
