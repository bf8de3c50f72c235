import LineScopes.Proofs.Outcome
import LineScopes.Proofs.Engine.Literal
import LineScopes.Proofs.Rule.Injections
import LineScopes.Proofs.Scan.Contract

/-!
# The match that is chosen

At a place of a scan the match of the rule on top competes with those of the injections that accept
the scopes. They are compared by where they start, then by class: injections with priority left come
before the rule on top, and all others behind it. Of two injections of a class the first one listed
wins. The search for the best injection ends early if a match starts at the place of the scan, and
then goes through the rest of the competitors in two comparisons; what it ends with is still the
least competitor, because the list of injections is sorted by priority.

**Main definitions.** `Grammar.Answers`, `OwnMatch`, `Injects`, `Candidate`, `Competes`, `Chosen`,
`bestOfAll`.

**Main statements.** `Grammar.sorted_of_compile`: the injections of a compiled grammar are sorted.
`bestInjected_eq_bestOfAll`: ending early makes no difference. `nextMatch_least`: the match that is
chosen.
-/

namespace LineScopes

/-- No set in which a match is looked for reports an error, and no match that is found starts in
front of the place of the scan. -/
structure Grammar.Answers
    (g : Grammar)
    (p : ScanPoint)
    (f : Frame) : Prop where
  ok : ∀ set, Offers g f set → ∀ a, ∃ found, set.find p.text p.pos a = .ok found
  behind : ∀ set, Offers g f set → ∀ a m, set.find p.text p.pos a = .ok (some m) → p.pos ≤ m.first

/-- The match of the rule on top. If there is none, `\G` may be allowed to match. -/
inductive OwnMatch (g : Grammar) (p : ScanPoint) (f : Frame) : PatternMatch → Prop
  | found {m : PatternMatch}
    (h : (g.setInside f).findAt p = .ok (some m)) : OwnMatch g p f m
  | again {m : PatternMatch}
    (hnone : (g.setInside f).findAt p = .ok none)
    (hretry : g.options.retryWithoutAnchor = true)
    (hclosed : p.anchors.allowG = false)
    (h : (g.setInside f).find p.text p.pos p.anchors.withG = .ok (some m)) : OwnMatch g p f m

/-- The injection at a place of a list accepts the scopes and has a match. -/
structure Injects
    (g : Grammar)
    (p : ScanPoint)
    (names : List String)
    (injections : List Injection)
    (place : Nat)
    (i : Injection)
    (m : PatternMatch) : Prop where
  listed : injections[place]? = some i
  accepts : i.selector.accepts names = true
  found : (g.sets.inside i.rule).findAt p = .ok (some m)

/-- A match that competes with others. -/
structure Candidate where
  found : PatternMatch
  /-- The class of the match, the preferred one first. -/
  rank : Nat
  /-- The place of the injection in the list of injections. -/
  place : Nat

/-- The first candidate starts before the second one. Of two that start at the same place it has
the preferred class, and of two of the same class it is listed first. -/
def Candidate.Leads (a b : Candidate) : Prop :=
  a.found.first < b.found.first ∨
    a.found.first = b.found.first ∧ (a.rank < b.rank ∨ a.rank = b.rank ∧ a.place ≤ b.place)

/-- The class of the matches of an injection; that of the rule on top is 1. -/
def Injection.rank (i : Injection) : Nat :=
  if i.priority = .left then 0 else 2

/-- The matches that compete at a place of a scan. -/
inductive Competes (g : Grammar) (p : ScanPoint) (f : Frame) : Candidate → Prop
  | own {m : PatternMatch} (h : OwnMatch g p f m) : Competes g p f ⟨m, 1, 0⟩
  | injected {place : Nat} {i : Injection} {m : PatternMatch}
    (h : Injects g p f.contentScopes.names g.injections place i m) :
    Competes g p f ⟨m, i.rank, place⟩

/-- The choice among the matches that compete. -/
inductive Chosen (g : Grammar) (p : ScanPoint) (f : Frame) : Option PatternMatch → Prop
  | nothing
    (h : ∀ c, ¬ Competes g p f c) : Chosen g p f none
  | least {c : Candidate}
    (h : Competes g p f c)
    (hleads : ∀ d, Competes g p f d → c.Leads d) : Chosen g p f (some c.found)

/-- The best match of some injections and the best one so far, after all of them have been looked
at. -/
def bestOfAll
    (g : Grammar)
    (p : ScanPoint) : List Injection → Option InjectedMatch → Reported (Option InjectedMatch)
  | [], best => return best
  | i :: rest, best => do
    match ← (g.sets.inside i.rule).findAt p with
    | none => bestOfAll g p rest best
    | some m =>
      if improves m best then
        Reported.reportIf g.options.debug .debug fun _ =>
          "[match_injections] injection " ++ Text.quote i.written ++ " matched at " ++
            toString m.first
        bestOfAll g p rest (some (i.priority, m))
      else
        bestOfAll g p rest best

section Sorted

/-- What is collected by some steps is collected by the last of them. -/
theorem Collecting.exists_of_bind_eq_ok
    {α β : Type}
    {x : Collecting α}
    {k : α → Collecting β}
    {b : Build}
    {found : β}
    (h : ((x >>= k).run.run b).1 = .ok found) :
    ∃ a c, ((k a).run.run c).1 = .ok found := by
  rw [ExceptT.run_bind, StateT.run_bind] at h
  rcases hx : x.run.run b with ⟨_ | a, c⟩
  · rw [hx] at h
    cases h
  · rw [hx] at h
    exact ⟨a, c, h⟩

/-- Injections that are sorted by priority. -/
theorem Injection.sorted_sort
    (injections : List Injection) :
    (Injection.sort injections).Pairwise fun i j => i.priority.value ≤ j.priority.value := by
  have hsorted : (Injection.sort injections).Pairwise
      fun i j => decide (i.priority.value ≤ j.priority.value) = true := by
    refine List.pairwise_mergeSort (fun i j k hij hjk => ?_) (fun i j => ?_) injections
    · simp only [decide_eq_true_eq] at *
      omega
    · simp only [Bool.or_eq_true, decide_eq_true_eq]
      omega
  exact hsorted.imp of_decide_eq_true

theorem collectInjections_sorted
    {sources : Sources}
    {visitor : Visitor}
    {injected : List String}
    {b : Build}
    {injections : List Injection}
    (h : ((collectInjections sources visitor injected).run.run b).1 = .ok injections) :
    injections.Pairwise fun i j => i.priority.value ≤ j.priority.value := by
  obtain ⟨own, c, h⟩ := Collecting.exists_of_bind_eq_ok h
  obtain ⟨foreign, d, h⟩ := Collecting.exists_of_bind_eq_ok h
  obtain rfl : Injection.sort (own ++ foreign) = injections := Except.ok.inj h
  exact Injection.sorted_sort _

/-- The injections of a compiled grammar are sorted. -/
theorem Grammar.sorted_of_compile
    {r : CompileRequest}
    {g : Grammar}
    (h : (compile r).outcome = .ok g) :
    g.injections.Pairwise fun i j => i.priority.value ≤ j.priority.value := by
  simp only [compile, Reported.outcome_bind_eq_ok, Reported.outcome_pure, Except.ok.injEq] at h
  obtain ⟨-, -, injections, hinjections, -, -, -, -, overrides, -, brackets, -, rfl⟩ := h
  have hcollect : (compileRules r).1 = .ok injections := by
    simpa using hinjections
  exact collectInjections_sorted (compileRules_eq_ok_iff.mp hcollect).2

end Sorted

section Search

variable {g : Grammar} {p : ScanPoint} {f : Frame}

/-- The lawful engine of a grammar answers as it should, unless it reports an error. -/
theorem Grammar.answers_of_lawful
    (he : g.engine.Lawful)
    (hf : f.Lawful)
    (hpos : Text.IsBoundary p.text p.pos)
    (hok : ∀ set, Offers g f set → ∀ a, ∃ scan, set.scanner a = .ok scan) :
    g.Answers p f where
  ok set hset a := PatternSet.exists_find (hok set hset a) p.text p.pos
  behind _ hset _ _ hfound := ((hset.lawful he hf).find_within hpos hfound).pos_le_first

variable (h : g.Answers p f)
include h

theorem Grammar.Answers.exists_findAt
    {i : Injection}
    (hi : i ∈ g.injections) :
    ∃ found, (g.sets.inside i.rule).findAt p = .ok found :=
  h.ok _ (.injected i hi) p.anchors

/-- No match improves on one at the place of the scan. -/
theorem Grammar.Answers.not_improves
    {i : Injection}
    (hi : i ∈ g.injections)
    {m : PatternMatch}
    (hfound : (g.sets.inside i.rule).findAt p = .ok (some m))
    {best : InjectedMatch}
    (hbest : best.2.first = p.pos) :
    improves m (some best) = false := by
  have hbehind := h.behind _ (.injected i hi) p.anchors m hfound
  simp only [improves, decide_eq_false_iff_not]
  omega

/-- Behind a match at the place of the scan nothing is found or reported any more. -/
theorem bestOfAll_of_here
    {injections : List Injection}
    (hsubset : injections ⊆ g.injections)
    {best : InjectedMatch}
    (hbest : best.2.first = p.pos) :
    bestOfAll g p injections (some best) = pure (some best) := by
  induction injections with
  | nil =>
      rfl
  | cons i rest ih =>
      obtain ⟨hi, hrest⟩ := List.cons_subset.mp hsubset
      obtain ⟨found, hfound⟩ := h.exists_findAt hi
      rw [bestOfAll, hfound, Reported.liftM_ok_bind]
      cases found with
      | none =>
          exact ih hrest
      | some m =>
          have hnot := h.not_improves hi hfound hbest
          simp only [hnot, Bool.false_eq_true, if_false]
          exact ih hrest

/-- Ending the search at a match at the place of the scan makes no difference, neither for the
result nor for what is reported. -/
theorem bestInjected_eq_bestOfAll
    {injections : List Injection}
    (hsubset : injections ⊆ g.injections)
    (best : Option InjectedMatch) :
    bestInjected g p injections best = bestOfAll g p injections best := by
  induction injections generalizing best with
  | nil =>
      rfl
  | cons i rest ih =>
      obtain ⟨hi, hrest⟩ := List.cons_subset.mp hsubset
      obtain ⟨found, hfound⟩ := h.exists_findAt hi
      rw [bestInjected, bestOfAll, hfound, Reported.liftM_ok_bind, Reported.liftM_ok_bind]
      cases found with
      | none =>
          exact ih hrest best
      | some m =>
          dsimp only
          split
          · refine congrArg _ (funext fun _ => ?_)
            split
            · exact (bestOfAll_of_here h hrest ‹_›).symm
            · exact ih hrest _
          · exact ih hrest best

theorem injectionMatch_eq_bestOfAll :
    injectionMatch g p f =
      bestOfAll g p (g.injections.filter (·.selector.accepts f.contentScopes.names)) none := by
  unfold injectionMatch
  split
  · rename_i hempty
    rw [List.isEmpty_iff.mp hempty]
    rfl
  · exact bestInjected_eq_bestOfAll h (fun i hi => (List.mem_filter.mp hi).1) none

end Search

section Leader

variable {g : Grammar} {p : ScanPoint} {f : Frame} {names : List String}

namespace Injects

variable {injections : List Injection} {place : Nat} {i j : Injection} {m : PatternMatch}

theorem cons
    (h : Injects g p names injections place i m) :
    Injects g p names (j :: injections) (place + 1) i m :=
  ⟨h.listed, h.accepts, h.found⟩

/-- The injection is the first one of a list, or it stands in the rest. -/
theorem cases_cons
    (h : Injects g p names (j :: injections) place i m) :
    (place = 0 ∧ i = j) ∨ ∃ n, place = n + 1 ∧ Injects g p names injections n i m := by
  obtain ⟨hlisted, haccepts, hfound⟩ := h
  cases place with
  | zero => exact .inl ⟨rfl, (Option.some.inj hlisted).symm⟩
  | succ n => exact .inr ⟨n, rfl, hlisted, haccepts, hfound⟩

theorem mem
    (h : Injects g p names injections place i m) :
    i ∈ injections :=
  List.mem_of_getElem? h.listed

end Injects

/-- What a search among injections ends with: the match that it began with, if none improves on it,
or else the first one listed of those that start first. -/
inductive Leader (g : Grammar) (p : ScanPoint) (names : List String) (injections : List Injection)
    (best : Option InjectedMatch) : Option InjectedMatch → Prop
  | stays
    (h : ∀ place i m, Injects g p names injections place i m → improves m best = false) :
    Leader g p names injections best best
  | found {place : Nat} {i : Injection} {m : PatternMatch}
    (h : Injects g p names injections place i m)
    (hbest : improves m best = true)
    (hleads : ∀ place' i' m', Injects g p names injections place' i' m' →
      m.first < m'.first ∨ m.first = m'.first ∧ place ≤ place') :
    Leader g p names injections best (some (i.priority, m))

theorem improves_trans
    {m m' : PatternMatch}
    {priority : Priority}
    {best : Option InjectedMatch}
    (h : improves m best = true)
    (h' : improves m' (some (priority, m)) = true) :
    improves m' best = true := by
  cases best with
  | none =>
      rfl
  | some b =>
      simp only [improves, decide_eq_true_eq] at h h' ⊢
      omega

namespace Leader

variable {injections : List Injection} {i : Injection} {best found : Option InjectedMatch}

/-- An injection without a match makes no difference. -/
theorem cons_of_not_injects
    (h : Leader g p names injections best found)
    (hnot : ∀ m, ¬ Injects g p names (i :: injections) 0 i m) :
    Leader g p names (i :: injections) best found := by
  have hrest : ∀ {place i' m'}, Injects g p names (i :: injections) place i' m' →
      ∃ n, place = n + 1 ∧ Injects g p names injections n i' m' := by
    intro place i' m' hinjects
    rcases hinjects.cases_cons with ⟨rfl, rfl⟩ | hlater
    · exact absurd hinjects (hnot m')
    · exact hlater
  cases h with
  | stays h =>
      refine .stays fun place i' m' hinjects => ?_
      obtain ⟨n, -, hlater⟩ := hrest hinjects
      exact h n i' m' hlater
  | found h hbest hleads =>
      refine .found h.cons hbest fun place i' m' hinjects => ?_
      obtain ⟨n, rfl, hlater⟩ := hrest hinjects
      rcases hleads n i' m' hlater with hlt | ⟨heq, hle⟩
      · exact .inl hlt
      · exact .inr ⟨heq, Nat.succ_le_succ hle⟩

variable {m : PatternMatch} (hm : Injects g p names (i :: injections) 0 i m)
include hm

/-- The first injection improves on the match that the search began with. -/
theorem cons_of_improves
    (himproves : improves m best = true)
    (h : Leader g p names injections (some (i.priority, m)) found) :
    Leader g p names (i :: injections) best found := by
  cases h with
  | stays h =>
      refine .found hm himproves fun place i' m' hinjects => ?_
      rcases hinjects.cases_cons with ⟨rfl, rfl⟩ | ⟨n, rfl, hlater⟩
      · obtain rfl := Option.some.inj (Except.ok.inj (hm.found.symm.trans hinjects.found))
        exact .inr ⟨rfl, Nat.le_refl 0⟩
      · have hnot := h n i' m' hlater
        simp only [improves, decide_eq_false_iff_not] at hnot
        omega
  | @found place j n h hbest hleads =>
      refine .found h.cons (improves_trans himproves hbest) fun place' i' m' hinjects => ?_
      rcases hinjects.cases_cons with ⟨rfl, rfl⟩ | ⟨k, rfl, hlater⟩
      · obtain rfl := Option.some.inj (Except.ok.inj (hm.found.symm.trans hinjects.found))
        simp only [improves, decide_eq_true_eq] at hbest
        exact .inl hbest
      · rcases hleads k i' m' hlater with hlt | ⟨heq, hle⟩
        · exact .inl hlt
        · exact .inr ⟨heq, Nat.succ_le_succ hle⟩

/-- The first injection does not improve on the match that the search began with. -/
theorem cons_of_not_improves
    (hnot : improves m best = false)
    (h : Leader g p names injections best found) :
    Leader g p names (i :: injections) best found := by
  cases h with
  | stays h =>
      refine .stays fun place i' m' hinjects => ?_
      rcases hinjects.cases_cons with ⟨rfl, rfl⟩ | ⟨n, rfl, hlater⟩
      · obtain rfl := Option.some.inj (Except.ok.inj (hm.found.symm.trans hinjects.found))
        exact hnot
      · exact h n i' m' hlater
  | @found place j n h hbest hleads =>
      refine .found h.cons hbest fun place' i' m' hinjects => ?_
      rcases hinjects.cases_cons with ⟨rfl, rfl⟩ | ⟨k, rfl, hlater⟩
      · obtain rfl := Option.some.inj (Except.ok.inj (hm.found.symm.trans hinjects.found))
        cases best with
        | none =>
            cases hnot
        | some b =>
            simp only [improves, decide_eq_true_eq, decide_eq_false_iff_not] at hbest hnot
            omega
      · rcases hleads k i' m' hlater with hlt | ⟨heq, hle⟩
        · exact .inl hlt
        · exact .inr ⟨heq, Nat.succ_le_succ hle⟩

end Leader

/-- The search among the injections that accept the scopes ends with the leader. -/
theorem exists_leader
    (h : g.Answers p f)
    {injections : List Injection}
    (hsubset : injections ⊆ g.injections)
    (best : Option InjectedMatch) :
    ∃ found,
      (bestOfAll g p (injections.filter (·.selector.accepts names)) best).outcome = .ok found ∧
        Leader g p names injections best found := by
  induction injections generalizing best with
  | nil =>
      exact ⟨best, rfl, .stays fun _ _ _ hinjects => absurd hinjects.mem List.not_mem_nil⟩
  | cons i rest ih =>
      obtain ⟨hi, hrest⟩ := List.cons_subset.mp hsubset
      by_cases haccepts : i.selector.accepts names = true
      · have hfilter : (i :: rest).filter (·.selector.accepts names) =
            i :: rest.filter (·.selector.accepts names) :=
          List.filter_cons_of_pos haccepts
        obtain ⟨found, hfound⟩ := h.exists_findAt hi
        rw [hfilter, bestOfAll, hfound, Reported.liftM_ok_bind]
        cases found with
        | none =>
            obtain ⟨found, houtcome, hleader⟩ := ih hrest best
            refine ⟨found, houtcome, hleader.cons_of_not_injects fun m hm => ?_⟩
            rw [hm.found] at hfound
            cases hfound
        | some m =>
            have hm : Injects g p names (i :: rest) 0 i m := ⟨rfl, haccepts, hfound⟩
            dsimp only
            split
            · obtain ⟨found, houtcome, hleader⟩ := ih hrest (some (i.priority, m))
              rw [Reported.outcome_reportIf_bind]
              exact ⟨found, houtcome, hleader.cons_of_improves hm ‹_›⟩
            · rename_i hnot
              obtain ⟨found, houtcome, hleader⟩ := ih hrest best
              exact ⟨found, houtcome, hleader.cons_of_not_improves hm (Bool.eq_false_iff.mpr hnot)⟩
      · have hfilter : (i :: rest).filter (·.selector.accepts names) =
            rest.filter (·.selector.accepts names) :=
          List.filter_cons_of_neg haccepts
        rw [hfilter]
        obtain ⟨found, houtcome, hleader⟩ := ih hrest best
        exact ⟨found, houtcome, hleader.cons_of_not_injects fun m hm => haccepts hm.accepts⟩

end Leader

section Choice

variable {g : Grammar} {p : ScanPoint} {f : Frame}

/-- The match of the rule on top is found. -/
theorem exists_ruleMatch
    (h : g.Answers p f) :
    ∃ own, (ruleMatch g p f).outcome = .ok own ∧ ∀ m, own = some m ↔ OwnMatch g p f m := by
  obtain ⟨found, hfound⟩ := h.ok _ .own p.anchors
  have hat : (g.setInside f).findAt p = .ok found := hfound
  simp only [ruleMatch, Reported.outcome_reportIf_bind, hat, Reported.liftM_ok_bind]
  cases found with
  | some m =>
      refine ⟨some m, rfl, fun m' => ⟨?_, ?_⟩⟩
      · rintro ⟨⟩
        exact .found hat
      · rintro (hother | ⟨hnone, -, -, -⟩)
        · rw [hat] at hother
          exact Except.ok.inj hother
        · rw [hat] at hnone
          cases hnone
  | none =>
      dsimp only
      split
      · rename_i hagain
        obtain ⟨hretry, hclosed⟩ :
            g.options.retryWithoutAnchor = true ∧ p.anchors.allowG = false := by
          simpa using hagain
        obtain ⟨again, hagain⟩ := h.ok _ .own p.anchors.withG
        refine ⟨again, hagain, fun m => ⟨?_, ?_⟩⟩
        · rintro rfl
          exact .again hat hretry hclosed hagain
        · rintro (hother | ⟨-, -, -, hother⟩)
          · rw [hat] at hother
            cases hother
          · rw [hagain] at hother
            exact Except.ok.inj hother
      · rename_i hnot
        refine ⟨none, rfl, fun m => iff_of_false (Option.some_ne_none m).symm ?_⟩
        rintro (hother | ⟨-, hretry, hclosed, -⟩)
        · rw [hat] at hother
          cases hother
        · simp [hretry, hclosed] at hnot

/-- In a sorted list only injections with priority left stand in front of one of these. -/
theorem left_of_le
    {injections : List Injection}
    (hsorted : injections.Pairwise fun i j => i.priority.value ≤ j.priority.value)
    {n k : Nat}
    {i j : Injection}
    (hi : injections[n]? = some i)
    (hj : injections[k]? = some j)
    (hle : n ≤ k)
    (hleft : j.priority = .left) :
    i.priority = .left := by
  rcases Nat.eq_or_lt_of_le hle with rfl | hlt
  · obtain rfl := Option.some.inj (hi.symm.trans hj)
    exact hleft
  · obtain ⟨hn, rfl⟩ := List.getElem?_eq_some_iff.mp hi
    obtain ⟨hk, rfl⟩ := List.getElem?_eq_some_iff.mp hj
    have hvalue := List.pairwise_iff_getElem.mp hsorted n k hn hk hlt
    rw [hleft] at hvalue
    cases hpriority : injections[n].priority with
    | left => rfl
    | normal => simp [hpriority, Priority.value] at hvalue
    | right => simp [hpriority, Priority.value] at hvalue

theorem Candidate.Leads.trans
    {a b c : Candidate}
    (hab : a.Leads b)
    (hbc : b.Leads c) :
    a.Leads c := by
  unfold Candidate.Leads at *
  omega

/-- The injection that starts first and is listed first leads all others: those in front of it, in
the list and so in class, start behind it. -/
theorem Injects.leads
    (hsorted : g.injections.Pairwise fun i j => i.priority.value ≤ j.priority.value)
    {names : List String}
    {place place' : Nat}
    {i i' : Injection}
    {m m' : PatternMatch}
    (h : Injects g p names g.injections place i m)
    (h' : Injects g p names g.injections place' i' m')
    (hleads : m.first < m'.first ∨ m.first = m'.first ∧ place ≤ place') :
    Candidate.Leads ⟨m, i.rank, place⟩ ⟨m', i'.rank, place'⟩ := by
  rcases hleads with hlt | ⟨heq, hle⟩
  · exact .inl hlt
  · refine .inr ⟨heq, ?_⟩
    have hrank : i.rank ≤ i'.rank := by
      unfold Injection.rank
      by_cases hleft : i'.priority = .left
      · have hleft' : i.priority = .left := left_of_le hsorted h.listed h'.listed hle hleft
        simp [hleft, hleft']
      · rw [if_neg hleft]
        split <;> omega
    rcases Nat.lt_or_eq_of_le hrank with hlt | hsame
    · exact .inl hlt
    · exact .inr ⟨hsame, hle⟩

/-- The better one of the match of the rule on top and that of the leading injection leads both. -/
theorem prefer_leads
    (own m : PatternMatch)
    (i : Injection)
    (place : Nat) :
    (prefer (some own) (some (i.priority, m)) = some m ∧
      Candidate.Leads ⟨m, i.rank, place⟩ ⟨own, 1, 0⟩) ∨
      (prefer (some own) (some (i.priority, m)) = some own ∧
        Candidate.Leads ⟨own, 1, 0⟩ ⟨m, i.rank, place⟩) := by
  unfold prefer
  dsimp only
  split
  · rename_i hwins
    left
    refine ⟨rfl, ?_⟩
    rcases hwins with hlt | ⟨heq, hleft⟩
    · exact .inl hlt
    · exact .inr ⟨heq, .inl (by simp [Injection.rank, hleft])⟩
  · rename_i hloses
    right
    refine ⟨rfl, ?_⟩
    rcases Nat.lt_trichotomy own.first m.first with hlt | heq | hgt
    · exact .inl hlt
    · refine .inr ⟨heq, .inl ?_⟩
      have hleft : i.priority ≠ .left := fun hleft => hloses (.inr ⟨heq.symm, hleft⟩)
      simp [Injection.rank, hleft]
    · exact absurd (.inl hgt) hloses

/-- The match of the rule on top is chosen if no injection has one. -/
theorem chosen_own
    {own : Option PatternMatch}
    (hown : ∀ m, own = some m ↔ OwnMatch g p f m)
    (hnone : ∀ place i m, ¬ Injects g p f.contentScopes.names g.injections place i m) :
    Chosen g p f own := by
  cases own with
  | none =>
      refine .nothing ?_
      rintro c (hc | hc)
      · cases (hown _).mpr hc
      · exact hnone _ _ _ hc
  | some m =>
      refine .least (.own ((hown m).mp rfl)) ?_
      rintro d (hd | hd)
      · obtain ⟨⟩ := (hown _).mpr hd
        exact .inr ⟨rfl, .inr ⟨rfl, Nat.le_refl 0⟩⟩
      · exact absurd hd (hnone _ _ _)

/-- The better one of the match of the rule on top and that of the injection that leads all others
is chosen. -/
theorem chosen_prefer
    {own : Option PatternMatch}
    (hown : ∀ m, own = some m ↔ OwnMatch g p f m)
    {place : Nat}
    {i : Injection}
    {m : PatternMatch}
    (h : Injects g p f.contentScopes.names g.injections place i m)
    (hleads : ∀ place' i' m', Injects g p f.contentScopes.names g.injections place' i' m' →
      Candidate.Leads ⟨m, i.rank, place⟩ ⟨m', i'.rank, place'⟩) :
    Chosen g p f (prefer own (some (i.priority, m))) := by
  cases own with
  | none =>
      refine .least (c := ⟨m, i.rank, place⟩) (.injected h) ?_
      rintro d (hd | hd)
      · cases (hown _).mpr hd
      · exact hleads _ _ _ hd
  | some own =>
      rcases prefer_leads own m i place with
        ⟨hprefer, hlead⟩ | ⟨hprefer, hlead⟩
      all_goals rw [hprefer]
      · refine .least (c := ⟨m, i.rank, place⟩) (.injected h) ?_
        rintro d (hd | hd)
        · obtain ⟨⟩ := (hown _).mpr hd
          exact hlead
        · exact hleads _ _ _ hd
      · refine .least (c := ⟨own, 1, 0⟩) (.own ((hown own).mp rfl)) ?_
        rintro d (hd | hd)
        · obtain ⟨⟩ := (hown _).mpr hd
          exact .inr ⟨rfl, .inr ⟨rfl, Nat.le_refl 0⟩⟩
        · exact hlead.trans (hleads _ _ _ hd)

/-- The match that is chosen leads all that compete, and there is one if there are any. Whether the
search among the injections ends early makes no difference. -/
theorem nextMatch_least
    (h : g.Answers p f)
    (hsorted : g.injections.Pairwise fun i j => i.priority.value ≤ j.priority.value) :
    (∃ found, (nextMatch g p f).outcome = .ok found ∧ Chosen g p f found) ∧
      injectionMatch g p f =
        bestOfAll g p (g.injections.filter (·.selector.accepts f.contentScopes.names)) none := by
  refine ⟨?_, injectionMatch_eq_bestOfAll h⟩
  obtain ⟨own, hown, hownMatch⟩ := exists_ruleMatch h
  obtain ⟨injected, hinjected, hleader⟩ :
      ∃ injected, (injectionMatch g p f).outcome = .ok injected ∧
        Leader g p f.contentScopes.names g.injections none injected := by
    rw [injectionMatch_eq_bestOfAll h]
    exact exists_leader h (List.Subset.refl g.injections) none
  have houtcome : (nextMatch g p f).outcome = .ok (prefer own injected) := by
    simp only [nextMatch, Reported.outcome_bind, hown, hinjected]
    rfl
  refine ⟨prefer own injected, houtcome, ?_⟩
  cases hleader with
  | stays hstays =>
      have hnone : ∀ place i m, ¬ Injects g p f.contentScopes.names g.injections place i m :=
        fun place i m hm => Bool.noConfusion (hstays place i m hm)
      have hprefer : prefer own none = own := by cases own <;> rfl
      rw [hprefer]
      exact chosen_own hownMatch hnone
  | found hm _ hfirst =>
      exact chosen_prefer hownMatch hm fun place' i' m' hm' =>
        hm.leads hsorted hm' (hfirst place' i' m' hm')

/-- A grammar with a word and an injection that matches at the same place. -/
def tie : CompileRequest where
  sources := {
    library := .empty
    base := {
      scopeName := "source"
      patterns := [{ name := some "word", matchPattern := some "word" }]
      injections := some [("L:source", { name := some "letter", matchPattern := some "w" })] } }
  engine := literalEngine

/-- The injection has priority left and wins. -/
theorem nextMatch_least_tie :
    ∃ (g : Grammar) (p : ScanPoint) (f : Frame),
      (Grammar.compile tie).outcome = .ok g ∧
      (nextMatch g p f).outcome = .ok (some ⟨.rule 2, 2, 3, [some ⟨2, 3⟩]⟩) ∧
      g.Answers p f ∧
      g.injections.Pairwise (fun i j => i.priority.value ≤ j.priority.value) ∧
      (∃ found, (nextMatch g p f).outcome = .ok found ∧ Chosen g p f found) ∧
      injectionMatch g p f =
        bestOfAll g p (g.injections.filter (·.selector.accepts f.contentScopes.names)) none := by
  have hscan : (Grammar.compile tie).outcome.map (fun g =>
      let f := (startState (g.scanner .plain) .initial).top
      ((nextMatch g ⟨"a word\n", true, 0, none⟩ f).outcome,
        (g.setInside f :: g.injections.map (g.sets.inside ·.rule)).all PatternSet.compiles)) =
      .ok (.ok (some ⟨.rule 2, 2, 3, [some ⟨2, 3⟩]⟩), true) := by
    rw [Grammar.compile, Grammar.compileRules_of_single rfl rfl parseSelector_source]
    decide +kernel
  obtain ⟨g, hg, hfound⟩ := exists_of_map_eq_ok hscan
  obtain ⟨hnext, hcompiles⟩ := Prod.mk.inj hfound
  have hengine : g.engine.Lawful := by
    rw [(Grammar.compile_eq_ok hg).1]
    exact literalEngine_lawful
  have hanswers : g.Answers ⟨"a word\n", true, 0, none⟩
      (startState (g.scanner .plain) .initial).top := by
    refine Grammar.answers_of_lawful hengine nofun (Text.isBoundary_zero _) ?_
    intro set hset
    refine PatternSet.exists_scanner (List.all_eq_true.mp hcompiles set ?_)
    cases hset with
    | own => exact List.mem_cons_self
    | injected i hi => exact List.mem_cons_of_mem _ (List.mem_map_of_mem hi)
  exact ⟨g, _, _, hg, hnext, hanswers, Grammar.sorted_of_compile hg,
    nextMatch_least hanswers (Grammar.sorted_of_compile hg)⟩

end Choice

end LineScopes
