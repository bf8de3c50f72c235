import LineScopes.Proofs.Grammar.Includes

/-!
# What a walk finds

A walk visits a rule once, under whatever surroundings it meets the rule first. Over regular grammars
that is enough: once the walk of a rule has ended, everything each newly visited rule leads to has
been visited, and everything it asks for has been found. The bound of a walk is never reached,
because every nested call has one more rule behind it.

**Main definitions.** `Requested`, `Walk.Answers`, `Walk.Explores`, `unvisited`, `startRules`.

**Main statements.** `walkRule_explores`: by induction on the bound. `walkRequest_explores`: the
walk of a request visits the rules that the request is for.
-/

namespace LineScopes

/-- What a rule asks for, or a grammar that is injected into another one. -/
inductive Requested
    (available : Library)
    (base : RawGrammar)
    (injected : String → List String) : Request → Prop
  | asked {p : PlacedRule} {r : Request} (h : Asks available base p r) : Requested _ _ _ r
  | injected {g : RawGrammar} {scope : String} (hg : available.get? g.scopeName = some g)
    (h : scope ∈ injected g.scopeName) : Requested _ _ _ (.whole scope)

/-- The rules that a request is for. -/
def startRules
    (self : RawGrammar) : Request → List PlacedRule
  | .whole _ => rootRules self
  | .part _ name => ((Surroundings.root self).lookup name).toList

/-- The rules that a request is for, if its grammar is available. -/
def requestedRules
    (available : Library)
    (r : Request) : List PlacedRule :=
  match available.get? r.scope with
  | some g => startRules g r
  | none => []

theorem mem_children_of_mem_startRules
    {self : RawGrammar}
    {r : Request}
    {q : PlacedRule}
    (hq : q ∈ startRules self r) :
    q ∈ self.children := by
  cases r with
  | whole scope =>
      exact mem_children_of_mem_rootRules hq
  | part scope name =>
      exact mem_children_of_lookup_root (Option.mem_toList.mp hq)

theorem exists_serves_of_mem_requestedRules
    {available : Library}
    {r : Request}
    {q : PlacedRule}
    (hq : q ∈ requestedRules available r) :
    ∃ s, Surroundings.Serves available s q := by
  unfold requestedRules at hq
  cases hg : available.get? r.scope with
  | none =>
      simp [hg] at hq
  | some g =>
      have hmem : q ∈ startRules g r := by
        simpa [hg] using hq
      refine ⟨.root g, Surroundings.serves_root ?_ (mem_children_of_mem_startRules hmem)⟩
      rw [scopeName_of_get? hg, hg]

namespace Walk

/-- A walk is done with a rule: it has seen all the rule leads to and found all it asks for. -/
structure Answers
    (available : Library)
    (base : RawGrammar)
    (w : Walk)
    (p : PlacedRule) : Prop where
  leads : ∀ {q : PlacedRule}, Leads available base p q → q.address ∈ w.visited
  asks : ∀ {r : Request}, Asks available base p r → ∃ r' ∈ w.found, r'.key = r.key

/-- A walk goes on: it forgets nothing, finds only what is requested, and is done with every rule it
visits on the way. -/
structure Explores
    (available : Library)
    (base : RawGrammar)
    (injected : String → List String)
    (w w' : Walk) : Prop where
  visited : w.visited ⊆ w'.visited
  found : w.found ⊆ w'.found
  requested : ∀ r ∈ w'.found, r ∈ w.found ∨ Requested available base injected r
  answers : ∀ {s : Surroundings} {q : PlacedRule}, s.Serves available q →
    q.address ∈ w'.visited → q.address ∉ w.visited → w'.Answers available base q

variable {available : Library} {base self : RawGrammar} {injected : String → List String}
variable {w w' w'' : Walk}

theorem Answers.mono
    {p : PlacedRule}
    (h : w.Answers available base p)
    (hvisited : w.visited ⊆ w'.visited)
    (hfound : w.found ⊆ w'.found) :
    w'.Answers available base p := by
  constructor
  · intro q hq
    exact hvisited (h.leads hq)
  · intro r hr
    obtain ⟨r', hr', hkey⟩ := h.asks hr
    exact ⟨r', hfound hr', hkey⟩

namespace Explores

theorem refl
    (w : Walk) :
    w.Explores available base injected w :=
  ⟨fun _ h => h, fun _ h => h, fun _ h => Or.inl h, fun _ h hnot => absurd h hnot⟩

theorem trans
    (h : w.Explores available base injected w')
    (h' : w'.Explores available base injected w'') :
    w.Explores available base injected w'' := by
  refine ⟨fun _ hmem => h'.visited (h.visited hmem), fun _ hmem => h'.found (h.found hmem), ?_, ?_⟩
  · intro r hr
    rcases h'.requested r hr with hr | hr
    · exact h.requested r hr
    · exact Or.inr hr
  · intro s q hs hq hnew
    by_cases hmid : q.address ∈ w'.visited
    · exact (h.answers hs hmid hnew).mono h'.visited h'.found
    · exact h'.answers hs hq hmid

end Explores

theorem exists_key_mem_add
    (w : Walk)
    (r : Request) :
    ∃ r' ∈ (w.add r).found, r'.key = r.key := by
  unfold add
  split
  · rename_i hany
    obtain ⟨r', hr', hkey⟩ := List.any_eq_true.mp hany
    exact ⟨r', hr', by simpa using hkey⟩
  · exact ⟨r, by simp, rfl⟩

@[simp] theorem visited_add
    (w : Walk)
    (r : Request) :
    (w.add r).visited = w.visited := by
  unfold add
  split <;> rfl

theorem found_subset_add
    (w : Walk)
    (r : Request) :
    w.found ⊆ (w.add r).found := by
  unfold add
  split
  · exact fun _ h => h
  · exact List.subset_append_left _ _

theorem mem_found_add
    {r r' : Request}
    (h : r' ∈ (w.add r).found) :
    r' ∈ w.found ∨ r' = r := by
  unfold add at h
  split at h
  · exact Or.inl h
  · simpa using h

theorem explores_add
    (w : Walk)
    {r : Request}
    (hr : Requested available base injected r) :
    w.Explores available base injected (w.add r) := by
  refine ⟨by simp, found_subset_add w r, ?_, ?_⟩
  · intro r' hr'
    rcases mem_found_add hr' with h | rfl
    · exact Or.inl h
    · exact Or.inr hr
  · intro s q hs hq hnew
    exact absurd (by simpa using hq) hnew

theorem explores_foldl_add
    {scopes : List String}
    (h : ∀ scope ∈ scopes, Requested available base injected (.whole scope))
    (w : Walk) :
    w.Explores available base injected (scopes.foldl (fun w scope => w.add (.whole scope)) w) := by
  induction scopes generalizing w with
  | nil =>
      exact .refl w
  | cons scope rest ih =>
      have hfirst := explores_add w (h scope List.mem_cons_self)
      exact hfirst.trans (ih (fun scope' hscope' => h scope' (List.mem_cons_of_mem _ hscope')) _)

end Walk

section Bound

/-- How many rules of two grammars have not been visited. -/
def unvisited
    (base self : RawGrammar)
    (w : Walk) : Nat :=
  (base.sites ++ self.sites).countP fun x => !w.visited.contains x.2.address

variable {w w' : Walk}

theorem unvisited_le_of_subset
    (base self : RawGrammar)
    (h : w.visited ⊆ w'.visited) :
    unvisited base self w' ≤ unvisited base self w := by
  refine List.countP_mono_left fun x _ hx => ?_
  simp only [Bool.not_eq_true', List.contains_eq_mem, decide_eq_false_iff_not] at hx ⊢
  exact fun hmem => hx (h hmem)

theorem unvisited_mark_lt
    {base self : RawGrammar}
    {s : Surroundings}
    {p : PlacedRule}
    (hp : (s, p) ∈ base.sites ++ self.sites)
    (hnew : p.address ∉ w.visited) :
    unvisited base self (w.mark p.address) < unvisited base self w := by
  refine countP_lt_countP ?_ hp ?_ ?_
  · intro x _ hx
    simp only [Bool.not_eq_true', List.contains_eq_mem, decide_eq_false_iff_not] at hx ⊢
    exact fun hmem => hx (List.mem_cons_of_mem _ hmem)
  · simp [Walk.mark]
  · simpa using hnew

theorem unvisited_lt_bound
    (base self : RawGrammar)
    (w : Walk) :
    unvisited base self w < base.size + self.size + 1 := by
  have hcount : unvisited base self w ≤ (base.sites ++ self.sites).length := List.countP_le_length
  have hbase := length_sites_le base
  have hself := length_sites_le self
  rw [List.length_append] at hcount
  omega

end Bound

/-- The last part of the walk of a rule: what the rule includes. -/
def walkInclude
    (base : RawGrammar)
    (step : Surroundings → PlacedRule → Walk → Walk)
    (s : Surroundings)
    (p : PlacedRule)
    (w : Walk) : Walk :=
  match p.rule.reference with
  | none => w
  | some text =>
    match followReference base s (.ofText text) with
    | .inl (s', rules) => rules.foldl (fun w q => step s' q w) w
    | .inr request => w.add request

theorem walkRule_of_visited
    {base : RawGrammar}
    {bound : Nat}
    {s : Surroundings}
    {p : PlacedRule}
    {w : Walk}
    (h : p.address ∈ w.visited) :
    walkRule base (bound + 1) s p w = w := by
  simp [walkRule, h]

/-- A new rule is marked, then the rules inside it are walked, then what it includes. -/
theorem walkRule_of_new
    {base : RawGrammar}
    {bound : Nat}
    {s : Surroundings}
    {p : PlacedRule}
    {w : Walk}
    (h : p.address ∉ w.visited) :
    walkRule base (bound + 1) s p w =
      walkInclude base (walkRule base bound) (s.enter p) p
        ((innerRules p).foldl (fun w q => walkRule base bound (s.enter p) q w)
          (w.mark p.address)) := by
  simp only [walkRule, List.contains_eq_mem, h, decide_false, Bool.false_eq_true, if_false]
  rfl

section Exploring

variable {available : Library} {base self : RawGrammar} {injected : String → List String}

/-- Steps that each explore and see something explore together and see all of it. They may need that
enough has been visited before. -/
theorem foldl_explores
    {α : Type}
    (Fits : Walk → Prop)
    {step : Walk → α → Walk}
    (seen : α → List RuleAddress)
    {l : List α}
    (hfits : ∀ {w w' : Walk}, w.visited ⊆ w'.visited → Fits w → Fits w')
    (hstep : ∀ a ∈ l, ∀ w, Fits w →
      w.Explores available base injected (step w a) ∧ seen a ⊆ (step w a).visited)
    (w : Walk)
    (hw : Fits w) :
    w.Explores available base injected (l.foldl step w) ∧
      ∀ a ∈ l, seen a ⊆ (l.foldl step w).visited := by
  induction l generalizing w with
  | nil =>
      exact ⟨.refl w, by simp⟩
  | cons a rest ih =>
      obtain ⟨hfirst, hseen⟩ := hstep a List.mem_cons_self w hw
      obtain ⟨hrest, hall⟩ := ih (fun b hb => hstep b (List.mem_cons_of_mem _ hb)) (step w a)
        (hfits hfirst.visited hw)
      refine ⟨hfirst.trans hrest, fun b hb => ?_⟩
      rcases List.mem_cons.mp hb with rfl | hb
      · exact List.Subset.trans hseen hrest.visited
      · exact hall b hb

/-- Rules that are walked one after the other are all visited. -/
theorem foldl_rules_explores
    {bound : Nat}
    {step : Walk → PlacedRule → Walk}
    {rules : List PlacedRule}
    (hstep : ∀ q ∈ rules, ∀ w, unvisited base self w < bound →
      w.Explores available base injected (step w q) ∧ q.address ∈ (step w q).visited)
    {w : Walk}
    (hw : unvisited base self w < bound) :
    w.Explores available base injected (rules.foldl step w) ∧
      ∀ q ∈ rules, q.address ∈ (rules.foldl step w).visited := by
  have h := foldl_explores (fun w => unvisited base self w < bound)
    (fun q : PlacedRule => [q.address])
    (fun hsubset hlt => Nat.lt_of_le_of_lt (unvisited_le_of_subset base self hsubset) hlt)
    (fun q hq w hw => by simpa using hstep q hq w hw) w hw
  simpa using h

variable (hregular : available.Regular)
include hregular

/-- What includes lead to and ask for is settled in any surroundings that serve the rule. -/
theorem Walk.answers_of_serves
    {s : Surroundings}
    {p : PlacedRule}
    {w : Walk}
    (hs : s.Serves available p)
    (hinner : ∀ q ∈ innerRules p, q.address ∈ w.visited)
    (hrules : ∀ {r s' rules}, p.RefersTo r → followReference base s r = .inl (s', rules) →
      ∀ q ∈ rules, q.address ∈ w.visited)
    (hrequest : ∀ {r request}, p.RefersTo r → followReference base s r = .inr request →
      ∃ r' ∈ w.found, r'.key = request.key) :
    w.Answers available base p := by
  constructor
  · intro q hq
    cases hq with
    | inner hq =>
        exact hinner q hq
    | @follow s₁ s₂ r rules hs₁ hr hfollow hq =>
        have heq := hs₁.follow_eq hregular base hs hr
        rw [hfollow] at heq
        cases hfollow' : followReference base s r with
        | inl x =>
            obtain rfl : rules = x.2 := by
              simpa [hfollow'] using heq
            exact hrules hr hfollow' q hq
        | inr request =>
            simp [hfollow'] at heq
  · rintro request ⟨s₁, r, hs₁, hr, hfollow⟩
    have heq := hs₁.follow_eq hregular base hs hr
    rw [hfollow] at heq
    cases hfollow' : followReference base s r with
    | inl x =>
        simp [hfollow'] at heq
    | inr request' =>
        obtain rfl : request = request' := by
          simpa [hfollow'] using heq
        exact hrequest hr hfollow'

/-- A walk that marks a rule first has to be done with the rule as well. -/
theorem Walk.explores_of_mark
    {s : Surroundings}
    {p : PlacedRule}
    {w w' : Walk}
    (hs : s.Serves available p)
    (h : (w.mark p.address).Explores available base injected w')
    (hp : w'.Answers available base p) :
    w.Explores available base injected w' := by
  refine ⟨fun _ hmem => h.visited (List.mem_cons_of_mem _ hmem), h.found, h.requested, ?_⟩
  intro s' q hs' hq hnew
  by_cases hsame : q.address = p.address
  · rwa [hs'.eq_of_address hregular hs hsame]
  · exact h.answers hs' hq (by simpa [Walk.mark, hsame] using hnew)

variable (hbase : available.get? base.scopeName = some base)
include hbase

/-- The walk of an include visits what it leads to, or finds what it asks for. -/
theorem walkInclude_explores
    {bound : Nat}
    {step : Surroundings → PlacedRule → Walk → Walk}
    (hstep : ∀ {s : Surroundings} {q : PlacedRule}, s.Serves available q →
      s.grammar = self ∨ s.grammar = base → ∀ w, unvisited base self w < bound →
      w.Explores available base injected (step s q w) ∧ q.address ∈ (step s q w).visited)
    {s : Surroundings}
    {p : PlacedRule}
    (hs : s.Serves available p)
    (hself : s.grammar = self ∨ s.grammar = base)
    {w : Walk}
    (hw : unvisited base self w < bound) :
    w.Explores available base injected (walkInclude base step s p w) ∧
      (∀ {r s' rules}, p.RefersTo r → followReference base s r = .inl (s', rules) →
        ∀ q ∈ rules, q.address ∈ (walkInclude base step s p w).visited) ∧
      ∀ {r request}, p.RefersTo r → followReference base s r = .inr request →
        ∃ r' ∈ (walkInclude base step s p w).found, r'.key = request.key := by
  unfold walkInclude
  cases hreference : p.rule.reference with
  | none =>
      have hnothing : ∀ {r}, ¬ p.RefersTo r := by
        simp [PlacedRule.RefersTo, hreference]
      exact ⟨.refl w, fun hr => absurd hr hnothing, fun hr => absurd hr hnothing⟩
  | some text =>
      have hrefers : ∀ {r}, p.RefersTo r ↔ r = .ofText text := by
        simp [PlacedRule.RefersTo, hreference, eq_comm]
      dsimp only
      cases hfollow : followReference base s (.ofText text) with
      | inl x =>
          obtain ⟨s', rules⟩ := x
          obtain ⟨hgrammar, hserved⟩ :=
            hs.of_followReference hregular hbase (hrefers.mpr rfl) hfollow
          have hself' : s'.grammar = self ∨ s'.grammar = base := by
            rcases hgrammar with heq | heq
            · simpa [heq] using hself
            · exact Or.inr heq
          obtain ⟨hexplores, hvisited⟩ :=
            foldl_rules_explores (fun q hq => hstep (hserved q hq) hself') hw
          refine ⟨hexplores, fun hr hrules => ?_, fun hr hrequest => ?_⟩
          · rw [hrefers.mp hr, hfollow] at hrules
            cases hrules
            exact hvisited
          · rw [hrefers.mp hr, hfollow] at hrequest
            cases hrequest
      | inr request =>
          have hasks : Asks available base p request := ⟨s, _, hs, hrefers.mpr rfl, hfollow⟩
          refine ⟨Walk.explores_add w (.asked hasks), fun hr hrules => ?_, fun hr hrequest => ?_⟩
          · rw [hrefers.mp hr, hfollow] at hrules
            cases hrules
          · rw [hrefers.mp hr, hfollow] at hrequest
            cases hrequest
            exact Walk.exists_key_mem_add w request

/-- The walk of a rule visits it and is done with all it visits. -/
theorem walkRule_explores
    {bound : Nat}
    {s : Surroundings}
    {p : PlacedRule}
    (hs : s.Serves available p)
    (hself : s.grammar = self ∨ s.grammar = base)
    {w : Walk}
    (hw : unvisited base self w < bound) :
    w.Explores available base injected (walkRule base bound s p w) ∧
      p.address ∈ (walkRule base bound s p w).visited := by
  induction bound generalizing s p w with
  | zero =>
      omega
  | succ bound ih =>
      by_cases hvisited : p.address ∈ w.visited
      · rw [walkRule_of_visited hvisited]
        exact ⟨.refl w, hvisited⟩
      · -- marking the rule makes room for one more nested call
        have hmark : unvisited base self (w.mark p.address) < bound := by
          obtain ⟨s₀, hwritten, -⟩ := hs.written
          have hmem : (s₀, p) ∈ base.sites ++ self.sites := by
            rcases hself with hself | hself
            · exact List.mem_append_right _ (hself ▸ mem_sites hwritten)
            · exact List.mem_append_left _ (hself ▸ mem_sites hwritten)
          have hlt := unvisited_mark_lt hmem hvisited
          omega
        have hself' : (s.enter p).grammar = self ∨ (s.enter p).grammar = base := by
          simpa using hself
        obtain ⟨hinner, hinside⟩ := foldl_rules_explores
          (fun q hq w hw => ih (hs.enter_child (mem_children_of_mem_innerRules hq)) hself' hw) hmark
        have hbound := unvisited_le_of_subset base self hinner.visited
        obtain ⟨hinclude, hrules, hrequest⟩ := walkInclude_explores hregular hbase
          (fun hs hself w hw => ih hs hself hw) hs.enter hself' (Nat.lt_of_le_of_lt hbound hmark)
        have hall := hinner.trans hinclude
        rw [walkRule_of_new hvisited]
        refine ⟨Walk.explores_of_mark hregular hs hall ?_, hall.visited List.mem_cons_self⟩
        exact Walk.answers_of_serves hregular hs.enter
          (fun q hq => hinclude.visited (hinside q hq)) hrules hrequest

/-- The walk of a request visits the rules that the request is for. -/
theorem walkRequest_explores
    (injected : String → List String)
    {self : RawGrammar}
    (hself : available.get? self.scopeName = some self)
    (r : Request)
    (w : Walk) :
    w.Explores available base injected (walkRequest base self r w) ∧
      ∀ q ∈ startRules self r, q.address ∈ (walkRequest base self r w).visited := by
  have hwalk : walkRequest base self r w =
      (startRules self r).foldl
        (fun w q => walkRule base (base.size + self.size + 1) (.root self) q w) w := by
    cases r <;> rfl
  rw [hwalk]
  refine foldl_rules_explores (fun q hq w hw => ?_) (unvisited_lt_bound base self w)
  exact walkRule_explores hregular hbase
    (Surroundings.serves_root hself (mem_children_of_mem_startRules hq)) (Or.inl rfl) hw

end Exploring

end LineScopes
