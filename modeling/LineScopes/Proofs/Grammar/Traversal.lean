import LineScopes.Proofs.Grammar.Walk

/-!
# The walk ends on every cycle

A walk recurses through rules, captures, repositories and two grammars, and marks nothing but rules.
Read without any bound it is a relation. Whatever the two grammars include, each other or themselves,
the relation has exactly one result, because every nested call has one more rule behind it. The
bound that the walk is given only makes the recursion evident.

**Main definitions.** `Surroundings.Admits`, `Traverses`, `RawGrammar.requests`.

**Main statements.** `traverses_walkRule`: a bound above the number of rules that have not been
visited is never reached. `traverses_iff`: the walk of a request is the one traversal.
`Traverses.found`: what a walk finds is written in one of the two grammars.
-/

namespace LineScopes

/-- A rule may be walked in the surroundings: they are of one of the two grammars, and the rule and
all repositories in force are written there. -/
structure Surroundings.Admits
    (base walked : RawGrammar)
    (s : Surroundings)
    (p : PlacedRule) : Prop where
  grammar : s.grammar = walked ∨ s.grammar = base
  written : ∃ s₀, s.grammar.Writes s₀ p
  holds : ∀ l ∈ s.layers, s.grammar.Holds l

variable {base self : RawGrammar}

namespace Surroundings

theorem admits_root
    {g : RawGrammar}
    (hg : g = self ∨ g = base)
    {q : PlacedRule}
    (hq : q ∈ g.children) :
    (root g).Admits base self q :=
  ⟨hg, ⟨root g, .outermost hq⟩, by simp [root]⟩

namespace Admits

variable {s s' : Surroundings} {p q : PlacedRule} (h : s.Admits base self p)
include h

/-- The repository of a rule is in force where its includes are followed. -/
theorem enter :
    (s.enter p).Admits base self p := by
  obtain ⟨s₀, hwritten⟩ := h.written
  exact ⟨by simpa using h.grammar, ⟨s₀, by simpa using hwritten⟩,
    by simpa using holds_enter hwritten h.holds⟩

/-- What is inside a rule is walked where the repository of the rule is in force. -/
theorem enter_child
    (hq : q ∈ p.children) :
    (s.enter p).Admits base self q := by
  obtain ⟨s₀, hwritten⟩ := h.written
  refine ⟨h.enter.grammar, ⟨s₀.within p, ?_⟩, h.enter.holds⟩
  simpa using RawGrammar.Writes.inside hwritten hq

/-- An include leads to rules that may be walked where it leads. -/
theorem of_followReference
    {r : Reference}
    {rules : List PlacedRule}
    (hrules : followReference base s r = .inl (s', rules))
    (hq : q ∈ rules) :
    s'.Admits base self q := by
  have hknown : ∀ {scope g}, knownGrammar base s.grammar scope = some g → g = self ∨ g = base := by
    intro scope g hg
    obtain ⟨rfl | rfl, -⟩ := knownGrammar_eq_some hg
    · exact h.grammar
    · exact Or.inr rfl
  cases r with
  | base =>
      cases hrules
      exact admits_root (Or.inr rfl) (mem_children_of_mem_rootRules hq)
  | self =>
      cases hrules
      exact admits_root h.grammar (mem_children_of_mem_rootRules hq)
  | named name =>
      cases hrules
      exact ⟨h.grammar, writes_of_lookup h.holds (Option.mem_toList.mp hq), h.holds⟩
  | whole scope =>
      simp only [followReference] at hrules
      split at hrules
      · rename_i g hg
        cases hrules
        exact admits_root (hknown hg) (mem_children_of_mem_rootRules hq)
      · cases hrules
  | part scope name =>
      simp only [followReference] at hrules
      split at hrules
      · rename_i g hg
        cases hrules
        exact admits_root (hknown hg) (mem_children_of_lookup_root (Option.mem_toList.mp hq))
      · cases hrules

end Admits

end Surroundings

/-- The walk of rules one after the other, without a bound: a rule that has been visited is passed
over, and a new one is marked, then what is inside it is walked, then what it includes. -/
inductive Traverses (base : RawGrammar) : Surroundings → List PlacedRule → Walk → Walk → Prop
  | done {s : Surroundings} {w : Walk} : Traverses base s [] w w
  | again {s : Surroundings} {p : PlacedRule} {rest : List PlacedRule} {w w' : Walk}
      (hseen : p.address ∈ w.visited) (hrest : Traverses base s rest w w') :
      Traverses base s (p :: rest) w w'
  | plain {s : Surroundings} {p : PlacedRule} {rest : List PlacedRule} {w w₁ w' : Walk}
      (hnew : p.address ∉ w.visited) (hnone : p.rule.reference = none)
      (hinner : Traverses base (s.enter p) (innerRules p) (w.mark p.address) w₁)
      (hrest : Traverses base s rest w₁ w') :
      Traverses base s (p :: rest) w w'
  | follow {s s' : Surroundings} {p : PlacedRule} {rest rules : List PlacedRule} {text : String}
      {w w₁ w₂ w' : Walk} (hnew : p.address ∉ w.visited) (htext : p.rule.reference = some text)
      (hfollow : followReference base (s.enter p) (.ofText text) = .inl (s', rules))
      (hinner : Traverses base (s.enter p) (innerRules p) (w.mark p.address) w₁)
      (hrules : Traverses base s' rules w₁ w₂) (hrest : Traverses base s rest w₂ w') :
      Traverses base s (p :: rest) w w'
  | request {s : Surroundings} {p : PlacedRule} {rest : List PlacedRule} {text : String}
      {r : Request} {w w₁ w' : Walk} (hnew : p.address ∉ w.visited)
      (htext : p.rule.reference = some text)
      (hfollow : followReference base (s.enter p) (.ofText text) = .inr r)
      (hinner : Traverses base (s.enter p) (innerRules p) (w.mark p.address) w₁)
      (hrest : Traverses base s rest (w₁.add r) w') :
      Traverses base s (p :: rest) w w'

namespace Traverses

variable {s : Surroundings} {rules : List PlacedRule} {w w' w'' : Walk}

/-- A traversal can be continued by that of more rules. -/
theorem append
    {more : List PlacedRule}
    (h : Traverses base s rules w w')
    (hmore : Traverses base s more w' w'') :
    Traverses base s (rules ++ more) w w'' := by
  induction h with
  | done =>
      exact hmore
  | again hseen hrest ih =>
      exact .again hseen (ih hmore)
  | plain hnew hnone hinner hrest _ ih =>
      exact .plain hnew hnone hinner (ih hmore)
  | follow hnew htext hfollow hinner hrules hrest _ _ ih =>
      exact .follow hnew htext hfollow hinner hrules (ih hmore)
  | request hnew htext hfollow hinner hrest _ ih =>
      exact .request hnew htext hfollow hinner (ih hmore)

/-- There is no choice in a traversal. -/
theorem eq_of_traverses
    (h : Traverses base s rules w w')
    (h' : Traverses base s rules w w'') :
    w' = w'' := by
  induction h generalizing w'' with
  | done =>
      cases h'
      rfl
  | again hseen hrest ih =>
      cases h' with
      | again _ hrest' =>
          exact ih hrest'
      | plain hnew => exact absurd hseen hnew
      | follow hnew => exact absurd hseen hnew
      | request hnew => exact absurd hseen hnew
  | plain hnew hnone hinner hrest ihinner ihrest =>
      cases h' with
      | again hseen => exact absurd hseen hnew
      | plain _ _ hinner' hrest' =>
          obtain rfl := ihinner hinner'
          exact ihrest hrest'
      | follow _ htext => simp [hnone] at htext
      | request _ htext => simp [hnone] at htext
  | follow hnew htext hfollow hinner hrules hrest ihinner ihrules ihrest =>
      cases h' with
      | again hseen => exact absurd hseen hnew
      | plain _ hnone => simp [hnone] at htext
      | follow _ htext' hfollow' hinner' hrules' hrest' =>
          obtain rfl := Option.some.inj (htext.symm.trans htext')
          obtain ⟨rfl, rfl⟩ := Prod.mk.inj (Sum.inl.inj (hfollow.symm.trans hfollow'))
          obtain rfl := ihinner hinner'
          obtain rfl := ihrules hrules'
          exact ihrest hrest'
      | request _ htext' hfollow' =>
          obtain rfl := Option.some.inj (htext.symm.trans htext')
          simp [hfollow] at hfollow'
  | request hnew htext hfollow hinner hrest ihinner ihrest =>
      cases h' with
      | again hseen => exact absurd hseen hnew
      | plain _ hnone => simp [hnone] at htext
      | follow _ htext' hfollow' =>
          obtain rfl := Option.some.inj (htext.symm.trans htext')
          simp [hfollow] at hfollow'
      | request _ htext' hfollow' hinner' hrest' =>
          obtain rfl := Option.some.inj (htext.symm.trans htext')
          obtain rfl := Sum.inr.inj (hfollow.symm.trans hfollow')
          obtain rfl := ihinner hinner'
          exact ihrest hrest'

/-- A traversal forgets no rule. -/
theorem visited_subset
    (h : Traverses base s rules w w') :
    w.visited ⊆ w'.visited := by
  induction h with
  | done =>
      exact fun _ h => h
  | again _ _ ih =>
      exact ih
  | plain _ _ _ _ ihinner ihrest =>
      exact fun _ h => ihrest (ihinner (List.mem_cons_of_mem _ h))
  | follow _ _ _ _ _ _ ihinner ihrules ihrest =>
      exact fun _ h => ihrest (ihrules (ihinner (List.mem_cons_of_mem _ h)))
  | request _ _ _ _ _ ihinner ihrest =>
      exact fun _ h => ihrest (by simpa using ihinner (List.mem_cons_of_mem _ h))

end Traverses

/-- Rules whose walks are traversals are traversed one after the other. -/
theorem traverses_foldl
    {s : Surroundings}
    {bound : Nat}
    {step : Walk → PlacedRule → Walk}
    {rules : List PlacedRule}
    (hstep : ∀ q ∈ rules, ∀ w, unvisited base self w < bound →
      Traverses base s [q] w (step w q))
    {w : Walk}
    (hw : unvisited base self w < bound) :
    Traverses base s rules w (rules.foldl step w) := by
  induction rules generalizing w with
  | nil =>
      exact .done
  | cons q rest ih =>
      have hfirst := hstep q List.mem_cons_self w hw
      have hle := unvisited_le_of_subset base self hfirst.visited_subset
      exact hfirst.append
        (ih (fun q' hq' => hstep q' (List.mem_cons_of_mem _ hq')) (Nat.lt_of_le_of_lt hle hw))

/-- A bound above the number of rules that have not been visited is never reached. -/
theorem traverses_walkRule
    {bound : Nat}
    {s : Surroundings}
    {p : PlacedRule}
    (hp : s.Admits base self p)
    {w : Walk}
    (hw : unvisited base self w < bound) :
    Traverses base s [p] w (walkRule base bound s p w) := by
  induction bound generalizing s p w with
  | zero =>
      omega
  | succ bound ih =>
      by_cases hseen : p.address ∈ w.visited
      · rw [walkRule_of_visited hseen]
        exact .again hseen .done
      · -- the rule that is marked is one of those that are counted
        have hmark : unvisited base self (w.mark p.address) < bound := by
          obtain ⟨s₀, hwritten⟩ := hp.written
          have hmem : (s₀, p) ∈ base.sites ++ self.sites := by
            rcases hp.grammar with hgrammar | hgrammar
            · exact List.mem_append_right _ (hgrammar ▸ mem_sites hwritten)
            · exact List.mem_append_left _ (hgrammar ▸ mem_sites hwritten)
          have hlt := unvisited_mark_lt hmem hseen
          omega
        have hinner := traverses_foldl
          (fun q hq w hw => ih (hp.enter_child (mem_children_of_mem_innerRules hq)) hw) hmark
        have hinside := Nat.lt_of_le_of_lt
          (unvisited_le_of_subset base self hinner.visited_subset) hmark
        rw [walkRule_of_new hseen, walkInclude]
        cases htext : p.rule.reference with
        | none =>
            exact .plain hseen htext hinner .done
        | some text =>
            dsimp only
            cases hfollow : followReference base (s.enter p) (.ofText text) with
            | inl target =>
                obtain ⟨s', rules⟩ := target
                have hrules := traverses_foldl
                  (fun q hq w hw => ih (hp.enter.of_followReference hfollow hq) hw) hinside
                exact .follow hseen htext hfollow hinner hrules .done
            | inr r =>
                exact .request hseen htext hfollow hinner .done

/-- The walk of a request is the one traversal of the rules that the request is for. -/
theorem traverses_iff
    {r : Request}
    {w w' : Walk} :
    Traverses base (.root self) (startRules self r) w w' ↔ w' = walkRequest base self r w := by
  have hwalk : walkRequest base self r w =
      (startRules self r).foldl
        (fun w q => walkRule base (base.size + self.size + 1) (.root self) q w) w := by
    cases r <;> rfl
  have hall : Traverses base (.root self) (startRules self r) w (walkRequest base self r w) := by
    rw [hwalk]
    refine traverses_foldl (fun q hq w hw => ?_) (unvisited_lt_bound base self w)
    exact traverses_walkRule
      (Surroundings.admits_root (Or.inl rfl) (mem_children_of_mem_startRules hq)) hw
  constructor
  · intro h
    exact h.eq_of_traverses hall
  · rintro rfl
    exact hall

/-- What has to be loaded for a reference, unless its grammar is already there. -/
def Reference.request? : Reference → Option Request
  | .whole scope => some (.whole scope)
  | .part scope name => some (.part scope name)
  | _ => none

/-- What the rules of a grammar refer to in other grammars. -/
def RawGrammar.requests (g : RawGrammar) : List Request :=
  g.sites.filterMap fun x => (x.2.rule.reference.map Reference.ofText).bind Reference.request?

theorem request?_of_followReference
    {s : Surroundings}
    {reference : Reference}
    {r : Request}
    (h : followReference base s reference = .inr r) :
    reference.request? = some r := by
  cases reference with
  | base => cases h
  | self => cases h
  | named name => cases h
  | whole scope =>
      simp only [followReference] at h
      split at h
      · cases h
      · cases h
        rfl
  | part scope name =>
      simp only [followReference] at h
      split at h
      · cases h
      · cases h
        rfl

theorem mem_requests
    {g : RawGrammar}
    {s : Surroundings}
    {p : PlacedRule}
    (h : g.Writes s p)
    {text : String}
    (htext : p.rule.reference = some text)
    {r : Request}
    (hr : (Reference.ofText text).request? = some r) :
    r ∈ g.requests := by
  refine List.mem_filterMap.mpr ⟨_, mem_sites h, ?_⟩
  simp [htext, hr]

/-- What is requested for an include is written in one of the two grammars. -/
theorem Surroundings.Admits.mem_requests
    {s : Surroundings}
    {p : PlacedRule}
    (h : s.Admits base self p)
    {text : String}
    (htext : p.rule.reference = some text)
    {r : Request}
    (hfollow : followReference base (s.enter p) (.ofText text) = .inr r) :
    r ∈ base.requests ++ self.requests := by
  obtain ⟨s₀, hwritten⟩ := h.written
  have hmem := LineScopes.mem_requests hwritten htext (request?_of_followReference hfollow)
  rcases h.grammar with hgrammar | hgrammar
  · exact List.mem_append_right _ (hgrammar ▸ hmem)
  · exact List.mem_append_left _ (hgrammar ▸ hmem)

/-- What a traversal finds is written in one of the two grammars. -/
theorem Traverses.found
    {s : Surroundings}
    {rules : List PlacedRule}
    {w w' : Walk}
    (h : Traverses base s rules w w')
    (hrules : ∀ q ∈ rules, s.Admits base self q) :
    w'.found ⊆ w.found ++ (base.requests ++ self.requests) := by
  -- what was found is found again, what is new is written
  have htrans : ∀ {found found' found'' : List Request},
      found' ⊆ found ++ (base.requests ++ self.requests) →
      found'' ⊆ found' ++ (base.requests ++ self.requests) →
      found'' ⊆ found ++ (base.requests ++ self.requests) := by
    intro found found' found'' h h' r hr
    rcases List.mem_append.mp (h' hr) with hr | hr
    · exact h hr
    · exact List.mem_append_right _ hr
  induction h with
  | done =>
      exact List.subset_append_left _ _
  | again _ _ ih =>
      exact ih fun q hq => hrules q (List.mem_cons_of_mem _ hq)
  | @plain s p rest w w₁ w' _ _ _ _ ihinner ihrest =>
      obtain ⟨hp, hrest⟩ := List.forall_mem_cons.mp hrules
      exact htrans (ihinner fun q hq => hp.enter_child (mem_children_of_mem_innerRules hq))
        (ihrest hrest)
  | @follow s s' p rest rules text w w₁ w₂ w' _ _ hfollow _ _ _ ihinner ihrules ihrest =>
      obtain ⟨hp, hrest⟩ := List.forall_mem_cons.mp hrules
      have hinner := ihinner fun q hq => hp.enter_child (mem_children_of_mem_innerRules hq)
      exact htrans (htrans hinner (ihrules fun q hq => hp.enter.of_followReference hfollow hq))
        (ihrest hrest)
  | @request s p rest text r w w₁ w' _ htext hfollow _ _ ihinner ihrest =>
      obtain ⟨hp, hrest⟩ := List.forall_mem_cons.mp hrules
      have hinner := ihinner fun q hq => hp.enter_child (mem_children_of_mem_innerRules hq)
      have hadd : (w₁.add r).found ⊆ w₁.found ++ (base.requests ++ self.requests) := by
        intro r' hr'
        rcases Walk.mem_found_add hr' with hr' | rfl
        · exact List.mem_append_left _ hr'
        · exact List.mem_append_right _ (hp.mem_requests htext hfollow)
      exact htrans (htrans hinner hadd) (ihrest hrest)

/-- The walk of a request finds what is written in one of the two grammars. -/
theorem found_walkRequest
    (base self : RawGrammar)
    (r : Request)
    (w : Walk) :
    (walkRequest base self r w).found ⊆ w.found ++ (base.requests ++ self.requests) := by
  refine (traverses_iff.mpr rfl : Traverses base (.root self) (startRules self r) w _).found ?_
  exact fun q hq => Surroundings.admits_root (Or.inl rfl) (mem_children_of_mem_startRules hq)

end LineScopes
