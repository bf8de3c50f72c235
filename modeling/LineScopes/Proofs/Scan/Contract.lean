import LineScopes.Proofs.Scan.Frames

/-!
# Matches of a lawful engine

A lawful engine finds matches at or behind the place of a scan, with groups inside the text. This
module carries the contract from the engine through the pattern sets to the match that a step of a
scan selects.

A frame may hold patterns that were compiled for an earlier line. They are lawful if the engine
they were compiled with is.

**Main definitions.** `Injection.Prevails`.

**Main statements.** `find_eq_some_iff`: what a match of a set consists of. `find_within`: it lies
in the text. `lasting_lawful`: the patterns kept in frames stay lawful. `nextMatch_cases`: the next
match is that of the rule on top or that of an injection.
-/

namespace LineScopes

namespace PatternSet

/-- Every scanner of the set is lawful. -/
def Lawful (s : PatternSet) : Prop :=
  ∀ a scan, s.scanner a = .ok scan → scan.Lawful

theorem lawful_ofItems
    {engine : Engine}
    (he : engine.Lawful)
    (items : List PatternItem) :
    (ofItems engine items).Lawful := by
  intro a scan hscan
  rw [scanner_ofItems] at hscan
  exact he _ _ hscan

/-- A match of a set comes from a scanner and stands for one of the patterns. -/
theorem find_eq_some_iff
    {s : PatternSet}
    {text : String}
    {pos : Nat}
    {a : Anchors}
    {m : PatternMatch} :
    s.find text pos a = .ok (some m) ↔
      ∃ scan found item,
        s.scanner a = .ok scan ∧
        scan text pos = some found ∧
        s.items[found.index]? = some item ∧
        m = ⟨item.label, found.first, found.last, found.groups⟩ := by
  unfold find
  split
  · rename_i hempty
    have hnil : s.items = [] := List.isEmpty_iff.mp hempty
    simp [hnil]
  · cases hscan : s.scanner a with
    | error e =>
        simp [bind, Except.bind]
    | ok scan =>
        simp only [bind, Except.bind, pure, Except.pure, Except.ok.injEq, Option.bind_eq_some_iff,
          Option.map_eq_some_iff]
        constructor
        · rintro ⟨found, hfound, item, hitem, rfl⟩
          exact ⟨scan, found, item, rfl, hfound, hitem, rfl⟩
        · rintro ⟨_, found, item, rfl, hfound, hitem, rfl⟩
          exact ⟨found, hfound, item, hitem, rfl⟩

/-- A match has the label of one of the patterns. -/
theorem exists_item_of_find
    {s : PatternSet}
    {text : String}
    {pos : Nat}
    {a : Anchors}
    {m : PatternMatch}
    (h : s.find text pos a = .ok (some m)) :
    ∃ item, item ∈ s.items ∧ item.label = m.label := by
  obtain ⟨scan, found, item, -, -, hitem, rfl⟩ := find_eq_some_iff.mp h
  exact ⟨item, List.mem_of_getElem? hitem, rfl⟩

/-- A set with a scanner for the anchors can be searched. -/
theorem exists_find
    {s : PatternSet}
    {a : Anchors}
    (h : ∃ scan, s.scanner a = .ok scan)
    (text : String)
    (pos : Nat) :
    ∃ found, s.find text pos a = .ok found := by
  obtain ⟨scan, hscan⟩ := h
  unfold find
  split
  · exact ⟨_, rfl⟩
  · rw [hscan]
    exact ⟨_, rfl⟩

/-- Whether the set has a scanner for all anchors. -/
def compiles (s : PatternSet) : Bool :=
  [true, false].all fun allowA => [true, false].all fun allowG => (s.scanner ⟨allowA, allowG⟩).isOk

theorem exists_scanner
    {s : PatternSet}
    (h : s.compiles = true)
    (a : Anchors) :
    ∃ scan, s.scanner a = .ok scan := by
  obtain ⟨allowA, allowG⟩ := a
  simp only [compiles, List.all_eq_true] at h
  have hok := h allowA (by cases allowA <;> simp) allowG (by cases allowG <;> simp)
  cases hscan : s.scanner ⟨allowA, allowG⟩ with
  | ok scan => exact ⟨scan, rfl⟩
  | error e => simp [hscan, Except.isOk, Except.toBool] at hok

end PatternSet

/-- A match found from an offset on lies behind it, and its groups delimit parts of the text. -/
structure PatternMatch.Within
    (m : PatternMatch)
    (text : String)
    (pos : Nat) : Prop where
  pos_le_first : pos ≤ m.first
  first_le_last : m.first ≤ m.last
  boundary_first : Text.IsBoundary text m.first
  boundary_last : Text.IsBoundary text m.last
  groups : ∀ n s, m.groups.span? n = some s → s.Within text

/-- The whole match of a lawful scanner delimits a part of the text. -/
theorem Scanner.Lawful.found_within
    {scan : Scanner}
    (hscan : scan.Lawful)
    {text : String}
    {start : Nat}
    (hstart : Text.IsBoundary text start)
    {found : Found}
    (h : scan text start = some found) :
    Span.Within ⟨found.first, found.last⟩ text := by
  obtain ⟨-, hspans⟩ := hscan text start found hstart h
  cases hwhole : found.groups.span? 0 with
  | none =>
      -- a match without a span counts as empty at the start of the text
      have hzero := Text.isBoundary_zero text
      simpa [Span.Within, Found.first, Found.last, hwhole] using hzero
  | some whole =>
      have hwithin := hspans 0 whole hwhole
      simpa [Span.Within, Found.first, Found.last, hwhole] using hwithin

theorem PatternSet.Lawful.find_within
    {s : PatternSet}
    (hs : s.Lawful)
    {text : String}
    {pos : Nat}
    (hpos : Text.IsBoundary text pos)
    {a : Anchors}
    {m : PatternMatch}
    (h : s.find text pos a = .ok (some m)) :
    m.Within text pos := by
  obtain ⟨scan, found, item, hscan, hfound, -, rfl⟩ := PatternSet.find_eq_some_iff.mp h
  have hlaw := hs a scan hscan
  obtain ⟨hle, hspans⟩ := hlaw text pos found hpos hfound
  obtain ⟨hfirst, hlast, horder⟩ := hlaw.found_within hpos hfound
  exact ⟨hle, horder, hfirst, hlast, hspans⟩

/-- The patterns kept in a frame are lawful. -/
def Frame.Lawful (f : Frame) : Prop :=
  ∀ s, f.patterns = some s → s.Lawful

/-- The patterns kept in the frames of a state are lawful. -/
def State.Lawful (s : State) : Prop :=
  s.All Frame.Lawful

/-- The sets in which the next match is looked for. -/
inductive Offers
    (g : Grammar)
    (f : Frame) : PatternSet → Prop
  | own : Offers g f (g.setInside f)
  | injected (i : Injection) (hi : i ∈ g.injections) : Offers g f (g.sets.inside i.rule)

namespace Grammar

variable {g : Grammar}

theorem lawful_inside
    (he : g.engine.Lawful)
    (id : RuleId) :
    (g.sets.inside id).Lawful := by
  rw [PatternSets.inside_eq]
  exact PatternSet.lawful_ofItems he _

theorem lawful_onward
    (he : g.engine.Lawful)
    (id : RuleId) :
    (g.sets.onward id).Lawful := by
  rw [PatternSets.onward_eq]
  exact PatternSet.lawful_ofItems he _

/-- The patterns kept in a frame are lawful, and so are those made for it. -/
theorem lawful_getD_ofItems
    (he : g.engine.Lawful)
    {f : Frame}
    (hf : f.Lawful)
    (items : List PatternItem) :
    (f.patterns.getD (.ofItems g.engine items)).Lawful := by
  cases hp : f.patterns with
  | none =>
      exact PatternSet.lawful_ofItems he _
  | some s =>
      exact hf s hp

theorem lawful_setInside
    (he : g.engine.Lawful)
    {f : Frame}
    (hf : f.Lawful) :
    (g.setInside f).Lawful := by
  unfold setInside
  split
  · split
    · exact lawful_getD_ofItems he hf _
    · exact lawful_inside he _
  · exact lawful_inside he _

theorem lawful_setOnward
    (he : g.engine.Lawful)
    {f : Frame}
    (hf : f.Lawful) :
    (g.setOnward f).Lawful := by
  unfold setOnward
  split
  · exact lawful_getD_ofItems he hf _
  · exact lawful_onward he _

end Grammar

theorem Frame.Lawful.congr
    {f g : Frame}
    (hf : f.Lawful)
    (h : g.patterns = f.patterns ∨ g.patterns = none) :
    g.Lawful := by
  intro s hs
  rcases h with h | h
  · exact hf s (by rw [← h, hs])
  · rw [h] at hs
    cases hs

theorem Frame.lawful_entered
    (rule : RuleId)
    (enter anchor : Option Nat)
    (reachesEnd : Bool)
    (nameScopes contentScopes : ScopeList) :
    (entered rule enter anchor reachesEnd nameScopes contentScopes).Lawful := by
  intro s hs
  cases hs

/-- Whatever happens on the stack, lawful patterns are kept. -/
theorem lasting_lawful
    {g : Grammar}
    (he : g.engine.Lawful) :
    Frame.Lasting g Frame.Lawful where
  entered := Frame.lawful_entered
  withContentScopes _ _ hf := hf.congr (.inl rfl)
  withClosing f text hf := by
    unfold Frame.withClosing
    split
    · exact hf
    · exact hf.congr (.inr rfl)
  keepInside f hf := by
    unfold Grammar.keepInside
    split
    · intro s hs
      obtain rfl : g.setInside f = s := Option.some.inj hs
      exact Grammar.lawful_setInside he hf
    · exact hf
  keepOnward f _ hf := by
    unfold Grammar.keepOnward
    split
    · intro s hs
      obtain rfl : g.setOnward f = s := Option.some.inj hs
      exact Grammar.lawful_setOnward he hf
    · exact hf
  reset _ hf := hf.congr (.inl rfl)

theorem Offers.lawful
    {g : Grammar}
    (he : g.engine.Lawful)
    {f : Frame}
    (hf : f.Lawful)
    {s : PatternSet}
    (h : Offers g f s) :
    s.Lawful := by
  cases h with
  | own =>
      exact Grammar.lawful_setInside he hf
  | injected i hi =>
      exact Grammar.lawful_inside he _

section NextMatch

variable {g : Grammar} {p : ScanPoint} {f : Frame}

theorem ruleMatch_eq_some
    {m : PatternMatch}
    (h : (ruleMatch g p f).outcome = .ok (some m)) :
    ∃ a, (g.setInside f).find p.text p.pos a = .ok (some m) := by
  simp only [ruleMatch, Reported.outcome_bind_eq_ok, Reported.outcome_liftM] at h
  obtain ⟨-, -, found, hfound, h⟩ := h
  cases found with
  | some m' =>
      obtain rfl : m' = m := by simpa using h
      exact ⟨_, hfound⟩
  | none =>
      dsimp only at h
      split at h
      · exact ⟨_, h⟩
      · simp at h

/-- The best injected match is one of the injections', with its priority, unless it was given. -/
theorem bestInjected_eq_some
    {injections : List Injection}
    {best : Option InjectedMatch}
    {m : InjectedMatch}
    (h : (bestInjected g p injections best).outcome = .ok (some m)) :
    best = some m ∨
      ∃ i ∈ injections, i.priority = m.1 ∧
        (g.sets.inside i.rule).findAt p = .ok (some m.2) := by
  induction injections generalizing best with
  | nil =>
      left
      simpa [bestInjected] using h
  | cons i rest ih =>
      have later : ∀ {b}, (bestInjected g p rest b).outcome = .ok (some m) →
          b = some m ∨
            ∃ j ∈ i :: rest, j.priority = m.1 ∧
              (g.sets.inside j.rule).findAt p = .ok (some m.2) := by
        intro b hb
        rcases ih hb with hbest | ⟨j, hj, hfound⟩
        · exact Or.inl hbest
        · exact Or.inr ⟨j, List.mem_cons_of_mem i hj, hfound⟩
      simp only [bestInjected, Reported.outcome_bind_eq_ok, Reported.outcome_liftM] at h
      obtain ⟨found, hfound, h⟩ := h
      cases found with
      | none =>
          exact later h
      | some m' =>
          dsimp only at h
          split at h
          · simp only [Reported.outcome_bind_eq_ok] at h
            obtain ⟨-, -, h⟩ := h
            have here : some (i.priority, m') = some m →
                ∃ j ∈ i :: rest, j.priority = m.1 ∧
                  (g.sets.inside j.rule).findAt p = .ok (some m.2) := by
              rintro ⟨⟩
              exact ⟨i, List.mem_cons_self, rfl, hfound⟩
            split at h
            · exact Or.inr (here (by simpa using h))
            · rcases later h with hbest | hlater
              · exact Or.inr (here hbest)
              · exact Or.inr hlater
          · exact later h

theorem injectionMatch_eq_some
    {m : InjectedMatch}
    (h : (injectionMatch g p f).outcome = .ok (some m)) :
    ∃ i ∈ g.injections, i.selector.accepts f.contentScopes.names = true ∧ i.priority = m.1 ∧
      (g.sets.inside i.rule).findAt p = .ok (some m.2) := by
  unfold injectionMatch at h
  split at h
  · simp at h
  · rcases bestInjected_eq_some h with hnone | ⟨i, hi, hpriority, hfound⟩
    · simp at hnone
    · obtain ⟨hlisted, haccepts⟩ := List.mem_filter.mp hi
      exact ⟨i, hlisted, haccepts, hpriority, hfound⟩

theorem prefer_eq_some
    {own : Option PatternMatch}
    {injected : Option InjectedMatch}
    {m : PatternMatch}
    (h : prefer own injected = some m) :
    own = some m ∨ ∃ priority, injected = some (priority, m) ∧
      ∀ n, own = some n → m.first < n.first ∨ m.first = n.first ∧ priority = .left := by
  unfold prefer at h
  split at h
  · exact Or.inl h
  · cases h
    exact Or.inr ⟨_, rfl, nofun⟩
  · split at h
    · rename_i n priority m' hbefore
      cases h
      refine Or.inr ⟨_, rfl, fun n' hn => ?_⟩
      obtain rfl := Option.some.inj hn
      exact hbefore
    · exact Or.inl h

/-- An injection has the best match of all injections, and it comes before that of the rule on top,
if there is one. -/
structure Injection.Prevails
    (g : Grammar)
    (p : ScanPoint)
    (f : Frame)
    (m : PatternMatch)
    (i : Injection) : Prop where
  listed : i ∈ g.injections
  accepts : i.selector.accepts f.contentScopes.names = true
  found : (g.sets.inside i.rule).findAt p = .ok (some m)
  best : (injectionMatch g p f).outcome = .ok (some (i.priority, m))
  before : ∀ own, (ruleMatch g p f).outcome = .ok (some own) →
    m.first < own.first ∨ m.first = own.first ∧ i.priority = .left

/-- The next match is that of the rule on top, or that of an injection. -/
theorem nextMatch_cases
    {m : PatternMatch}
    (h : (nextMatch g p f).outcome = .ok (some m)) :
    (ruleMatch g p f).outcome = .ok (some m) ∨ ∃ i : Injection, i.Prevails g p f m := by
  simp only [nextMatch, Reported.outcome_bind_eq_ok] at h
  obtain ⟨own, hown, injected, hinjected, h⟩ := h
  have hprefer : prefer own injected = some m := by simpa using h
  rcases prefer_eq_some hprefer with rfl | ⟨priority, rfl, hbefore⟩
  · exact Or.inl hown
  · obtain ⟨i, hi, haccepts, rfl, hfound⟩ := injectionMatch_eq_some hinjected
    refine Or.inr ⟨i, hi, haccepts, hfound, hinjected, fun n hn => hbefore n ?_⟩
    exact Except.ok.inj (hown.symm.trans hn)

/-- The next match belongs to a set that is offered. -/
theorem nextMatch_offered
    {m : PatternMatch}
    (h : (nextMatch g p f).outcome = .ok (some m)) :
    ∃ s a, Offers g f s ∧ s.find p.text p.pos a = .ok (some m) := by
  rcases nextMatch_cases h with hown | ⟨i, hi⟩
  · obtain ⟨a, hfound⟩ := ruleMatch_eq_some hown
    exact ⟨_, a, .own, hfound⟩
  · exact ⟨_, _, .injected i hi.listed, hi.found⟩

/-- With a lawful engine the next match lies in the text, behind the place of the scan. -/
theorem nextMatch_within
    (he : g.engine.Lawful)
    (hf : f.Lawful)
    (hpos : Text.IsBoundary p.text p.pos)
    {m : PatternMatch}
    (h : (nextMatch g p f).outcome = .ok (some m)) :
    m.Within p.text p.pos := by
  obtain ⟨s, a, hs, hfound⟩ := nextMatch_offered h
  exact (hs.lawful he hf).find_within hpos hfound

end NextMatch

end LineScopes
