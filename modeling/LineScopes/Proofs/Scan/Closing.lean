import LineScopes.Proofs.Rule.Growth
import LineScopes.Proofs.Rule.Injections
import LineScopes.Proofs.Rule.Labels
import LineScopes.Proofs.Scan.Visits

/-!
# Which end closes a region

An end that is found among the patterns of the rule on top is the end pattern of its region, with the
captured texts inserted, and closes that region and nothing else. While an injected region is looked
for, its end pattern is one of the patterns, too, and what it closes is whatever stands on top.

**Main definitions.** `PatternSet.Selects`, `Frame.ending`, `Cursor.ClosesOwn`.

**Main statements.** `closing_of_mem_ruleItems`: the ends among the patterns of a rule.
`step_closing`: what a step does with an end. `nextMatch_closing`: an end is the own end of the region
on top, or that of an injected region.
-/

namespace LineScopes

/-- The set finds a match at a place, and the match is one of an item. -/
def PatternSet.Selects
    (s : PatternSet)
    (p : ScanPoint)
    (item : PatternItem)
    (m : PatternMatch) : Prop :=
  ∃ a scan found, s.scanner a = .ok scan ∧ scan p.text p.pos = some found ∧
    s.items[found.index]? = some item ∧ m = ⟨item.label, found.first, found.last, found.groups⟩

theorem PatternSet.selects_of_find
    {s : PatternSet}
    {p : ScanPoint}
    {a : Anchors}
    {m : PatternMatch}
    (h : s.find p.text p.pos a = .ok (some m)) :
    ∃ item ∈ s.items, item.label = m.label ∧ s.Selects p item m := by
  obtain ⟨scan, found, item, hscan, hfound, hitem, rfl⟩ := find_eq_some_iff.mp h
  exact ⟨item, List.mem_of_getElem? hitem, rfl, a, scan, found, hscan, hfound, hitem, rfl⟩

theorem PatternSet.Selects.exists_find
    {s : PatternSet}
    {p : ScanPoint}
    {item : PatternItem}
    {m : PatternMatch}
    (h : s.Selects p item m) :
    ∃ a, s.find p.text p.pos a = .ok (some m) := by
  obtain ⟨a, scan, found, hscan, hfound, hitem, rfl⟩ := h
  exact ⟨a, find_eq_some_iff.mpr ⟨scan, found, item, hscan, hfound, hitem, rfl⟩⟩

/-- The end pattern of a region while its frame is on the stack. -/
def Frame.ending
    (f : Frame)
    (r : RegionRule) : PatternSource :=
  (f.closing.map PatternSource.ofPattern).getD r.closing

/-- The only end among the patterns of a rule is that of the rule itself, a region. -/
theorem closing_of_mem_ruleItems
    {rules : RuleTable}
    {id : RuleId}
    {resolved : Option String}
    {item : PatternItem}
    (h : item ∈ ruleItems rules id resolved)
    (hlabel : item.label = .closing) :
    ∃ r, rules[id]? = some (.region r) ∧
      item = ⟨.closing, (resolved.map PatternSource.ofPattern).getD r.closing⟩ := by
  obtain ⟨r, hrule⟩ := exists_region_of_closing h hlabel
  refine ⟨r, hrule, ?_⟩
  have hstart : item ∉ flattenAll rules r.patterns := by
    intro hinner
    obtain ⟨id', rule, hrule', -⟩ := exists_rule_of_mem_flattenAll hinner
    rw [hlabel] at hrule'
    cases hrule'
  simp only [ruleItems, hrule] at h
  split at h
  · simpa [hstart] using h
  · simpa [hstart] using h

namespace Grammar

variable {g : Grammar} {f : Frame}

/-- The patterns of a region are its own, with its resolved end pattern if it has one. -/
theorem setInside_eq_of_region
    (hf : f.Tidy g)
    {r : RegionRule}
    (hrule : g.rule? f.rule = some (.region r)) :
    g.setInside f = .ofItems g.engine (ruleItems g.rules f.rule f.closing) := by
  have hregion : g.isRegion f.rule = true := by
    simp [isRegion, hrule]
  cases hclosing : f.closing with
  | none =>
      simp only [setInside, hclosing]
      exact PatternSets.inside_eq _ _
  | some text =>
      rw [hf.setInside_eq hclosing hregion]
      simp [ownPatterns, hregion]

/-- An end among the patterns of a frame is that of its region. -/
theorem closing_of_mem_setInside
    (hf : f.Tidy g)
    {item : PatternItem}
    (h : item ∈ (g.setInside f).items)
    (hlabel : item.label = .closing) :
    ∃ r, g.rule? f.rule = some (.region r) ∧ item = ⟨.closing, f.ending r⟩ := by
  have hregion := isRegion_of_mem_setInside h hlabel
  obtain ⟨r, hrule⟩ : ∃ r, g.rule? f.rule = some (.region r) := by
    unfold isRegion at hregion
    split at hregion
    · exact ⟨_, ‹_›⟩
    · cases hregion
  rw [setInside_eq_of_region hf hrule] at h
  obtain ⟨r', hrule', rfl⟩ := closing_of_mem_ruleItems h hlabel
  exact ⟨r', hrule', rfl⟩

/-- Whether the patterns of a frame are kept makes no difference. -/
@[simp] theorem setInside_keepInside
    (g : Grammar)
    (f : Frame) :
    g.setInside (g.keepInside f) = g.setInside f := by
  unfold keepInside
  split
  · rename_i hown
    obtain ⟨hclosing, hregion⟩ : f.closing.isSome = true ∧ g.isRegion f.rule = true := by
      simpa using hown
    obtain ⟨text, hclosing⟩ := Option.isSome_iff_exists.mp hclosing
    simp [setInside, hclosing, hregion]
  · rfl

end Grammar

/-- The stack after the end of the region on top: the region is left, or it is kept because it was
entered at the same place. -/
def Cursor.Leaves
    (c : Cursor)
    (m : PatternMatch)
    (after : State) : Prop :=
  if m.last ≤ c.pos ∧ c.state.top.enter = some c.pos then
    after.below = c.state.below ∧ after.top.rule = c.state.top.rule
  else
    after.frames = c.state.below

/-- A match is the end of the region on top and closes it. -/
structure Cursor.ClosesOwn
    (s : LineScanner)
    (whole : Bool)
    (text : String)
    (c : Cursor)
    (m : PatternMatch)
    (r : RegionRule) : Prop where
  rule : s.grammar.rule? c.state.top.rule = some (.region r)
  /-- The match is one of the end pattern of the region. -/
  ending : (s.grammar.setInside c.state.top).Selects (c.point text)
    ⟨.closing, c.state.top.ending r⟩ m
  /-- If a match opened the region, the end pattern is the resolved one. -/
  resolved : whole = true → c.state.top.closing.isSome = r.closing.hasBackReferences
  below : c.state.below ≠ []
  leaves : ∀ {rescan : Rescan} {p : Progress}, (step s rescan text c).outcome = .ok p →
    c.Leaves m p.state

theorem State.frames_pop
    {s : State}
    (h : s.below ≠ []) :
    s.pop.frames = s.below := by
  obtain ⟨top, below⟩ := s
  cases below with
  | nil => exact absurd rfl h
  | cons f rest => rfl

@[simp] theorem Grammar.enter_keepInside
    (g : Grammar)
    (f : Frame) :
    (g.keepInside f).enter = f.enter := by
  obtain ⟨patterns, heq⟩ := g.exists_keepInside_eq f
  rw [heq]

/-- How an end is handled leaves the frame on top, or keeps it. -/
theorem Cursor.leaves_closing
    {g : Grammar}
    {c : Cursor}
    {m : PatternMatch}
    (hbelow : c.state.below ≠ []) :
    c.Leaves m (((c.kept g).closing g m).recovery.getD ((c.kept g).closing g m).next) := by
  have hentered : (c.kept g).state.top.enter = c.state.top.enter :=
    Grammar.enter_keepInside g c.state.top
  have hrule : (c.kept g).state.top.rule = c.state.top.rule :=
    Frame.rule_of_shape (Frame.shape_keepInside g c.state.top)
  unfold Cursor.Leaves
  by_cases hstuck : m.last ≤ c.pos ∧ c.state.top.enter = some c.pos
  · have hrecovery : ((c.kept g).closing g m).recovery = some (c.kept g).state.delimited := by
      refine if_pos ⟨hstuck.1, ?_⟩
      rw [hentered]
      exact hstuck.2
    rw [if_pos hstuck, hrecovery]
    exact ⟨rfl, hrule⟩
  · have hrecovery : ((c.kept g).closing g m).recovery = none := by
      refine if_neg ?_
      rw [hentered]
      exact hstuck
    rw [if_neg hstuck, hrecovery]
    exact State.frames_pop hbelow

section Closing

variable {s : LineScanner} {rescan : Rescan} {whole : Bool} {text : String} {c : Cursor}
variable {m : PatternMatch}

/-- A step that finds an end leaves the frame on top, or keeps it. -/
theorem step_closing
    (hnext : (nextMatch s.grammar ((c.kept s.grammar).point text)
      (c.kept s.grammar).state.top).outcome = .ok (some m))
    (hlabel : m.label = .closing)
    (hbelow : c.state.below ≠ [])
    {p : Progress}
    (h : (step s rescan text c).outcome = .ok p) :
    c.Leaves m p.state := by
  have hk : (c.kept s.grammar).handling s text m =
      some ((c.kept s.grammar).closing s.grammar m) := by
    simp [Cursor.handling, hlabel]
  rw [outcome_step, hnext] at h
  simp only [Except.bind, Cursor.followed, Cursor.handled, hk] at h
  obtain ⟨coverage, -, rfl⟩ := exists_of_map_eq_ok h
  rw [Cursor.state_resume_eq]
  exact Cursor.leaves_closing hbelow

/-- An end is that of the region on top, which it closes, or it has been found by an injection whose
rule is a region, and is one of the end pattern of that region. -/
theorem nextMatch_closing
    {request : CompileRequest}
    (hg : (Grammar.compile request).outcome = .ok s.grammar)
    (hc : Visits s whole text c)
    (hnext : (nextMatch s.grammar ((c.kept s.grammar).point text)
      (c.kept s.grammar).state.top).outcome = .ok (some m))
    (hlabel : m.label = .closing) :
    (∃ r, c.ClosesOwn s whole text m r) ∨
      ∃ i : Injection,
        i.Prevails s.grammar ((c.kept s.grammar).point text) (c.kept s.grammar).state.top m ∧
        ∃ r, s.grammar.rule? i.rule = some (.region r) ∧
          (s.grammar.sets.inside i.rule).Selects (c.point text) ⟨.closing, r.closing⟩ m := by
  rcases nextMatch_cases hnext with hown | ⟨i, hi⟩
  · left
    obtain ⟨a, hfound⟩ := ruleMatch_eq_some hown
    obtain ⟨item, hitem, hitemLabel, hselects⟩ := PatternSet.selects_of_find hfound
    rw [hlabel] at hitemLabel
    have hsame : s.grammar.setInside (c.kept s.grammar).state.top =
        s.grammar.setInside c.state.top :=
      Grammar.setInside_keepInside s.grammar c.state.top
    rw [hsame] at hitem hselects
    obtain ⟨r, hrule, rfl⟩ := Grammar.closing_of_mem_setInside hc.tidy.top hitem hitemLabel
    obtain ⟨root, hstacked⟩ := hc.stacked
    -- the root rule is a group, so a region is never the lowest frame
    obtain ⟨group, hgroup⟩ := Grammar.exists_group_of_compile hg
    have hbelow : c.state.below ≠ [] := by
      intro hnil
      unfold State.Stacked at hstacked
      rw [hnil] at hstacked
      rw [Frame.IsRoot.rule hstacked, hgroup] at hrule
      cases hrule
    refine ⟨r, hrule, hselects, ?_, hbelow, fun h => step_closing hnext hlabel hbelow h⟩
    rintro rfl
    obtain ⟨b, rest, hcons⟩ := List.exists_cons_of_ne_nil hbelow
    unfold State.Stacked at hstacked
    rw [hcons] at hstacked
    cases hstacked.2.1 rfl with
    | region r' hrule' hclosing =>
        obtain rfl : r' = r := by simpa [hrule] using hrule'.symm
        exact hclosing
    | lines r' hrule' _ =>
        rw [hrule] at hrule'
        cases hrule'
  · right
    obtain ⟨item, hitem, hitemLabel, hselects⟩ := PatternSet.selects_of_find hi.found
    rw [hlabel] at hitemLabel
    rw [PatternSets.inside_eq] at hitem
    obtain ⟨r, hrule, rfl⟩ := closing_of_mem_ruleItems hitem hitemLabel
    exact ⟨i, hi, r, hrule, hselects⟩

end Closing

/-- Where the scan of a first line is after some steps, unless it has ended. -/
def LineScanner.place?
    (s : LineScanner)
    (line : String) : Nat → Except Error (Option Cursor)
  | 0 =>
    (startLine s (rescanText s 0) (line ++ "\n") true (startState s .initial) .empty).outcome.map
      some
  | n + 1 => do
    match ← s.place? line n with
    | none => return none
    | some c =>
      match ← (step s (rescanText s 0) (line ++ "\n") c).outcome with
      | .onward d => return some d
      | .finished _ => return none

theorem Visits.of_place?
    {s : LineScanner}
    {line : String}
    {n : Nat}
    {c : Cursor}
    (h : s.place? line n = .ok (some c)) :
    Visits s true (line ++ "\n") c := by
  induction n generalizing c with
  | zero =>
      obtain ⟨d, hstart, hsame⟩ := exists_of_map_eq_ok h
      obtain rfl : d = c := Option.some.inj hsame
      exact .line .initial hstart
  | succ n ih =>
      obtain ⟨found, hplace, h⟩ := exists_of_bind_eq_ok h
      cases found with
      | none =>
          cases h
      | some b =>
          obtain ⟨p, hstep, h⟩ := exists_of_bind_eq_ok h
          cases p with
          | finished _ =>
              cases h
          | onward d =>
              obtain rfl : d = c := Option.some.inj (Except.ok.inj h)
              exact .onward (ih hplace) hstep

/-- A grammar for what stands in parentheses, with an injected region. -/
def angles : CompileRequest where
  sources := {
    library := .empty
    base := {
      scopeName := "source"
      patterns := [
        { name := some "paren", beginPattern := some "\\(", endPattern := some "\\)" }]
      injections := some [
        ("L:source", { name := some "angle", beginPattern := some "<", endPattern := some ">" })] } }

/-- The end of a parenthesis. -/
theorem nextMatch_closing_angles :
    ∃ (s : LineScanner) (c : Cursor) (m : PatternMatch),
      (Grammar.compile angles).outcome = .ok s.grammar ∧
      Visits s true "(b)\n" c ∧
      (nextMatch s.grammar ((c.kept s.grammar).point "(b)\n")
        (c.kept s.grammar).state.top).outcome = .ok (some m) ∧
      m.label = .closing ∧
      ((∃ r, c.ClosesOwn s true "(b)\n" m r) ∨
        ∃ i : Injection,
          i.Prevails s.grammar ((c.kept s.grammar).point "(b)\n") (c.kept s.grammar).state.top m ∧
          ∃ r, s.grammar.rule? i.rule = some (.region r) ∧
            (s.grammar.sets.inside i.rule).Selects (c.point "(b)\n") ⟨.closing, r.closing⟩ m) := by
  have hscan : (Grammar.compile angles).outcome.bind (fun g =>
      ((g.scanner .plain).place? "(b)" 1).map fun found => found.map fun c =>
        (nextMatch g ((c.kept g).point "(b)\n") (c.kept g).state.top).outcome) =
      .ok (some (.ok (some ⟨.closing, 2, 3, [some ⟨2, 3⟩]⟩))) := by
    rw [Grammar.compile, Grammar.compileRules_of_single rfl rfl parseSelector_source]
    decide +kernel
  obtain ⟨g, hg, hscan⟩ := exists_of_bind_eq_ok hscan
  obtain ⟨found, hplace, hfound⟩ := exists_of_map_eq_ok hscan
  obtain ⟨c, rfl, hnext⟩ := Option.map_eq_some_iff.mp hfound
  have hc := Visits.of_place? hplace
  exact ⟨g.scanner .plain, c, _, hg, hc, hnext, rfl,
    nextMatch_closing (s := g.scanner .plain) hg hc hnext rfl⟩

/-- The end of an injected region that is not open: it matches on the lowest frame, and in a
parenthesis whose own end does not match there. -/
theorem closing_of_angles :
    ∃ s : LineScanner, (Grammar.compile angles).outcome = .ok s.grammar ∧
      ∃ (c : Cursor) (m : PatternMatch), Visits s true ">b\n" c ∧
        (nextMatch s.grammar ((c.kept s.grammar).point ">b\n")
          (c.kept s.grammar).state.top).outcome = .ok (some m) ∧
        m.label = .closing ∧ c.state.below = [] ∧
      ∃ (d : Cursor) (n : PatternMatch), Visits s true "(a>b)\n" d ∧
        (nextMatch s.grammar ((d.kept s.grammar).point "(a>b)\n")
          (d.kept s.grammar).state.top).outcome = .ok (some n) ∧
        n.label = .closing ∧ ¬ ∃ r, d.ClosesOwn s true "(a>b)\n" n r := by
  have houtside : (Grammar.compile angles).outcome.bind (fun g =>
      ((g.scanner .plain).place? ">b" 0).map fun found => found.map fun c =>
        ((nextMatch g ((c.kept g).point ">b\n") (c.kept g).state.top).outcome,
          c.state.below.length)) =
      .ok (some (.ok (some ⟨.closing, 0, 1, [some ⟨0, 1⟩]⟩), 0)) := by
    rw [Grammar.compile, Grammar.compileRules_of_single rfl rfl parseSelector_source]
    decide +kernel
  have hinside : (Grammar.compile angles).outcome.bind (fun g =>
      ((g.scanner .plain).place? "(a>b)" 1).map fun found => found.map fun d =>
        ((nextMatch g ((d.kept g).point "(a>b)\n") (d.kept g).state.top).outcome,
          [true, false].flatMap fun allowA => [true, false].map fun allowG =>
            (g.setInside d.state.top).find "(a>b)\n" d.pos ⟨allowA, allowG⟩)) =
      .ok (some (.ok (some ⟨.closing, 2, 3, [some ⟨2, 3⟩]⟩),
        List.replicate 4 (.ok (some ⟨.closing, 4, 5, [some ⟨4, 5⟩]⟩)))) := by
    rw [Grammar.compile, Grammar.compileRules_of_single rfl rfl parseSelector_source]
    decide +kernel
  obtain ⟨g, hg, houtside⟩ := exists_of_bind_eq_ok houtside
  rw [hg] at hinside
  obtain ⟨found, hplace, hfound⟩ := exists_of_map_eq_ok houtside
  obtain ⟨c, rfl, hc⟩ := Option.map_eq_some_iff.mp hfound
  obtain ⟨hnext, hbelow⟩ := Prod.mk.inj hc
  obtain ⟨found', hplace', hfound'⟩ := exists_of_map_eq_ok hinside
  obtain ⟨d, rfl, hd⟩ := Option.map_eq_some_iff.mp hfound'
  obtain ⟨hnext', hown⟩ := Prod.mk.inj hd
  refine ⟨g.scanner .plain, hg, c, _, .of_place? hplace, hnext, rfl,
    List.length_eq_zero_iff.mp hbelow, d, _, .of_place? hplace', hnext', rfl, ?_⟩
  rintro ⟨r, hcloses⟩
  -- under all anchors the end of the parenthesis is found further on
  obtain ⟨⟨allowA, allowG⟩, hfind⟩ := hcloses.ending.exists_find
  have hmem : (g.setInside d.state.top).find "(a>b)\n" d.pos ⟨allowA, allowG⟩ ∈
      List.replicate 4 (.ok (some ⟨.closing, 4, 5, [some ⟨4, 5⟩]⟩)) := by
    rw [← hown]
    cases allowA <;> cases allowG <;> simp
  have hsame := List.eq_of_mem_replicate hmem
  have hearlier : (g.setInside d.state.top).find "(a>b)\n" d.pos ⟨allowA, allowG⟩ =
      .ok (some ⟨.closing, 2, 3, [some ⟨2, 3⟩]⟩) :=
    hfind
  rw [hearlier] at hsame
  simp at hsame

end LineScopes
