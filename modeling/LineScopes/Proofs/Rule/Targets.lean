import LineScopes.Proofs.Grammar.Completeness

/-!
# What is compiled inside a rule

The body of a rule leads to other targets: what its patterns stand for, and its captures with
patterns of their own. Which these are is read off the rule and its surroundings, without a
compilation. All of them are written in the sources, so they can be counted.

**Main definitions.** `RawRule.kind`, `Target.items`, `patternTarget?`, `Sources.Nests`,
`Target.Within`.

**Main statements.** `compileRule_of_group` and the like: how a rule of each kind is compiled.
`Target.Within.of_nests`: what is inside a target is written in the sources.
`Target.Within.key_mem`: what is written in the sources is listed.
-/

namespace LineScopes

/-- What a rule is compiled to. -/
inductive RuleKind where
  | simple (pattern : String)
  | region (opening closing : String)
  | lines (opening continuing : String)
  /-- A rule without a pattern of its own; it may only stand for what it includes. -/
  | group (held : Option String)

namespace RawRule

/-- The text of the include that a rule without patterns stands for. -/
def held (r : RawRule) : Option String :=
  match r.patterns, r.reference with
  | none, some text => some text
  | _, _ => none

/-- A rule is compiled to what its first pattern asks for. -/
def kind (r : RawRule) : RuleKind :=
  match nonEmpty r.matchPattern, nonEmpty r.beginPattern with
  | some pattern, _ => .simple pattern
  | none, some opening =>
    match nonEmpty r.whilePattern with
    | some continuing => .lines opening continuing
    | none => .region opening ((nonEmpty r.endPattern).getD neverEnds)
  | none, none => .group r.held

end RawRule

namespace PlacedRule

/-- The captures of a delimiter with the role they are written in: its own ones, or else the shared
ones. -/
def delimiter
    (p : PlacedRule)
    (role : CaptureRole)
    (own : Option Captures) : CaptureRole × Captures :=
  match own with
  | some captures => (role, captures)
  | none => (.shared, p.rule.captures.getD [])

/-- The captures that are compiled with a rule. -/
def captures (p : PlacedRule) : List (CaptureRole × Captures) :=
  match p.rule.kind with
  | .simple _ => [p.delimiter .shared none]
  | .region _ _ =>
    [p.delimiter .opening p.rule.beginCaptures, p.delimiter .closing p.rule.endCaptures]
  | .lines _ _ =>
    [p.delimiter .opening p.rule.beginCaptures, p.delimiter .continuing p.rule.whileCaptures]
  | .group _ => []

/-- The patterns that are compiled with a rule. A rule that stands for what it includes is its own
only pattern. -/
def items (p : PlacedRule) : List PlacedRule :=
  match p.rule.kind with
  | .simple _ => []
  | .group (some _) => [p]
  | _ => placedPatterns p.address (p.rule.patterns.getD [])

end PlacedRule

namespace Target

/-- The patterns that are compiled with a target. -/
def items : Target → List PlacedRule
  | .rule _ p => p.items
  | .root g => placedPatterns ⟨g.scopeName, []⟩ g.patterns

/-- Where the patterns of a target are resolved. -/
def scene : Target → Surroundings
  | .rule s p => s.within p
  | .root g => .root g

end Target

/-- What a pattern stands for: what it includes, or else the rule itself. -/
def patternTarget?
    (sources : Sources)
    (s : Surroundings)
    (p : PlacedRule) : Option Target :=
  match p.rule.reference with
  | some text => targetOf? sources s (.ofText text)
  | none => some (.rule s p)

/-- The second target is compiled inside the body of the first one. -/
inductive Sources.Nests (sources : Sources) : Target → Target → Prop
  | pattern {t u : Target} {q : PlacedRule} (hq : q ∈ t.items)
    (hu : patternTarget? sources t.scene q = some u) : sources.Nests t u
  | capture {s : Surroundings} {p : PlacedRule} {role : CaptureRole} {captures : Captures}
    {n : Nat} {key : String} {r : RawRule} (hcaptures : (role, captures) ∈ p.captures)
    (hr : (n, key, r) ∈ numbered captures) (hpatterns : r.patterns.isSome) :
    sources.Nests (.rule s p) (.rule s ⟨p.address.step (.capture role key), r⟩)

section Kinds

variable {p : PlacedRule}

/-- A rule of the kind of a group has no pattern of its own. -/
theorem isGroup_eq
    (p : PlacedRule) :
    p.isGroup = true ↔ p.rule.kind = .group p.rule.held := by
  unfold PlacedRule.isGroup RawRule.kind
  cases nonEmpty p.rule.matchPattern with
  | some pattern =>
      simp
  | none =>
      cases nonEmpty p.rule.beginPattern with
      | some opening =>
          cases nonEmpty p.rule.whilePattern <;> simp
      | none =>
          simp

theorem held_of_kind_eq_group
    {held : Option String}
    (h : p.rule.kind = .group held) :
    held = p.rule.held := by
  unfold RawRule.kind at h
  split at h
  · cases h
  · split at h <;> cases h
  · exact (RuleKind.group.inj h).symm

theorem within_of_group
    (s : Surroundings)
    {held : Option String}
    (h : p.rule.kind = .group held) :
    s.within p = s.enter p := by
  rw [held_of_kind_eq_group h] at h
  exact if_pos ((isGroup_eq p).mpr h)

theorem within_of_not_group
    (s : Surroundings)
    (h : p.rule.kind ≠ .group p.rule.held) :
    s.within p = s :=
  if_neg fun hgroup => h ((isGroup_eq p).mp hgroup)

/-- What a rule that stands for an include includes. -/
theorem reference_of_held
    {text : String}
    (h : p.rule.kind = .group (some text)) :
    p.rule.patterns = none ∧ p.rule.reference = some text := by
  have hheld := (held_of_kind_eq_group h).symm
  unfold RawRule.held at hheld
  split at hheld
  · rename_i text' hpatterns hreference
    cases hheld
    exact ⟨hpatterns, hreference⟩
  · cases hheld

/-- The captures of a delimiter are written in its rule. -/
theorem delimiter_mem
    {role : CaptureRole}
    {own : Option Captures}
    (hown : ∀ captures, own = some captures → (role, captures) ∈ p.rule.captureLists) :
    p.delimiter role own ∈ p.rule.captureLists := by
  cases own with
  | some captures =>
      exact hown captures rfl
  | none =>
      exact List.mem_cons_self

/-- The captures that are compiled are written in the rule. -/
theorem mem_captureLists_of_mem_captures
    {list : CaptureRole × Captures}
    (h : list ∈ p.captures) :
    list ∈ p.rule.captureLists := by
  have hall : ∀ list ∈ p.captures, list ∈ p.rule.captureLists := by
    unfold PlacedRule.captures
    split
    · simpa using delimiter_mem (by simp)
    · exact List.forall_mem_cons.mpr ⟨delimiter_mem (by simp +contextual [RawRule.captureLists]),
        List.forall_mem_singleton.mpr (delimiter_mem (by simp +contextual [RawRule.captureLists]))⟩
    · exact List.forall_mem_cons.mpr ⟨delimiter_mem (by simp +contextual [RawRule.captureLists]),
        List.forall_mem_singleton.mpr (delimiter_mem (by simp +contextual [RawRule.captureLists]))⟩
    · exact List.forall_mem_nil _
  exact hall list h

theorem items_of_simple
    {pattern : String}
    (h : p.rule.kind = .simple pattern) :
    p.items = [] := by
  simp only [PlacedRule.items, h]

theorem items_of_region
    {opening closing : String}
    (h : p.rule.kind = .region opening closing) :
    p.items = placedPatterns p.address (p.rule.patterns.getD []) := by
  simp only [PlacedRule.items, h]

theorem items_of_lines
    {opening continuing : String}
    (h : p.rule.kind = .lines opening continuing) :
    p.items = placedPatterns p.address (p.rule.patterns.getD []) := by
  simp only [PlacedRule.items, h]

theorem items_of_held
    {text : String}
    (h : p.rule.kind = .group (some text)) :
    p.items = [p] := by
  simp only [PlacedRule.items, h]

theorem items_of_group
    (h : p.rule.kind = .group none) :
    p.items = placedPatterns p.address (p.rule.patterns.getD []) := by
  simp only [PlacedRule.items, h]

theorem mem_items_of_held
    {text : String}
    (h : p.rule.kind = .group (some text)) :
    p ∈ p.items := by
  rw [items_of_held h]
  exact List.mem_singleton_self p

theorem captures_of_simple
    {pattern : String}
    (h : p.rule.kind = .simple pattern) :
    p.captures = [p.delimiter .shared none] := by
  simp only [PlacedRule.captures, h]

theorem captures_of_region
    {opening closing : String}
    (h : p.rule.kind = .region opening closing) :
    p.captures = [p.delimiter .opening p.rule.beginCaptures,
      p.delimiter .closing p.rule.endCaptures] := by
  simp only [PlacedRule.captures, h]

theorem captures_of_lines
    {opening continuing : String}
    (h : p.rule.kind = .lines opening continuing) :
    p.captures = [p.delimiter .opening p.rule.beginCaptures,
      p.delimiter .continuing p.rule.whileCaptures] := by
  simp only [PlacedRule.captures, h]

theorem captures_of_group
    {held : Option String}
    (h : p.rule.kind = .group held) :
    p.captures = [] := by
  simp only [PlacedRule.captures, h]

/-- What a pattern of a rule is written in. -/
theorem mem_items
    {q : PlacedRule}
    (h : q ∈ p.items) :
    (q = p ∧ ∃ text, p.rule.kind = .group (some text)) ∨
      q ∈ placedPatterns p.address (p.rule.patterns.getD []) := by
  unfold PlacedRule.items at h
  split at h
  · cases h
  · rename_i text hkind
    exact Or.inl ⟨List.mem_singleton.mp h, text, hkind⟩
  · exact Or.inr h

end Kinds

section Compile

variable {sources : Sources} {visitor : Visitor}

/-- A pattern is compiled as what it stands for. -/
theorem compilePattern_eq
    (sources : Sources)
    (visitor : Visitor)
    (s : Surroundings)
    (p : PlacedRule) :
    compilePattern sources visitor s p =
      match patternTarget? sources s p with
      | some t => some <$> visitor t
      | none => do
        modify (·.noteMissing (p.rule.reference.getD "") s.grammar.scopeName)
        return none := by
  unfold compilePattern patternTarget?
  cases p.rule.reference with
  | none =>
      rfl
  | some text =>
      unfold compileReference
      dsimp only
      cases targetOf? sources s (.ofText text) <;> rfl

/-- The captures of a delimiter are compiled from one list. -/
theorem compileDelimiterCaptures_eq
    (visitor : Visitor)
    (s : Surroundings)
    (p : PlacedRule)
    (role : CaptureRole)
    (own : Option Captures) :
    compileDelimiterCaptures visitor s p role own =
      compileCaptures visitor s p.address (p.delimiter role own).1 (p.delimiter role own).2 := by
  unfold compileDelimiterCaptures PlacedRule.delimiter
  cases own with
  | some captures =>
      rfl
  | none =>
      cases p.rule.captures <;> rfl

theorem compileRule_of_simple
    (s : Surroundings)
    {p : PlacedRule}
    {pattern : String}
    (h : p.rule.kind = .simple pattern) :
    compileRule sources visitor s p = (do
      let captures ← compileDelimiterCaptures visitor s p .shared none
      return .simple {
        name := NameTemplate.ofName? p.rule.name
        pattern := .ofPattern pattern
        captures }) := by
  unfold RawRule.kind at h
  split at h
  · rename_i hmatch
    cases h
    simp [compileRule, hmatch]
  · split at h <;> cases h
  · cases h

theorem compileRule_of_region
    (s : Surroundings)
    {p : PlacedRule}
    {opening closing : String}
    (h : p.rule.kind = .region opening closing) :
    compileRule sources visitor s p = (do
      let (patterns, missing) ← compilePatterns sources visitor s p.items
      let openingCaptures ← compileDelimiterCaptures visitor s p .opening p.rule.beginCaptures
      let closingCaptures ← compileDelimiterCaptures visitor s p .closing p.rule.endCaptures
      return .region {
        name := NameTemplate.ofName? p.rule.name
        contentName := NameTemplate.ofName? p.rule.contentName
        patterns, missing, openingCaptures, closingCaptures
        opening := .ofPattern opening
        closing := .ofPattern closing
        closingLast := p.rule.endLast }) := by
  have hitems := items_of_region h
  unfold RawRule.kind at h
  split at h
  · cases h
  · rename_i hmatch hbegin
    split at h
    · cases h
    · rename_i hwhile
      cases h
      simp [compileRule, hmatch, hbegin, hwhile, hitems]
  · cases h

theorem compileRule_of_lines
    (s : Surroundings)
    {p : PlacedRule}
    {opening continuing : String}
    (h : p.rule.kind = .lines opening continuing) :
    compileRule sources visitor s p = (do
      let (patterns, missing) ← compilePatterns sources visitor s p.items
      let openingCaptures ← compileDelimiterCaptures visitor s p .opening p.rule.beginCaptures
      let continuingCaptures ←
        compileDelimiterCaptures visitor s p .continuing p.rule.whileCaptures
      return .lines {
        name := NameTemplate.ofName? p.rule.name
        contentName := NameTemplate.ofName? p.rule.contentName
        patterns, missing, openingCaptures, continuingCaptures
        opening := .ofPattern opening
        continuing := .ofPattern continuing }) := by
  have hitems := items_of_lines h
  unfold RawRule.kind at h
  split at h
  · cases h
  · rename_i hmatch hbegin
    split at h
    · rename_i hwhile
      cases h
      simp [compileRule, hmatch, hbegin, hwhile, hitems]
    · cases h
  · cases h

theorem compileRule_of_group
    (s : Surroundings)
    {p : PlacedRule}
    {held : Option String}
    (h : p.rule.kind = .group held) :
    compileRule sources visitor s p = (do
      let (patterns, missing) ← compileHeld sources visitor (s.enter p) p
      return .group {
        name := NameTemplate.ofName? p.rule.name
        contentName := NameTemplate.ofName? p.rule.contentName
        patterns, missing }) := by
  unfold RawRule.kind at h
  split at h
  · cases h
  · split at h <;> cases h
  · rename_i hmatch hbegin
    simp [compileRule, hmatch, hbegin]

/-- A rule that stands for an include has the number of what it includes as its only one. -/
theorem compileHeld_of_held
    (s : Surroundings)
    {p : PlacedRule}
    {text : String}
    (h : p.rule.kind = .group (some text)) :
    compileHeld sources visitor s p =
      (fun found => (found.toList, found.isNone)) <$> compilePattern sources visitor s p := by
  obtain ⟨hpatterns, hreference⟩ := reference_of_held h
  simp only [compileHeld, compilePattern, hpatterns, hreference, map_eq_pure_bind]
  refine bind_congr fun found => ?_
  cases found <;> rfl

theorem compileHeld_of_patterns
    (s : Surroundings)
    {p : PlacedRule}
    (h : p.rule.kind = .group none) :
    compileHeld sources visitor s p = compilePatterns sources visitor s p.items := by
  have hitems := items_of_group h
  have hheld := held_of_kind_eq_group h
  unfold RawRule.held at hheld
  rw [hitems]
  unfold compileHeld
  split
  · rename_i hpatterns hreference
    simp [hpatterns, hreference] at hheld
  · rfl

end Compile

section Within

/-- A grammar that includes can refer to. -/
def Sources.Knows
    (sources : Sources)
    (g : RawGrammar) : Prop :=
  g = sources.base ∨ sources.library.get? g.scopeName = some g

/-- What a target is known by, for every target written in the sources. -/
def Sources.keys (sources : Sources) : List (RuleAddress ⊕ String) :=
  Library.keys ⟨sources.base :: sources.library.grammars⟩

/-- Targets that are written in the sources, with repositories around them that are. -/
def Target.Within (sources : Sources) : Target → Prop
  | .rule s p => sources.Knows s.grammar ∧ (∃ s₀, s.grammar.Writes s₀ p) ∧
      ∀ l ∈ s.layers, s.grammar.Holds l
  | .root g => sources.Knows g

variable {sources : Sources}

theorem knows_of_grammar?
    {scope : String}
    {g : RawGrammar}
    (h : sources.grammar? scope = some g) :
    sources.Knows g := by
  unfold Sources.grammar? at h
  split at h
  · rename_i g' hg
    cases h
    exact Or.inr (by rw [scopeName_of_get? hg, hg])
  · split at h
    · cases h
      exact Or.inl rfl
    · cases h

namespace Target.Within

/-- What an include refers to is written in the sources. -/
theorem of_targetOf?
    {s : Surroundings}
    (hknown : sources.Knows s.grammar)
    (hlayers : ∀ l ∈ s.layers, s.grammar.Holds l)
    {r : Reference}
    {t : Target}
    (ht : targetOf? sources s r = some t) :
    t.Within sources := by
  unfold targetOf? at ht
  split at ht
  · cases ht
    exact Or.inl rfl
  · cases ht
    exact hknown
  · cases ht
    exact Or.inl rfl
  · cases ht
    exact hknown
  · obtain ⟨q, hq, rfl⟩ := Option.map_eq_some_iff.mp ht
    exact ⟨hknown, writes_of_lookup hlayers hq, hlayers⟩
  · obtain ⟨g, hg, rfl⟩ := Option.map_eq_some_iff.mp ht
    exact knows_of_grammar? hg
  · obtain ⟨g, hg, ht⟩ := Option.bind_eq_some_iff.mp ht
    obtain ⟨q, hq, ht⟩ := Option.bind_eq_some_iff.mp ht
    cases ht
    have hlayers : ∀ l ∈ (Surroundings.root g).layers, g.Holds l := List.forall_mem_nil _
    exact ⟨knows_of_grammar? hg, writes_of_lookup hlayers hq, hlayers⟩

/-- The repositories around the patterns of a rule are of its grammar. -/
theorem scene
    {s : Surroundings}
    {p : PlacedRule}
    (h : (Target.rule s p).Within sources) :
    sources.Knows (s.within p).grammar ∧
      ∀ l ∈ (s.within p).layers, (s.within p).grammar.Holds l := by
  obtain ⟨hknown, ⟨s₀, hwritten⟩, hlayers⟩ := h
  rw [Surroundings.grammar_within]
  refine ⟨hknown, fun l hl => ?_⟩
  unfold Surroundings.within at hl
  split at hl
  · exact Surroundings.holds_enter hwritten hlayers l hl
  · exact hlayers l hl

/-- A pattern is written in the sources, where it is resolved. -/
theorem item
    {t : Target}
    (h : t.Within sources)
    {q : PlacedRule}
    (hq : q ∈ t.items) :
    (Target.rule t.scene q).Within sources := by
  cases t with
  | root g =>
      have hchild : q ∈ g.children := List.mem_append_left _ (List.mem_append_left _ hq)
      exact ⟨h, ⟨_, .outermost hchild⟩, List.forall_mem_nil _⟩
  | rule s p =>
      obtain ⟨hknown, hlayers⟩ := h.scene
      obtain ⟨-, ⟨s₀, hwritten⟩, -⟩ := h
      rw [← Surroundings.grammar_within s p] at hwritten
      refine ⟨hknown, ?_, hlayers⟩
      rcases mem_items hq with ⟨rfl, -⟩ | hq
      · exact ⟨s₀, hwritten⟩
      · have hchild : q ∈ p.children := List.mem_append_left _ (List.mem_append_left _ hq)
        exact ⟨_, .inside hwritten hchild⟩

/-- What a target leads to is written in the sources. -/
theorem of_nests
    {t u : Target}
    (h : t.Within sources)
    (hu : sources.Nests t u) :
    u.Within sources := by
  cases hu with
  | @pattern _ _ q hq hu =>
      have hitem := h.item hq
      unfold patternTarget? at hu
      split at hu
      · exact of_targetOf? hitem.1 hitem.2.2 hu
      · cases hu
        exact hitem
  | @capture s p role captures n key r hcaptures hr hpatterns =>
      obtain ⟨hknown, ⟨s₀, hwritten⟩, hlayers⟩ := h
      obtain ⟨e, he, hkey⟩ := List.mem_filterMap.mp hr
      obtain ⟨n, -, heq⟩ := Option.map_eq_some_iff.mp hkey
      obtain ⟨-, hentry⟩ := Prod.mk.inj heq
      obtain ⟨rfl, rfl⟩ := Prod.mk.inj hentry
      have hchild : ⟨p.address.step (.capture role e.1), e.2⟩ ∈ p.children := by
        refine List.mem_append_left _ (List.mem_append_right _ (List.mem_flatMap.mpr
          ⟨_, mem_captureLists_of_mem_captures hcaptures, List.mem_map.mpr ⟨e, he, rfl⟩⟩))
      exact ⟨hknown, ⟨_, .inside hwritten hchild⟩, hlayers⟩

theorem key_mem
    {t : Target}
    (h : t.Within sources) :
    t.key ∈ sources.keys := by
  have hmem : ∀ {g}, sources.Knows g → g ∈ sources.base :: sources.library.grammars := by
    rintro g (rfl | hg)
    · exact List.mem_cons_self
    · exact List.mem_cons_of_mem _ (List.mem_of_find?_eq_some hg)
  cases t with
  | root g =>
      exact List.mem_flatMap.mpr ⟨g, hmem h, List.mem_cons_self⟩
  | rule s p =>
      obtain ⟨hknown, ⟨s₀, hwritten⟩, hlayers⟩ := h
      refine List.mem_flatMap.mpr ⟨s.grammar, hmem hknown, List.mem_cons_of_mem _ ?_⟩
      exact List.mem_map.mpr ⟨_, mem_sites hwritten, rfl⟩

end Target.Within

/-- A compilation starts with room for everything that is written in its sources. -/
theorem unknown_keys_lt_compileBound
    (sources : Sources) :
    Build.unknown sources.keys {} < compileBound sources := by
  have hcount : Build.unknown sources.keys {} ≤ sources.keys.length :=
    List.countP_le_length
  have hkeys : sources.keys.length ≤ sources.base.size + 1 + sources.library.size :=
    length_keys_le ⟨sources.base :: sources.library.grammars⟩
  unfold compileBound
  omega

end Within

end LineScopes
