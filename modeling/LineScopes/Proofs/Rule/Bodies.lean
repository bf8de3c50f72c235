import LineScopes.Proofs.Rule.Targets

/-!
# What a table says

Every place of a table under construction can be explained: it waits for the body of a target, it
holds the body of a target, or it holds a capture. A place that waits belongs to a target that the
one being compiled is nested in.

**Main definitions.** `Build.number?`, `Build.Carries`, `Build.Grows`, `Lists`, `Body`, `Explained`,
`Sound`.

**Main statements.** `Sound.reserve`, `Sound.fill`, `Sound.push`: what is done to a table keeps all
places explained.
-/

namespace LineScopes

namespace Build

/-- The number of the target with a key. -/
def number?
    (b : Build) : RuleAddress ⊕ String → Option RuleId
  | .inl a => b.ruleIds.lookup a
  | .inr scope => b.grammarIds.lookup scope

theorem idOf?_eq
    (b : Build)
    (t : Target) :
    b.idOf? t = b.number? t.key := by
  cases t <;> rfl

theorem knows_eq
    (b : Build)
    (key : RuleAddress ⊕ String) :
    b.knows key = (b.number? key).isSome := by
  cases key <;> rfl

theorem number?_reserve_self
    (b : Build)
    (t : Target) :
    (b.reserve t).number? t.key = some b.rules.size := by
  cases t <;> simp [reserve, number?, Target.key]

theorem number?_reserve_of_ne
    (b : Build)
    {t : Target}
    {key : RuleAddress ⊕ String}
    (h : key ≠ t.key) :
    (b.reserve t).number? key = b.number? key := by
  cases t <;> cases key <;>
    simp_all [reserve, number?, Target.key, List.lookup_cons, beq_eq_false_iff_ne.mpr]

/-- What is said about the places of a table stays true as long as numbers are kept and captures
stay captures. -/
structure Carries (b c : Build) : Prop where
  numbers : ∀ {key id}, b.number? key = some id → c.number? key = some id
  captures : ∀ {id : RuleId} {r : CaptureRule}, b.rules[id]? = some (.capture r) →
    c.rules[id]? = some (.capture r)

/-- A table goes on from another one: rules and numbers are kept, and no more places wait. -/
structure Grows (b c : Build) : Prop where
  kept : b.Extends c
  numbers : ∀ {key id}, b.number? key = some id → c.number? key = some id
  waiting : ∀ {id : RuleId}, c.rules[id]? = some .pending → b.rules[id]? = some .pending

namespace Grows

theorem refl
    (b : Build) :
    b.Grows b :=
  ⟨.refl b, id, id⟩

theorem trans
    {b c d : Build}
    (hbc : b.Grows c)
    (hcd : c.Grows d) :
    b.Grows d :=
  ⟨hbc.kept.trans hcd.kept, fun h => hcd.numbers (hbc.numbers h),
    fun h => hbc.waiting (hcd.waiting h)⟩

theorem get?
    {b c : Build}
    (h : b.Grows c)
    {id : RuleId}
    {r : Rule}
    (hr : b.rules[id]? = some r) :
    c.rules[id]? = some r := by
  rw [h.kept.kept id (Array.getElem?_eq_some_iff.mp hr).1, hr]

theorem carries
    {b c : Build}
    (h : b.Grows c) :
    b.Carries c :=
  ⟨h.numbers, h.get?⟩

theorem unknown_le
    {b c : Build}
    (h : b.Grows c)
    (keys : List (RuleAddress ⊕ String)) :
    c.unknown keys ≤ b.unknown keys := by
  refine List.countP_mono_left fun key _ hkey => ?_
  simp only [knows_eq, Bool.not_eq_true', Option.isSome_eq_false_iff, Option.isNone_iff_eq_none]
    at hkey ⊢
  cases hnumber : b.number? key with
  | none =>
      rfl
  | some id =>
      rw [h.numbers hnumber] at hkey
      cases hkey

end Grows

/-- Reports and the count of missing includes say nothing about places. -/
theorem grows_of_eq
    {b c : Build}
    (hrules : c.rules = b.rules)
    (hruleIds : c.ruleIds = b.ruleIds)
    (hgrammarIds : c.grammarIds = b.grammarIds) :
    b.Grows c := by
  refine ⟨⟨hrules ▸ Nat.le_refl _, fun _ _ => by rw [hrules]⟩, fun {key id} h => ?_,
    fun h => hrules ▸ h⟩
  cases key <;> simpa [number?, hruleIds, hgrammarIds] using h

theorem grows_push
    (b : Build)
    {r : Rule}
    (hr : r ≠ .pending) :
    b.Grows (b.push r) := by
  refine ⟨b.extends_push r, fun h => h, fun {id} h => ?_⟩
  simp only [push, Array.getElem?_push] at h
  split at h
  · exact absurd (Option.some.inj h) hr
  · exact h

/-- A place that has been reserved is filled once its body is there. -/
theorem grows_fill
    {b c : Build}
    {t : Target}
    (hnew : b.number? t.key = none)
    (h : (b.reserve t).Grows c)
    {r : Rule}
    (hr : r ≠ .pending) :
    b.Grows (c.fill b.rules.size r) := by
  refine ⟨((b.extends_reserve t).trans h.kept).fill (Nat.le_refl _) r, fun {key id} hkey => ?_,
    fun {id} hid => ?_⟩
  · have hne : key ≠ t.key := by
      rintro rfl
      rw [hnew] at hkey
      cases hkey
    exact h.numbers ((number?_reserve_of_ne b hne).trans hkey)
  · simp only [fill, Array.getElem?_setIfInBounds] at hid
    split at hid
    · split at hid
      · exact absurd (Option.some.inj hid) hr
      · cases hid
    · rename_i hne
      have hold := h.waiting hid
      rw [rules_reserve, Array.getElem?_push] at hold
      split at hold
      · rename_i heq
        exact absurd heq.symm hne
      · exact hold

theorem carries_reserve
    (b : Build)
    {t : Target}
    (hnew : b.number? t.key = none) :
    b.Carries (b.reserve t) := by
  refine ⟨fun {key id} h => ?_, fun {id r} h => ?_⟩
  · have hne : key ≠ t.key := by
      rintro rfl
      rw [hnew] at h
      cases h
    rw [number?_reserve_of_ne b hne, h]
  · have hlt := (Array.getElem?_eq_some_iff.mp h).1
    rw [rules_reserve, Array.getElem?_push, if_neg (Nat.ne_of_lt hlt), h]

theorem carries_fill
    (b : Build)
    {id : RuleId}
    (hid : b.rules[id]? = some .pending)
    (r : Rule) :
    b.Carries (b.fill id r) := by
  refine ⟨fun h => h, fun {i c} h => ?_⟩
  have hne : id ≠ i := by
    rintro rfl
    rw [hid] at h
    cases h
  rw [fill, Array.getElem?_setIfInBounds_ne hne, h]

end Build

section Table

variable (sources : Sources) (T : Target → Prop) (tested : Target → Bool → Prop)

/-- The numbers that are listed for some patterns, and whether some are missing. What a pattern
stands for has been tested for being inert, and is left out if it was. -/
inductive Lists (b : Build) (s : Surroundings) : List PlacedRule → List RuleId → Bool → Prop
  | nil : Lists b s [] [] false
  | missing {q : PlacedRule} {rest : List PlacedRule} {ids : List RuleId} {m : Bool}
    (hq : patternTarget? sources s q = none) (h : Lists b s rest ids m) :
    Lists b s (q :: rest) ids true
  | left {q : PlacedRule} {u : Target} {id : RuleId} {rest : List PlacedRule} {ids : List RuleId}
    {m : Bool} (hq : patternTarget? sources s q = some u) (hid : b.number? u.key = some id)
    (htested : tested u true) (h : Lists b s rest ids m) :
    Lists b s (q :: rest) ids m
  | listed {q : PlacedRule} {u : Target} {id : RuleId} {rest : List PlacedRule}
    {ids : List RuleId} {m : Bool} (hq : patternTarget? sources s q = some u)
    (hid : b.number? u.key = some id) (htested : tested u false) (h : Lists b s rest ids m) :
    Lists b s (q :: rest) (id :: ids) m

/-- The rules of captured groups are captures. -/
def Slots
    (b : Build)
    (slots : List (Option RuleId)) : Prop :=
  ∀ id, some id ∈ slots → ∃ c, b.rules[id]? = some (.capture c)

/-- The captures of a list that have patterns of their own have numbers. -/
def Numbered
    (b : Build)
    (p : PlacedRule)
    (list : CaptureRole × Captures) : Prop :=
  ∀ e ∈ numbered list.2, e.2.2.patterns.isSome →
    ∃ id, b.number? (.inl (p.address.step (.capture list.1 e.2.1))) = some id

/-- What the rule of a target says. -/
inductive Body (b : Build) : Target → Rule → Prop
  | root {g : RawGrammar} {patterns : List RuleId} {missing : Bool}
    (hpatterns : Lists sources tested b (.root g) (Target.root g).items patterns missing) :
    Body b (.root g) (.group {
      name := NameTemplate.ofName? (some g.scopeName), contentName := none, patterns, missing })
  | simple {s : Surroundings} {p : PlacedRule} {pattern : String}
    {captures : List (Option RuleId)} (hkind : p.rule.kind = .simple pattern)
    (hcaptures : Slots b captures) (hnumbered : ∀ list ∈ p.captures, Numbered b p list) :
    Body b (.rule s p) (.simple {
      name := NameTemplate.ofName? p.rule.name, pattern := .ofPattern pattern, captures })
  | region {s : Surroundings} {p : PlacedRule} {opening closing : String}
    {patterns : List RuleId} {missing : Bool}
    {openingCaptures closingCaptures : List (Option RuleId)}
    (hkind : p.rule.kind = .region opening closing)
    (hpatterns : Lists sources tested b (s.within p) p.items patterns missing)
    (hopening : Slots b openingCaptures) (hclosing : Slots b closingCaptures)
    (hnumbered : ∀ list ∈ p.captures, Numbered b p list) :
    Body b (.rule s p) (.region {
      name := NameTemplate.ofName? p.rule.name
      contentName := NameTemplate.ofName? p.rule.contentName
      patterns, missing, openingCaptures, closingCaptures
      opening := .ofPattern opening
      closing := .ofPattern closing
      closingLast := p.rule.endLast })
  | lines {s : Surroundings} {p : PlacedRule} {opening continuing : String}
    {patterns : List RuleId} {missing : Bool}
    {openingCaptures continuingCaptures : List (Option RuleId)}
    (hkind : p.rule.kind = .lines opening continuing)
    (hpatterns : Lists sources tested b (s.within p) p.items patterns missing)
    (hopening : Slots b openingCaptures) (hcontinuing : Slots b continuingCaptures)
    (hnumbered : ∀ list ∈ p.captures, Numbered b p list) :
    Body b (.rule s p) (.lines {
      name := NameTemplate.ofName? p.rule.name
      contentName := NameTemplate.ofName? p.rule.contentName
      patterns, missing, openingCaptures, continuingCaptures
      opening := .ofPattern opening
      continuing := .ofPattern continuing })
  /-- A rule that stands for what it includes keeps it even if it is inert. -/
  | held {s : Surroundings} {p : PlacedRule} {text : String} {u : Target} {id : RuleId}
    (hkind : p.rule.kind = .group (some text))
    (hu : patternTarget? sources (s.within p) p = some u) (hid : b.number? u.key = some id) :
    Body b (.rule s p) (.group {
      name := NameTemplate.ofName? p.rule.name
      contentName := NameTemplate.ofName? p.rule.contentName
      patterns := [id], missing := false })
  | unresolved {s : Surroundings} {p : PlacedRule} {text : String}
    (hkind : p.rule.kind = .group (some text))
    (hu : patternTarget? sources (s.within p) p = none) :
    Body b (.rule s p) (.group {
      name := NameTemplate.ofName? p.rule.name
      contentName := NameTemplate.ofName? p.rule.contentName
      patterns := [], missing := true })
  | group {s : Surroundings} {p : PlacedRule} {patterns : List RuleId} {missing : Bool}
    (hkind : p.rule.kind = .group none)
    (hpatterns : Lists sources tested b (s.within p) p.items patterns missing) :
    Body b (.rule s p) (.group {
      name := NameTemplate.ofName? p.rule.name
      contentName := NameTemplate.ofName? p.rule.contentName
      patterns, missing })

/-- Why a rule stands at a place. -/
inductive Explained (b : Build) (id : RuleId) : Rule → Prop
  | waits {t : Target} (ht : T t) (hid : b.number? t.key = some id) : Explained b id .pending
  | body {t : Target} {r : Rule} (ht : T t) (hid : b.number? t.key = some id)
    (h : Body sources tested b t r) : Explained b id r
  | capture {c : CaptureRule}
    (h : ∀ again, c.retokenize = some again → ∃ key, b.number? key = some again) :
    Explained b id (.capture c)

theorem lt_foldl_max_iff
    {limit : Nat}
    (wanted : List (Nat × String × RawRule))
    (size : Nat) :
    limit < (wanted.map fun (n, _) => n + 1).foldl max size ↔
      limit < size ∨ ∃ e ∈ wanted, limit ≤ e.1 := by
  induction wanted generalizing size with
  | nil =>
      simp
  | cons e rest ih =>
      have hfirst : limit < max size (e.1 + 1) ↔ limit < size ∨ limit ≤ e.1 := by
        omega
      rw [List.map_cons, List.foldl_cons, ih, hfirst, List.exists_mem_cons_iff, or_assoc]

/-- A list of slots is longer than a limit if it has one for a number that is not below. -/
theorem lt_slotCount_iff
    {limit : Nat}
    {wanted : List (Nat × String × RawRule)} :
    limit < slotCount wanted ↔ ∃ e ∈ wanted, limit ≤ e.1 := by
  rw [slotCount, lt_foldl_max_iff]
  simp

/-- A group of the rule of a target has a number that no list has a slot for. -/
def Target.Oversized : Target → Prop
  | .rule _ p => ∃ list ∈ p.captures, ∃ e ∈ numbered list.2, slotLimit ≤ e.1
  | .root _ => False

/-- Every place of a table is explained, and no two targets have the same place. An overflow is that
of a target. -/
structure Sound (b : Build) : Prop where
  explained : ∀ {id : RuleId} {r : Rule}, b.rules[id]? = some r → Explained sources T tested b id r
  placed : ∀ {key id}, b.number? key = some id →
    ∃ r, b.rules[id]? = some r ∧ ∀ c, r ≠ .capture c
  unique : ∀ {key key' id}, b.number? key = some id → b.number? key' = some id → key = key'
  keyed : (b.ruleIds.map Prod.fst).Nodup ∧ (b.grammarIds.map Prod.fst).Nodup
  oversized : b.overflowed = true → ∃ t, T t ∧ t.Oversized

end Table

section Carries

variable {sources : Sources} {T : Target → Prop} {tested : Target → Bool → Prop}
variable {b c : Build} (h : b.Carries c)
include h

theorem Lists.carry
    {s : Surroundings}
    {items : List PlacedRule}
    {ids : List RuleId}
    {m : Bool}
    (hlists : Lists sources tested b s items ids m) :
    Lists sources tested c s items ids m := by
  induction hlists with
  | nil =>
      exact .nil
  | missing hq _ ih =>
      exact .missing hq ih
  | left hq hid htested _ ih =>
      exact .left hq (h.numbers hid) htested ih
  | listed hq hid htested _ ih =>
      exact .listed hq (h.numbers hid) htested ih

theorem Slots.carry
    {slots : List (Option RuleId)}
    (hslots : Slots b slots) :
    Slots c slots := by
  intro id hid
  obtain ⟨r, hr⟩ := hslots id hid
  exact ⟨r, h.captures hr⟩

theorem Numbered.carry
    {p : PlacedRule}
    {list : CaptureRole × Captures}
    (hnumbered : Numbered b p list) :
    Numbered c p list := by
  intro e he hpatterns
  obtain ⟨id, hid⟩ := hnumbered e he hpatterns
  exact ⟨id, h.numbers hid⟩

theorem Body.carry
    {t : Target}
    {r : Rule}
    (hbody : Body sources tested b t r) :
    Body sources tested c t r := by
  cases hbody with
  | root hpatterns =>
      exact .root (hpatterns.carry h)
  | simple hkind hcaptures hnumbered =>
      exact .simple hkind (hcaptures.carry h) fun list hlist => (hnumbered list hlist).carry h
  | region hkind hpatterns hopening hclosing hnumbered =>
      exact .region hkind (hpatterns.carry h) (hopening.carry h) (hclosing.carry h)
        fun list hlist => (hnumbered list hlist).carry h
  | lines hkind hpatterns hopening hcontinuing hnumbered =>
      exact .lines hkind (hpatterns.carry h) (hopening.carry h) (hcontinuing.carry h)
        fun list hlist => (hnumbered list hlist).carry h
  | held hkind hu hid =>
      exact .held hkind hu (h.numbers hid)
  | unresolved hkind hu =>
      exact .unresolved hkind hu
  | group hkind hpatterns =>
      exact .group hkind (hpatterns.carry h)

theorem Explained.carry
    {id : RuleId}
    {r : Rule}
    (hexplained : Explained sources T tested b id r) :
    Explained sources T tested c id r := by
  cases hexplained with
  | waits ht hid =>
      exact .waits ht (h.numbers hid)
  | body ht hid hbody =>
      exact .body ht (h.numbers hid) (hbody.carry h)
  | capture hagain =>
      refine .capture fun again hi => ?_
      obtain ⟨key, hkey⟩ := hagain again hi
      exact ⟨key, h.numbers hkey⟩

end Carries

/-- A body neither waits nor is a capture. -/
theorem Body.ne
    {sources : Sources}
    {tested : Target → Bool → Prop}
    {b : Build}
    {t : Target}
    {r : Rule}
    (h : Body sources tested b t r) :
    r ≠ .pending ∧ ∀ c, r ≠ .capture c := by
  cases h <;> simp

namespace Sound

variable {sources : Sources} {T : Target → Prop} {tested : Target → Bool → Prop} {b : Build}

theorem empty :
    Sound sources T tested {} := by
  have hnone : ∀ key id, Build.number? {} key ≠ some id := by
    rintro (a | scope) id h <;> cases h
  exact ⟨fun h => by simp at h, fun h => absurd h (hnone _ _), fun h => absurd h (hnone _ _),
    by simp, nofun⟩

theorem lt_size
    (h : Sound sources T tested b)
    {key : RuleAddress ⊕ String}
    {id : RuleId}
    (hid : b.number? key = some id) :
    id < b.rules.size := by
  obtain ⟨r, hr, -⟩ := h.placed hid
  exact (Array.getElem?_eq_some_iff.mp hr).1

theorem of_eq
    (h : Sound sources T tested b)
    {c : Build}
    (hrules : c.rules = b.rules)
    (hruleIds : c.ruleIds = b.ruleIds)
    (hgrammarIds : c.grammarIds = b.grammarIds)
    (hoversized : c.overflowed = true → ∃ t, T t ∧ t.Oversized) :
    Sound sources T tested c := by
  have hcarries := (Build.grows_of_eq hrules hruleIds hgrammarIds).carries
  have hback := (Build.grows_of_eq hrules.symm hruleIds.symm hgrammarIds.symm).carries
  refine ⟨fun hr => ?_, fun hid => ?_, fun hid hid' => ?_, ?_, hoversized⟩
  · rw [hrules] at hr
    exact (h.explained hr).carry hcarries
  · rw [hrules]
    exact h.placed (hback.numbers hid)
  · exact h.unique (hback.numbers hid) (hback.numbers hid')
  · rw [hruleIds, hgrammarIds]
    exact h.keyed

/-- A capture can be added. -/
theorem push
    (h : Sound sources T tested b)
    {c : CaptureRule}
    (hagain : ∀ again, c.retokenize = some again → ∃ key, b.number? key = some again) :
    Sound sources T tested (b.push (.capture c)) := by
  have hgrows := b.grows_push (r := .capture c) nofun
  refine ⟨fun {id r} hr => ?_, fun hid => ?_, fun hid hid' => h.unique hid hid', h.keyed,
    h.oversized⟩
  · simp only [Build.push, Array.getElem?_push] at hr
    split at hr
    · cases hr
      exact .capture hagain
    · exact (h.explained hr).carry hgrows.carries
  · obtain ⟨r, hr, hne⟩ := h.placed hid
    exact ⟨r, hgrows.get? hr, hne⟩

/-- A target that has not been met gets a place where it waits. -/
theorem reserve
    (h : Sound sources T tested b)
    {t : Target}
    (ht : T t)
    (hnew : b.number? t.key = none) :
    Sound sources T tested (b.reserve t) := by
  have hcarries := b.carries_reserve hnew
  -- the new place is the only one of the target, and no other target has it
  have hnumber : ∀ {key id}, (b.reserve t).number? key = some id →
      (key = t.key ∧ id = b.rules.size) ∨ (key ≠ t.key ∧ b.number? key = some id) := by
    intro key id hid
    by_cases hkey : key = t.key
    · subst hkey
      rw [Build.number?_reserve_self] at hid
      exact Or.inl ⟨rfl, (Option.some.inj hid).symm⟩
    · rw [Build.number?_reserve_of_ne b hkey] at hid
      exact Or.inr ⟨hkey, hid⟩
  have hoverflowed : (b.reserve t).overflowed = b.overflowed := by
    cases t <;> rfl
  refine ⟨fun {id r} hr => ?_, fun {key id} hid => ?_, fun {key key' id} hid hid' => ?_, ?_,
    hoverflowed ▸ h.oversized⟩
  · rw [Build.rules_reserve, Array.getElem?_push] at hr
    split at hr
    · rename_i heq
      cases hr
      exact .waits ht (heq ▸ b.number?_reserve_self t)
    · exact (h.explained hr).carry hcarries
  · rw [Build.rules_reserve]
    rcases hnumber hid with ⟨-, rfl⟩ | ⟨-, hold⟩
    · exact ⟨.pending, by simp, nofun⟩
    · obtain ⟨r, hr, hne⟩ := h.placed hold
      refine ⟨r, ?_, hne⟩
      rw [Array.getElem?_push, if_neg (Nat.ne_of_lt (h.lt_size hold)), hr]
  · rcases hnumber hid with ⟨rfl, rfl⟩ | ⟨-, hold⟩
    · rcases hnumber hid' with ⟨rfl, -⟩ | ⟨-, hold'⟩
      · rfl
      · exact absurd (h.lt_size hold') (Nat.lt_irrefl _)
    · rcases hnumber hid' with ⟨-, rfl⟩ | ⟨-, hold'⟩
      · exact absurd (h.lt_size hold) (Nat.lt_irrefl _)
      · exact h.unique hold hold'
  · obtain ⟨hrules, hgrammars⟩ := h.keyed
    cases t with
    | rule s p =>
        refine ⟨List.nodup_cons.mpr ⟨fun hmem => ?_, hrules⟩, hgrammars⟩
        obtain ⟨e, he, heq⟩ := List.mem_map.mp hmem
        exact absurd hnew (by
          simp only [Build.number?, Target.key, List.lookup_eq_none_iff]
          push Not
          exact ⟨e, he, by simp [heq]⟩)
    | root g =>
        refine ⟨hrules, List.nodup_cons.mpr ⟨fun hmem => ?_, hgrammars⟩⟩
        obtain ⟨e, he, heq⟩ := List.mem_map.mp hmem
        exact absurd hnew (by
          simp only [Build.number?, Target.key, List.lookup_eq_none_iff]
          push Not
          exact ⟨e, he, by simp [heq]⟩)

/-- A place that waits is filled with the body of its target. -/
theorem fill
    (h : Sound sources T tested b)
    {t : Target}
    (ht : T t)
    {id : RuleId}
    (hid : b.number? t.key = some id)
    (hwaits : b.rules[id]? = some .pending)
    {r : Rule}
    (hr : Body sources tested b t r) :
    Sound sources T tested (b.fill id r) := by
  have hcarries := b.carries_fill hwaits r
  refine ⟨fun {i r'} hr' => ?_, fun {key i} hi => ?_, fun hi hi' => h.unique hi hi', h.keyed,
    h.oversized⟩
  · simp only [Build.fill, Array.getElem?_setIfInBounds] at hr'
    split at hr'
    · rename_i heq
      split at hr'
      · cases hr'
        exact .body ht (heq ▸ hid) (hr.carry hcarries)
      · cases hr'
    · exact (h.explained hr').carry hcarries
  · obtain ⟨r', hr', hne⟩ := h.placed hi
    simp only [Build.fill, Array.getElem?_setIfInBounds]
    split
    · rw [if_pos (h.lt_size hid)]
      exact ⟨r, rfl, hr.ne.2⟩
    · exact ⟨r', hr', hne⟩

end Sound

end LineScopes
