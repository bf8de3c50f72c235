import LineScopes.Proofs.Scan.Growth
import Mathlib.Data.List.TakeWhile

/-!
# How the groups of a match are handled

What handling the groups of a match does is said here without reports: which of the open groups are
left in front of a place, how far the text is covered then, and which groups are open behind it.
Only groups with rules and with text matter.

**Main definitions.** `capturedIn`, `openAt`, `Coverage.close`, `Coverage.upTo`, `openedBy`,
`handleGroups`.

**Main statements.** `Coverage.reached_upTo`: how far the text is covered in front of a group.
`outcome_scanGroups`, `outcome_handleCaptures`: the outcome in terms of `handleGroups`.
-/

namespace LineScopes

/-- The groups with rules and with text, in their order. -/
def capturedIn
    (g : Grammar)
    (slots : List (Option RuleId × Option Span)) : List (CaptureRule × Span) :=
  slots.filterMap fun slot => captureOf? g slot.1 slot.2

/-- The groups with rules and with text of a match. -/
def GroupSite.captured
    (g : Grammar)
    (site : GroupSite)
    (captures : List (Option RuleId)) : List (CaptureRule × Span) :=
  capturedIn g (site.slots captures)

/-- A group matters if its slot has a rule for groups and its text is not empty. -/
theorem captureOf?_eq_some_iff
    {g : Grammar}
    {slot : Option RuleId}
    {found : Option Span}
    {r : CaptureRule}
    {span : Span} :
    captureOf? g slot found = some (r, span) ↔
      slot.bind g.rule? = some (.capture r) ∧ found = some span ∧ span.first ≠ span.last := by
  unfold captureOf?
  split
  · rename_i hslot
    rw [hslot]
    split <;> grind
  · rename_i hother
    constructor
    · nofun
    · rintro ⟨hslot, rfl, -⟩
      exact absurd rfl (hother r span hslot)

theorem exists_span?_of_mem_captured
    {g : Grammar}
    {site : GroupSite}
    {captures : List (Option RuleId)}
    {r : CaptureRule}
    {span : Span}
    (h : (r, span) ∈ site.captured g captures) :
    ∃ n, site.groups.span? n = some span := by
  obtain ⟨⟨slot, found⟩, hslot, hcapture⟩ := List.mem_filterMap.mp h
  have hgroup := (List.of_mem_zip ((site.slots_sublist captures).mem hslot)).2
  obtain ⟨n, hn⟩ := List.mem_iff_getElem?.mp hgroup
  exact ⟨n, by simpa [Groups.span?, hn] using captureOf?_eq_some hcapture⟩

/-- The open groups that end in front of a place, down to the first one that does not. -/
def closedAt
    (place : Nat)
    (groups : List OpenGroup) : List OpenGroup :=
  groups.takeWhile fun o => decide (o.last ≤ place)

/-- The groups that are left open at a place. -/
def openAt
    (place : Nat)
    (groups : List OpenGroup) : List OpenGroup :=
  groups.dropWhile fun o => decide (o.last ≤ place)

namespace Coverage

/-- Covers the text of some open groups, the innermost first. -/
def close
    (c : Coverage)
    (groups : List OpenGroup) : Coverage :=
  groups.foldl (fun c o => c.extend o.scopes o.last) c

/-- Covers the text up to a place, where some groups are open. -/
def upTo
    (site : GroupSite)
    (groups : List OpenGroup)
    (c : Coverage)
    (place : Nat) : Coverage :=
  (c.close (closedAt place groups)).extend (currentScopes site (openAt place groups)) place

end Coverage

/-- The groups that are open inside of a group. -/
def openedBy
    (s : LineScanner)
    (site : GroupSite)
    (r : CaptureRule)
    (span : Span)
    (groups : List OpenGroup) : List OpenGroup :=
  if r.name.isSome then
    ⟨s.pushTemplate (currentScopes site groups) r.name site.text site.groups, span.last⟩ :: groups
  else
    groups

/-- Handles the groups that have rules and text, without reports. -/
def handleGroups
    (s : LineScanner)
    (rescan : Rescan)
    (site : GroupSite) :
    List (CaptureRule × Span) → List OpenGroup → Coverage → Except Error Coverage
  | [], groups, c => .ok (c.close groups)
  | (r, span) :: rest, groups, c =>
    if site.last < span.first then .ok (c.close groups)
    else
      match r.retokenize with
      | some rule =>
        (rescanGroup s rescan site r rule span (c.upTo site groups span.first)).outcome.bind
          fun d => handleGroups s rescan site rest (openAt span.first groups) d
      | none =>
        handleGroups s rescan site rest (openedBy s site r span (openAt span.first groups))
          (c.upTo site groups span.first)

section OpenGroups

variable {site : GroupSite} {o : OpenGroup} {groups : List OpenGroup} {place : Nat}

theorem closedAt_append_openAt
    (place : Nat)
    (groups : List OpenGroup) :
    closedAt place groups ++ openAt place groups = groups :=
  List.takeWhile_append_dropWhile

theorem last_le_of_mem_closedAt
    (h : o ∈ closedAt place groups) :
    o.last ≤ place := by
  simpa using List.mem_takeWhile_imp h

theorem openAt_cons_of_le
    (h : o.last ≤ place) :
    openAt place (o :: groups) = openAt place groups := by
  simp [openAt, h]

theorem openAt_cons_of_lt
    (h : place < o.last) :
    openAt place (o :: groups) = o :: groups := by
  simp [openAt, h]

/-- What is open at a later place is open before. -/
theorem openAt_openAt
    {later : Nat}
    (h : place ≤ later)
    (groups : List OpenGroup) :
    openAt later (openAt place groups) = openAt later groups := by
  induction groups with
  | nil =>
      rfl
  | cons o rest ih =>
      by_cases ho : o.last ≤ place
      · rw [openAt_cons_of_le ho, openAt_cons_of_le (ho.trans h), ih]
      · rw [openAt_cons_of_lt (Nat.not_le.mp ho)]

theorem lt_last_of_openAt_eq_cons
    {left : List OpenGroup}
    (h : openAt place groups = o :: left) :
    place < o.last := by
  have hhead := List.head?_dropWhile_not (fun o => decide (o.last ≤ place)) groups
  rw [← openAt, h] at hhead
  simpa using hhead

theorem openAt_subset
    (place : Nat)
    (groups : List OpenGroup) :
    openAt place groups ⊆ groups :=
  (List.dropWhile_sublist _).subset

theorem Coverage.upTo_cons_of_le
    (h : o.last ≤ place)
    (c : Coverage) :
    c.upTo site (o :: groups) place = (c.extend o.scopes o.last).upTo site groups place := by
  simp [upTo, close, closedAt, openAt, h]

theorem Coverage.upTo_cons_of_lt
    (h : place < o.last)
    (c : Coverage) :
    c.upTo site (o :: groups) place = c.extend o.scopes place := by
  simp [upTo, close, closedAt, openAt, h, currentScopes]

end OpenGroups

section Reached

variable {s : LineScanner} {site : GroupSite} {n : Nat}

theorem Coverage.reached_close_le_iff
    (c : Coverage)
    (groups : List OpenGroup) :
    (c.close groups).reached ≤ n ↔ c.reached ≤ n ∧ ∀ o ∈ groups, o.last ≤ n := by
  induction groups generalizing c with
  | nil =>
      simp [close]
  | cons o rest ih =>
      rw [close, List.foldl_cons, ← close, ih, reached_extend, List.forall_mem_cons, Nat.max_le,
        and_assoc]

/-- The groups that end in front of a place do not reach behind it. -/
theorem Coverage.reached_upTo
    (c : Coverage)
    (groups : List OpenGroup)
    (place : Nat) :
    (c.upTo site groups place).reached = max c.reached place := by
  have hupper : (c.close (closedAt place groups)).reached ≤ max c.reached place := by
    refine (c.reached_close_le_iff _).mpr ⟨Nat.le_max_left _ _, fun o ho => ?_⟩
    exact (last_le_of_mem_closedAt ho).trans (Nat.le_max_right _ _)
  have hlower := ((c.reached_close_le_iff (closedAt place groups)).mp (Nat.le_refl _)).1
  rw [upTo, reached_extend]
  omega

theorem openAt_last_le_iff
    {place : Nat}
    (hplace : place ≤ n)
    (groups : List OpenGroup) :
    (∀ o ∈ openAt place groups, o.last ≤ n) ↔ ∀ o ∈ groups, o.last ≤ n := by
  have hclosed : ∀ o ∈ closedAt place groups, o.last ≤ n :=
    fun o ho => (last_le_of_mem_closedAt ho).trans hplace
  constructor
  · intro hopen o ho
    rw [← closedAt_append_openAt place groups] at ho
    exact (List.mem_append.mp ho).elim (hclosed o) (hopen o)
  · exact fun h o ho => h o (openAt_subset place groups ho)

theorem openedBy_last_le_iff
    (r : CaptureRule)
    (span : Span)
    (groups : List OpenGroup) :
    (∀ o ∈ openedBy s site r span groups, o.last ≤ n) ↔
      (r.name.isSome = true → span.last ≤ n) ∧ ∀ o ∈ groups, o.last ≤ n := by
  unfold openedBy
  split
  · rename_i hname
    simp [hname]
  · rename_i hname
    simp [hname]

end Reached

section Outcomes

variable (s : LineScanner) (rescan : Rescan) (site : GroupSite)

theorem outcome_closeAll
    (groups : List OpenGroup)
    (c : Coverage) :
    (closeAll s groups c).outcome = .ok (c.close groups) := by
  induction groups generalizing c with
  | nil =>
      rfl
  | cons o rest ih =>
      rw [closeAll, LineScanner.outcome_produce_bind, ih]
      rfl

theorem outcome_closeUntil
    (place : Nat)
    (groups : List OpenGroup)
    (c : Coverage) :
    (closeUntil s place groups c).outcome =
      .ok (openAt place groups, c.close (closedAt place groups)) := by
  induction groups generalizing c with
  | nil =>
      rfl
  | cons o rest ih =>
      unfold closeUntil
      split
      · rename_i hle
        rw [LineScanner.outcome_produce_bind, ih]
        simp [openAt, closedAt, hle, Coverage.close]
      · rename_i hle
        simp [openAt, closedAt, hle, Coverage.close]

/-- Handling groups depends on those with rules and with text alone. -/
theorem outcome_scanGroups
    (slots : List (Option RuleId × Option Span))
    (groups : List OpenGroup)
    (c : Coverage) :
    (scanGroups s rescan site slots groups c).outcome =
      handleGroups s rescan site (capturedIn s.grammar slots) groups c := by
  induction slots generalizing groups c with
  | nil =>
      exact outcome_closeAll s groups c
  | cons slot rest ih =>
      obtain ⟨slot, found⟩ := slot
      simp only [scanGroups, capturedIn, List.filterMap_cons] at ih ⊢
      cases hcapture : captureOf? s.grammar slot found with
      | none =>
          exact ih groups c
      | some group =>
          obtain ⟨r, span⟩ := group
          dsimp only
          unfold handleGroups
          split
          · exact outcome_closeAll s groups c
          · rw [Reported.outcome_bind, outcome_closeUntil]
            change (s.produce _ _ _ >>= _).outcome = _
            rw [LineScanner.outcome_produce_bind]
            cases r.retokenize with
            | some rule =>
                rw [Reported.outcome_bind]
                exact congrArg _ (funext fun d => ih (openAt span.first groups) d)
            | none =>
                dsimp only [openedBy]
                split <;> exact ih _ _

theorem outcome_handleCaptures
    (captures : List (Option RuleId))
    (c : Coverage) :
    (handleCaptures s rescan site captures c).outcome =
      handleGroups s rescan site (site.captured s.grammar captures) [] c := by
  rw [outcome_handleCaptures_eq]
  exact outcome_scanGroups s rescan site _ [] c

end Outcomes

end LineScopes
