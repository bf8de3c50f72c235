import LineScopes.Proofs.Scan.Reach

/-!
# The names of the groups of a match

Groups that are not scanned again only give names to their text. If each group lies inside of the
ones before it or behind them, the open groups at a place are those around it, and what is covered
there has the names of exactly these groups, in their order.

**Main definitions.** `Coverage.Labelled`, `GroupSite.namesAt`, `GroupSite.Nested`.

**Main statements.** `labelled_handleGroups`: the scopes of every place, by induction on the groups
that are left. `handleCaptures_names`: the text of a match is covered with the names of its groups.
-/

namespace LineScopes

open Relation

namespace Coverage

/-- An extension by scopes that are the right ones for its places. -/
def Labels
    (scopesAt : Nat → ScopeList)
    (c d : Coverage) : Prop :=
  ∃ scopes last, (∀ p, c.reached ≤ p → p < last → scopes = scopesAt p) ∧ d = c.extend scopes last

/-- Any number of extensions by the right scopes. -/
abbrev Labelled (scopesAt : Nat → ScopeList) : Coverage → Coverage → Prop :=
  ReflTransGen (Labels scopesAt)

theorem labelled_extend
    {scopesAt : Nat → ScopeList}
    {c : Coverage}
    {scopes : ScopeList}
    {last : Nat}
    (h : ∀ p, c.reached ≤ p → p < last → scopes = scopesAt p) :
    c.Labelled scopesAt (c.extend scopes last) :=
  .single ⟨scopes, last, h, rfl⟩

namespace Labelled

variable {scopesAt scopesAt' : Nat → ScopeList} {c d : Coverage}

theorem reached_le
    (h : c.Labelled scopesAt d) :
    c.reached ≤ d.reached := by
  induction h with
  | refl =>
      exact Nat.le_refl _
  | tail _ hstep ih =>
      obtain ⟨scopes, last, -, rfl⟩ := hstep
      rw [reached_extend]
      omega

/-- Only the scopes of the places that are covered matter. -/
theorem congr
    (h : c.Labelled scopesAt d)
    (hsame : ∀ p, c.reached ≤ p → p < d.reached → scopesAt p = scopesAt' p) :
    c.Labelled scopesAt' d := by
  induction h with
  | refl =>
      exact .refl
  | @tail e f hce hstep ih =>
      obtain ⟨scopes, last, hscopes, rfl⟩ := hstep
      rw [reached_extend] at hsame
      have hbefore : c.Labelled scopesAt' e :=
        ih fun p hfirst hlast => hsame p hfirst (hlast.trans_le (Nat.le_max_left _ _))
      refine hbefore.trans (labelled_extend fun p hfirst hlast => ?_)
      have hlater := hsame p (Nat.le_trans (reached_le hce) hfirst)
        (hlast.trans_le (Nat.le_max_right _ _))
      exact (hscopes p hfirst hlast).trans hlater

/-- The segments that are added cover what is reached, with the right scopes. -/
theorem exists_added
    (h : c.Labelled scopesAt d) :
    ∃ added, d.newest = added ++ c.newest ∧
      (∀ segment ∈ added, c.reached ≤ segment.first ∧ segment.last ≤ d.reached ∧
        ∀ p, segment.first ≤ p → p < segment.last → segment.scopes = scopesAt p) ∧
      ∀ p, c.reached ≤ p → p < d.reached →
        ∃ segment ∈ added, segment.first ≤ p ∧ p < segment.last := by
  induction h with
  | refl =>
      refine ⟨[], rfl, by simp, fun p hfirst hlast => ?_⟩
      omega
  | @tail e f hce hstep ih =>
      obtain ⟨scopes, last, hscopes, rfl⟩ := hstep
      obtain ⟨added, hadded, hlabels, hcovers⟩ := ih
      have hle := reached_le hce
      unfold extend
      split
      · rename_i hlt
        refine ⟨⟨e.reached, last, scopes⟩ :: added, by simp [hadded], ?_, ?_⟩
        · intro segment hsegment
          rcases List.mem_cons.mp hsegment with rfl | hsegment
          · exact ⟨hle, Nat.le_refl _, hscopes⟩
          · obtain ⟨hfirst, hlast, hscopes⟩ := hlabels segment hsegment
            exact ⟨hfirst, hlast.trans hlt.le, hscopes⟩
        · intro p hfirst hlast
          by_cases hp : p < e.reached
          · obtain ⟨segment, hsegment, hplace⟩ := hcovers p hfirst hp
            exact ⟨segment, List.mem_cons_of_mem _ hsegment, hplace⟩
          · exact ⟨_, List.mem_cons_self, Nat.not_lt.mp hp, hlast⟩
      · exact ⟨added, hadded, hlabels, hcovers⟩

end Labelled

end Coverage

section OpenGroups

variable {site : GroupSite} {o : OpenGroup} {groups : List OpenGroup} {place : Nat}

namespace Coverage

/-- The text of the innermost group comes first. -/
theorem Labelled.cons
    {c d : Coverage}
    (h : (c.extend o.scopes o.last).Labelled (fun p => currentScopes site (openAt p groups)) d) :
    c.Labelled (fun p => currentScopes site (openAt p (o :: groups))) d := by
  have hfirst : c.Labelled (fun p => currentScopes site (openAt p (o :: groups)))
      (c.extend o.scopes o.last) := by
    refine labelled_extend fun p _ hp => ?_
    rw [openAt_cons_of_lt hp]
    rfl
  refine hfirst.trans (h.congr fun p hp _ => ?_)
  rw [reached_extend] at hp
  rw [openAt_cons_of_le ((Nat.le_max_right _ _).trans hp)]

/-- Closing groups covers their text with the scopes of the innermost one. -/
theorem labelled_close
    (site : GroupSite)
    (groups : List OpenGroup)
    (c : Coverage) :
    c.Labelled (fun p => currentScopes site (openAt p groups)) (c.close groups) := by
  induction groups generalizing c with
  | nil =>
      exact .refl
  | cons o rest ih =>
      exact (ih (c.extend o.scopes o.last)).cons

/-- So does covering the text up to a place. -/
theorem labelled_upTo
    (site : GroupSite)
    (groups : List OpenGroup)
    (place : Nat)
    (c : Coverage) :
    c.Labelled (fun p => currentScopes site (openAt p groups)) (c.upTo site groups place) := by
  induction groups generalizing c with
  | nil =>
      exact labelled_extend fun _ _ _ => rfl
  | cons o rest ih =>
      by_cases ho : o.last ≤ place
      · rw [upTo_cons_of_le ho]
        exact (ih (c.extend o.scopes o.last)).cons
      · have hlater := Nat.not_le.mp ho
        rw [upTo_cons_of_lt hlater]
        refine labelled_extend fun p _ hp => ?_
        rw [openAt_cons_of_lt (hp.trans hlater)]
        rfl

end Coverage

end OpenGroups

/-- The names that a group with the rule gives to its text. -/
def GroupSite.groupNames
    (site : GroupSite)
    (r : CaptureRule) : List String :=
  match r.name with
  | none => []
  | some name => Text.splitAt ' ' (name.resolve site.text site.groups)

/-- The names of the groups around a place, in the order of the groups. -/
def GroupSite.namesAt
    (site : GroupSite)
    (captured : List (CaptureRule × Span))
    (place : Nat) : List String :=
  captured.flatMap fun group =>
    if group.2.first ≤ place ∧ place < group.2.last then site.groupNames group.1 else []

/-- A span lies inside of an earlier one or behind it. -/
def Span.Succeeds (later earlier : Span) : Prop :=
  earlier.first ≤ later.first ∧ later.last ≤ earlier.last ∨ earlier.last ≤ later.first

theorem pushTemplate_eq_foldl
    (s : LineScanner)
    (site : GroupSite)
    (r : CaptureRule)
    (scopes : ScopeList) :
    s.pushTemplate scopes r.name site.text site.groups =
      (site.groupNames r).foldl (ScopeList.push s.attribution) scopes := by
  unfold LineScanner.pushTemplate GroupSite.groupNames
  cases r.name <;> rfl

section Names

variable {s : LineScanner} {site : GroupSite}

/-- The scopes of a place when some groups are open and others are still to come. -/
def GroupSite.scopesAt
    (s : LineScanner)
    (site : GroupSite)
    (captured : List (CaptureRule × Span))
    (groups : List OpenGroup)
    (place : Nat) : ScopeList :=
  (site.namesAt captured place).foldl (ScopeList.push s.attribution)
    (currentScopes site (openAt place groups))

/-- What is known about the groups that are still to come. -/
structure GroupSite.Ahead
    (site : GroupSite)
    (captured : List (CaptureRule × Span))
    (groups : List OpenGroup)
    (reached : Nat) : Prop where
  plain : ∀ group ∈ captured, group.1.retokenize = none
  spans : ∀ group ∈ captured,
    reached ≤ group.2.first ∧ group.2.first < group.2.last ∧ group.2.last ≤ site.last
  nested : captured.Pairwise fun earlier later => later.2.Succeeds earlier.2
  inside : ∀ o ∈ groups, ∀ group ∈ captured, group.2.last ≤ o.last ∨ o.last ≤ group.2.first

theorem namesAt_eq_nil
    {captured : List (CaptureRule × Span)}
    {place : Nat}
    (h : ∀ group ∈ captured, place < group.2.first) :
    site.namesAt captured place = [] := by
  refine List.flatMap_eq_nil_iff.mpr fun group hgroup => if_neg ?_
  exact fun hplace => Nat.not_lt.mpr hplace.1 (h group hgroup)

namespace GroupSite.Ahead

variable {r : CaptureRule} {span : Span} {rest : List (CaptureRule × Span)}
variable {groups : List OpenGroup} {reached : Nat}

theorem later_first
    (h : site.Ahead ((r, span) :: rest) groups reached) :
    ∀ group ∈ rest, span.first ≤ group.2.first := by
  intro group hgroup
  have hspan := h.spans _ List.mem_cons_self
  rcases List.rel_of_pairwise_cons h.nested hgroup with hinside | hbehind
  · exact hinside.1
  · exact hspan.2.1.le.trans hbehind

theorem scopesAt_before
    {place : Nat}
    (h : site.Ahead ((r, span) :: rest) groups reached)
    (hplace : place < span.first) :
    site.scopesAt s ((r, span) :: rest) groups place =
      currentScopes site (openAt place groups) := by
  have hnone : site.namesAt ((r, span) :: rest) place = [] :=
    namesAt_eq_nil (List.forall_mem_cons.mpr
      ⟨hplace, fun group hgroup => hplace.trans_le (h.later_first group hgroup)⟩)
  rw [GroupSite.scopesAt, hnone]
  rfl

/-- A place inside of a group is inside of those that are open at its start. -/
theorem openAt_inside
    {place : Nat}
    (h : site.Ahead ((r, span) :: rest) groups reached)
    (hfirst : span.first ≤ place)
    (hlast : place < span.last) :
    openAt place groups = openAt span.first groups := by
  rw [← openAt_openAt hfirst]
  cases hopen : openAt span.first groups with
  | nil =>
      rfl
  | cons o left =>
      have hlater := lt_last_of_openAt_eq_cons hopen
      have ho : o ∈ groups := openAt_subset _ _ (hopen ▸ List.mem_cons_self)
      rcases h.inside o ho _ List.mem_cons_self with hinside | hbehind
      · exact openAt_cons_of_lt (hlast.trans_le hinside)
      · exact absurd hlater (Nat.not_lt.mpr hbehind)

/-- Behind the start of a group it does not matter whether the group is open or still to come. -/
theorem scopesAt_behind
    {place : Nat}
    (h : site.Ahead ((r, span) :: rest) groups reached)
    (hplace : span.first ≤ place) :
    site.scopesAt s rest (openedBy s site r span (openAt span.first groups)) place =
      site.scopesAt s ((r, span) :: rest) groups place := by
  have hopen := openAt_openAt hplace groups
  simp only [GroupSite.scopesAt, GroupSite.namesAt, List.flatMap_cons, List.foldl_append]
  congr 1
  by_cases hlast : place < span.last
  · rw [if_pos ⟨hplace, hlast⟩, h.openAt_inside hplace hlast, ← pushTemplate_eq_foldl]
    unfold openedBy
    split
    · rw [openAt_cons_of_lt hlast]
      rfl
    · rename_i hname
      rw [hopen, h.openAt_inside hplace hlast, Option.not_isSome_iff_eq_none.mp hname]
      rfl
  · rw [if_neg fun hinside => hlast hinside.2, List.foldl_nil]
    unfold openedBy
    split
    · rw [openAt_cons_of_le (Nat.not_lt.mp hlast), hopen]
    · rw [hopen]

theorem next
    (h : site.Ahead ((r, span) :: rest) groups reached) :
    site.Ahead rest (openedBy s site r span (openAt span.first groups)) span.first := by
  have hinside : ∀ o ∈ openAt span.first groups, ∀ group ∈ rest,
      group.2.last ≤ o.last ∨ o.last ≤ group.2.first :=
    fun o ho group hgroup =>
      h.inside o (openAt_subset _ _ ho) group (List.mem_cons_of_mem _ hgroup)
  refine ⟨(List.forall_mem_cons.mp h.plain).2, fun group hgroup => ?_, h.nested.of_cons, ?_⟩
  · exact ⟨h.later_first group hgroup, (h.spans group (List.mem_cons_of_mem _ hgroup)).2⟩
  · unfold openedBy
    split
    · refine List.forall_mem_cons.mpr ⟨fun group hgroup => ?_, hinside⟩
      exact (List.rel_of_pairwise_cons h.nested hgroup).imp And.right id
    · exact hinside

end GroupSite.Ahead

/-- Every place gets the scopes of the groups that are open there and of those that are still to
come. -/
theorem labelled_handleGroups
    (s : LineScanner)
    (rescan : Rescan)
    {captured : List (CaptureRule × Span)}
    {groups : List OpenGroup}
    {c : Coverage}
    (h : site.Ahead captured groups c.reached) :
    ∃ d, handleGroups s rescan site captured groups c = .ok d ∧
      c.Labelled (site.scopesAt s captured groups)
        (d.extend site.state.top.contentScopes site.last) := by
  induction captured generalizing groups c with
  | nil =>
      refine ⟨_, rfl, (Coverage.labelled_close site groups c).trans ?_⟩
      refine Coverage.labelled_extend fun p hp _ => ?_
      have hclosed := ((c.reached_close_le_iff groups).mp hp).2
      have hnone : openAt p groups = [] :=
        List.dropWhile_eq_nil_iff.mpr fun o ho => decide_eq_true (hclosed o ho)
      change _ = currentScopes site (openAt p groups)
      rw [hnone]
      rfl
  | cons group rest ih =>
      obtain ⟨r, span⟩ := group
      obtain ⟨hfirst, hlast, hend⟩ : c.reached ≤ span.first ∧ span.first < span.last ∧
          span.last ≤ site.last := h.spans _ List.mem_cons_self
      have hreached : (c.upTo site groups span.first).reached = span.first := by
        rw [Coverage.reached_upTo]
        exact Nat.max_eq_right hfirst
      have hnext : site.Ahead rest (openedBy s site r span (openAt span.first groups))
          (c.upTo site groups span.first).reached := by
        rw [hreached]
        exact h.next
      obtain ⟨d, hd, hlabelled⟩ := ih hnext
      have hretokenize : r.retokenize = none := h.plain _ List.mem_cons_self
      refine ⟨d, ?_, ?_⟩
      · rw [handleGroups, if_neg (by omega), hretokenize]
        exact hd
      · have hbefore : c.Labelled (site.scopesAt s ((r, span) :: rest) groups)
            (c.upTo site groups span.first) := by
          refine (Coverage.labelled_upTo site groups span.first c).congr fun p _ hp => ?_
          rw [hreached] at hp
          exact (h.scopesAt_before hp).symm
        refine hbefore.trans (hlabelled.congr fun p hp _ => ?_)
        rw [hreached] at hp
        exact h.scopesAt_behind hp

end Names

section Match

variable {s : LineScanner} {site : GroupSite}

/-- Every group lies in the match, behind a place, and inside of each group before it or behind
it. -/
structure GroupSite.Nested
    (site : GroupSite)
    (first : Nat) : Prop where
  within : ∀ span, some span ∈ site.groups →
    first ≤ span.first ∧ span.first ≤ span.last ∧ span.last ≤ site.last
  succeeds : site.groups.Pairwise fun earlier later =>
    ∀ outer, earlier = some outer → ∀ inner, later = some inner → inner.Succeeds outer

theorem pairwise_zip
    {α β : Type}
    {R : β → β → Prop}
    (as : List α)
    {bs : List β}
    (h : bs.Pairwise R) :
    (as.zip bs).Pairwise fun p q => R p.2 q.2 := by
  induction h generalizing as with
  | nil =>
      simp
  | @cons b bs hb _ ih =>
      cases as with
      | nil =>
          exact .nil
      | cons a as =>
          exact .cons (fun p hp => hb p.2 (List.of_mem_zip hp).2) (ih as)

theorem GroupSite.Nested.ahead
    {captures : List (Option RuleId)}
    {first : Nat}
    (hplain : ∀ id r, some id ∈ captures → s.grammar.rule? id = some (.capture r) →
      r.retokenize = none)
    (h : site.Nested first) :
    site.Ahead (site.captured s.grammar captures) [] first := by
  have hmem : ∀ r span, (r, span) ∈ site.captured s.grammar captures →
      r.retokenize = none ∧
        first ≤ span.first ∧ span.first < span.last ∧ span.last ≤ site.last := by
    intro r span hgroup
    obtain ⟨⟨slot, found⟩, hslot, hcapture⟩ := List.mem_filterMap.mp hgroup
    obtain ⟨hrule, hfound, hne⟩ := captureOf?_eq_some_iff.mp hcapture
    obtain ⟨id, rfl, hrule⟩ := Option.bind_eq_some_iff.mp hrule
    obtain ⟨hid, hspan⟩ := List.of_mem_zip ((site.slots_sublist captures).mem hslot)
    have hwithin := h.within span (hfound ▸ hspan)
    exact ⟨hplain id r hid hrule, by omega⟩
  refine ⟨fun group hgroup => (hmem _ _ hgroup).1, fun group hgroup => (hmem _ _ hgroup).2, ?_,
    by simp⟩
  have hpairs := (pairwise_zip captures h.succeeds).sublist (site.slots_sublist captures)
  refine List.Pairwise.filterMap _ ?_ hpairs
  intro earlier later hsucceeds a ha b hb
  exact hsucceeds a.2 (captureOf?_eq_some ha) b.2 (captureOf?_eq_some hb)

/-- If no group of a match is scanned again and each lies inside of the ones before it or behind
them, the text of the match is covered with the names of exactly the groups around each place, in
the order of the groups, inside of the scopes of the open rule. -/
theorem handleCaptures_names
    (rescan : Rescan)
    {captures : List (Option RuleId)}
    (hplain : ∀ id r, some id ∈ captures → s.grammar.rule? id = some (.capture r) →
      r.retokenize = none)
    {c : Coverage}
    (hreached : c.reached ≤ site.last)
    (hnested : site.Nested c.reached) :
    ∃ d added, (handleCaptures s rescan site captures c).outcome = .ok d ∧
      (d.extend site.state.top.contentScopes site.last).reached = site.last ∧
      (d.extend site.state.top.contentScopes site.last).newest = added ++ c.newest ∧
      (∀ p, c.reached ≤ p → p < site.last →
        ∃ segment ∈ added, segment.first ≤ p ∧ p < segment.last) ∧
      ∀ segment ∈ added, c.reached ≤ segment.first ∧ segment.last ≤ site.last ∧
        ∀ p, segment.first ≤ p → p < segment.last →
          segment.scopes = (site.namesAt (site.captured s.grammar captures) p).foldl
            (ScopeList.push s.attribution) site.state.top.contentScopes ∧
          segment.scopes.names = site.state.top.contentScopes.names ++
            site.namesAt (site.captured s.grammar captures) p := by
  have hahead := hnested.ahead hplain
  obtain ⟨d, hd, hlabelled⟩ := labelled_handleGroups s rescan hahead
  have hexact : site.Exact s rescan (site.captured s.grammar captures) := by
    intro r span hgroup rule hrule
    have hnone : r.retokenize = none := hahead.plain _ hgroup
    rw [hnone] at hrule
    cases hrule
  have hle : d.reached ≤ site.last := by
    refine (reached_handleGroups_le_iff hexact (Nat.le_refl _) hd).mpr
      ⟨⟨hreached, by simp⟩, fun group hgroup _ => ?_⟩
    exact (hahead.spans group ((List.takeWhile_sublist _).subset hgroup)).2.2
  have hend : (d.extend site.state.top.contentScopes site.last).reached = site.last := by
    rw [Coverage.reached_extend]
    exact Nat.max_eq_right hle
  obtain ⟨added, hadded, hlabels, hcovers⟩ := hlabelled.exists_added
  rw [hend] at hlabels hcovers
  refine ⟨d, added, ?_, hend, hadded, hcovers, fun segment hsegment => ?_⟩
  · rw [outcome_handleCaptures, hd]
  · obtain ⟨hfirst, hlast, hscopes⟩ := hlabels segment hsegment
    refine ⟨hfirst, hlast, fun p hp hp' => ?_⟩
    have hplace : segment.scopes = (site.namesAt (site.captured s.grammar captures) p).foldl
        (ScopeList.push s.attribution) site.state.top.contentScopes := hscopes p hp hp'
    exact ⟨hplace, hplace ▸ ScopeList.names_foldl_push _ _ _⟩

end Match

/-- A word whose groups have names, one of which repeats a part of the word. -/
def word : CompileRequest where
  sources := {
    library := .empty
    base := {
      scopeName := "source"
      patterns := [
        { matchPattern := some "(a(b))c",
          captures := some [("0", { name := some "word" }), ("1", { name := some "head $2" }),
            ("2", { name := some "letter" })] }] } }
  engine := regexEngine

/-- The match of the word. -/
def wordSite : GroupSite where
  text := "abc\n"
  firstLine := true
  state := .initial
  groups := [some ⟨0, 3⟩, some ⟨0, 2⟩, some ⟨1, 2⟩]
  last := 3

theorem wordSite_nested :
    wordSite.Nested 0 := by
  constructor
  · simp [wordSite]
  · simp [wordSite, Span.Succeeds]

/-- The letter has the names of all three groups around it. -/
theorem handleCaptures_names_word :
    ∃ (g : Grammar) (d : Coverage),
      (Grammar.compile word).outcome = .ok g ∧
      (∀ id r, some id ∈ [some 2, some 3, some 4] → g.rule? id = some (.capture r) →
        r.retokenize = none) ∧
      (handleCaptures (g.scanner .plain) (rescanText (g.scanner .plain) 0) wordSite
        [some 2, some 3, some 4] .empty).outcome = .ok d ∧
      (d.extend wordSite.state.top.contentScopes 3).newest.map
          (fun t => (t.first, t.last, t.scopes.names)) =
        [(2, 3, ["word"]), (1, 2, ["word", "head", "b", "letter"]),
          (0, 1, ["word", "head", "b"])] ∧
      ∀ segment ∈ (d.extend wordSite.state.top.contentScopes 3).newest,
        ∀ p, segment.first ≤ p → p < segment.last →
          segment.scopes.names =
            wordSite.namesAt (wordSite.captured g [some 2, some 3, some 4]) p := by
  have hscan : (Grammar.compile word).outcome.bind (fun g =>
      (handleCaptures (g.scanner .plain) (rescanText (g.scanner .plain) 0) wordSite
        [some 2, some 3, some 4] .empty).outcome.map fun d =>
          ([2, 3, 4].all fun id =>
            (captureOf? g (some id) (some ⟨0, 1⟩)).all fun group => group.1.retokenize.isNone,
          (d.extend wordSite.state.top.contentScopes 3).newest.map
            fun t => (t.first, t.last, t.scopes.names))) =
      .ok (true, [(2, 3, ["word"]), (1, 2, ["word", "head", "b", "letter"]),
        (0, 1, ["word", "head", "b"])]) := by
    decide +kernel
  obtain ⟨g, hg, hscan⟩ := exists_of_bind_eq_ok hscan
  obtain ⟨d, hd, hvalues⟩ := exists_of_map_eq_ok hscan
  obtain ⟨hall, hsegments⟩ := Prod.mk.inj hvalues
  have hplain : ∀ id r, some id ∈ [some 2, some 3, some 4] → g.rule? id = some (.capture r) →
      r.retokenize = none := by
    intro id r hid hrule
    have hone := List.all_eq_true.mp hall id (by simpa using hid)
    have hcapture : captureOf? g (some id) (some ⟨0, 1⟩) = some (r, ⟨0, 1⟩) :=
      captureOf?_eq_some_iff.mpr ⟨hrule, rfl, by decide⟩
    rw [hcapture] at hone
    exact Option.isNone_iff_eq_none.mp hone
  obtain ⟨e, added, he, -, hadded, -, hnames⟩ :=
    handleCaptures_names (s := g.scanner .plain) (rescanText (g.scanner .plain) 0)
      hplain (c := .empty) (by decide) wordSite_nested
  obtain rfl : d = e := Except.ok.inj (hd.symm.trans he)
  have hnewest : (d.extend wordSite.state.top.contentScopes 3).newest = added :=
    hadded.trans (List.append_nil added)
  refine ⟨g, d, hg, hplain, hd, hsegments, fun segment hsegment p hp hp' => ?_⟩
  rw [hnewest] at hsegment
  exact ((hnames segment hsegment).2.2 p hp hp').2

end LineScopes
