import LineScopes.Proofs.Scan.Groups
import LineScopes.Proofs.Scan.Upkeep
import LineScopes.Regex.Engine

/-!
# How far the groups of a match are covered

The text behind a match belongs to the matches that follow. Groups inside of a lookahead may lie
there as well. A group that starts behind the match ends the handling of groups, but one that starts
in the match or at its end is covered to its own end, so that what is covered is the match together
with these groups.

**Main definitions.** `CaptureRule.Covers`, `GroupSite.entered`.

**Main statements.** `rescanText_reached`: a nested scan covers its text and nothing behind it.
`reached_handleCaptures`: how far the groups of a match and the match itself are covered.
-/

namespace LineScopes

theorem Coverage.Grows.reached_le_max
    {text : String}
    {c d : Coverage}
    (h : c.Grows text d) :
    d.reached ≤ max c.reached text.utf8ByteSize := by
  induction h with
  | refl =>
      exact Nat.le_max_left _ _
  | tail _ hstep ih =>
      obtain ⟨scopes, last, hlast, rfl⟩ := hstep
      have hle := hlast.le_utf8ByteSize
      rw [reached_extend]
      omega

section Nested

variable {s : LineScanner} {rescan : Rescan} {text : String}

/-- Without a time limit a scan does not stop early. -/
theorem run_unlimited
    {bound : Nat}
    {c : Cursor}
    {newest : List Entry}
    {e : ScanEnd}
    (h : (run s rescan text bound none c newest).outcome = .ok e) :
    e.stopped = false := by
  induction bound generalizing c newest with
  | zero =>
      simp [run] at h
  | succ bound ih =>
      rcases run_succ_eq_ok h with ⟨hlimit, -⟩ | ⟨p, -, ⟨-, hstopped⟩ | ⟨d, -, hrun⟩⟩
      · cases hlimit
      · exact hstopped
      · exact ih hrun

/-- A nested scan covers its text and nothing behind it. -/
theorem rescanText_reached
    (he : s.grammar.engine.Lawful)
    {nesting : Nat}
    {firstLine : Bool}
    {pos : Nat}
    (hpos : Text.IsBoundary text pos)
    {state : State}
    (hstate : state.Lawful)
    {c d : Coverage}
    (h : (rescanText s nesting text firstLine pos state c).outcome = .ok d) :
    d.reached = max c.reached text.utf8ByteSize := by
  have hgrows := rescanText_sound he nesting text firstLine pos state c d hpos hstate h
  have hupper := hgrows.reached_le_max
  have hlower := hgrows.reached_le
  cases nesting with
  | zero =>
      simp [rescanText] at h
  | succ nesting =>
      simp only [rescanText, Reported.outcome_bind_eq_ok] at h
      obtain ⟨e, hrun, h⟩ := h
      obtain rfl : e.cursor.coverage = d := by simpa using h
      have hend := run_sound he (rescanText_sound he nesting) ⟨hpos, hstate⟩ hrun
      have hcomplete := hend.complete (run_unlimited hrun)
      omega

end Nested

/-- Text of a group with the rule is covered to the end of the group. -/
def CaptureRule.Covers (r : CaptureRule) : Prop :=
  r.name.isSome = true ∨ r.retokenize.isSome = true

/-- The groups that are handled: those up to the first one that starts behind the match. -/
def GroupSite.entered
    (g : Grammar)
    (site : GroupSite)
    (captures : List (Option RuleId)) : List (CaptureRule × Span) :=
  (site.captured g captures).takeWhile fun group => decide (group.2.first ≤ site.last)

section Groups

variable {s : LineScanner} {rescan : Rescan} {site : GroupSite}

/-- The scans of groups cover the groups and nothing behind them. -/
def GroupSite.Exact
    (s : LineScanner)
    (rescan : Rescan)
    (site : GroupSite)
    (captured : List (CaptureRule × Span)) : Prop :=
  ∀ r span, (r, span) ∈ captured → ∀ rule, r.retokenize = some rule → ∀ c d,
    (rescanGroup s rescan site r rule span c).outcome = .ok d → d.reached = max c.reached span.last

/-- Handling groups covers the open ones and those that are entered. -/
theorem reached_handleGroups_le_iff
    {captured : List (CaptureRule × Span)}
    (hexact : site.Exact s rescan captured)
    {groups : List OpenGroup}
    {c d : Coverage}
    {n : Nat}
    (hn : site.last ≤ n)
    (h : handleGroups s rescan site captured groups c = .ok d) :
    d.reached ≤ n ↔ (c.reached ≤ n ∧ ∀ o ∈ groups, o.last ≤ n) ∧
      ∀ group ∈ captured.takeWhile (fun group => decide (group.2.first ≤ site.last)),
        group.1.Covers → group.2.last ≤ n := by
  induction captured generalizing groups c with
  | nil =>
      obtain rfl := Except.ok.inj h
      simp [Coverage.reached_close_le_iff]
  | cons group rest ih =>
      obtain ⟨r, span⟩ := group
      have hrest : site.Exact s rescan rest :=
        fun r span hmem => hexact r span (List.mem_cons_of_mem _ hmem)
      unfold handleGroups at h
      split at h
      · rename_i hbehind
        obtain rfl := Except.ok.inj h
        rw [Coverage.reached_close_le_iff, List.takeWhile_cons_of_neg (by simpa using hbehind)]
        simp
      · rename_i hbehind
        have hfirst : span.first ≤ site.last := Nat.not_lt.mp hbehind
        have hupTo : (c.upTo site groups span.first).reached ≤ n ↔ c.reached ≤ n := by
          rw [Coverage.reached_upTo]
          omega
        rw [List.takeWhile_cons_of_pos (by simpa using hfirst), List.forall_mem_cons, ← hupTo,
          ← openAt_last_le_iff (hfirst.trans hn) groups]
        cases hretokenize : r.retokenize with
        | some rule =>
            rw [hretokenize] at h
            obtain ⟨e, hagain, h⟩ := exists_of_bind_eq_ok h
            have hreached := hexact r span List.mem_cons_self rule hretokenize _ _ hagain
            rw [ih hrest h, hreached, Nat.max_le]
            simp only [CaptureRule.Covers, hretokenize, Option.isSome_some, or_true, true_imp_iff]
            tauto
        | none =>
            rw [hretokenize] at h
            rw [ih hrest h, openedBy_last_le_iff]
            simp only [CaptureRule.Covers, hretokenize, Option.isSome_none, Bool.false_eq_true,
              or_false]
            tauto

/-- Groups that are not scanned again never fail. -/
theorem returns_of_forall_isNone
    {captures : List (Option RuleId)}
    (h : ∀ group ∈ site.captured s.grammar captures, group.1.retokenize.isNone = true) :
    Rescan.Returns s site captures rescan := by
  rintro text d ⟨hslot, hcapture, hrule, coverage⟩
  have hnone := h _ (List.mem_filterMap.mpr ⟨_, hslot, hcapture⟩)
  rw [hrule] at hnone
  cases hnone

theorem GroupSite.Sound.exact
    (he : s.grammar.engine.Lawful)
    (hsite : site.Sound)
    (nesting : Nat)
    (captures : List (Option RuleId)) :
    site.Exact s (rescanText s nesting) (site.captured s.grammar captures) := by
  intro r span hmem rule _ c d h
  obtain ⟨n, hn⟩ := exists_span?_of_mem_captured hmem
  obtain ⟨part, hpart, hpos⟩ := exists_slice?_of_within (hsite.groups n span hn)
  have hsize := Text.utf8ByteSize_of_slice? hpart
  simp only [rescanGroup, Reported.outcome_reportIf_bind, Text.slice, hpart,
    Option.getD_some] at h
  rw [rescanText_reached he hpos (hsite.state.push (Frame.lawful_entered _ _ _ _ _ _)) h, hsize]
  rfl

/-- A match and its groups are covered to the end of the match, or to the end of a group that is
entered if this lies behind it. So nothing behind the match is covered by its groups exactly if no
group that is entered ends there. -/
theorem reached_handleCaptures
    (he : s.grammar.engine.Lawful)
    (hsite : site.Sound)
    (nesting : Nat)
    (captures : List (Option RuleId))
    (scopes : ScopeList)
    (c : Coverage) :
    (Rescan.Returns s site captures (rescanText s nesting) →
      ∃ d, (handleCaptures s (rescanText s nesting) site captures c).outcome = .ok d) ∧
    ∀ d, (handleCaptures s (rescanText s nesting) site captures c).outcome = .ok d →
      (∀ n, (d.extend scopes site.last).reached ≤ n ↔
        max site.last c.reached ≤ n ∧
          ∀ group ∈ site.entered s.grammar captures, group.1.Covers → group.2.last ≤ n) ∧
      ((d.extend scopes site.last).reached = max site.last c.reached ↔
        ∀ group ∈ site.entered s.grammar captures, group.1.Covers →
          group.2.last ≤ max site.last c.reached) := by
  refine ⟨fun hreturns => exists_handleCaptures hreturns c, fun d h => ?_⟩
  rw [outcome_handleCaptures] at h
  have hreached : ∀ n, (d.extend scopes site.last).reached ≤ n ↔
      max site.last c.reached ≤ n ∧
        ∀ group ∈ site.entered s.grammar captures, group.1.Covers → group.2.last ≤ n := by
    intro n
    rw [Coverage.reached_extend, Nat.max_le, Nat.max_le]
    by_cases hn : site.last ≤ n
    · rw [reached_handleGroups_le_iff (hsite.exact he nesting captures) hn h]
      simp [GroupSite.entered, hn]
    · simp [hn]
  refine ⟨hreached, ?_⟩
  have hlower := ((hreached _).mp (Nat.le_refl _)).1
  have hupper := hreached (max site.last c.reached)
  simp only [Nat.le_refl, true_and] at hupper
  rw [← hupper]
  omega

end Groups

/-- A letter in front of another one, which a group in a lookahead names. -/
def lookahead (engine : Engine) : CompileRequest where
  sources := {
    library := .empty
    base := {
      scopeName := "source"
      patterns := [
        { matchPattern := some "a(?=(b))", captures := some [("1", { name := some "next" })] },
        { name := some "second", matchPattern := some "b" }] } }
  engine

/-- The match of the first letter. -/
def letterSite : GroupSite where
  text := "ab\n"
  firstLine := true
  state := .initial
  groups := [some ⟨0, 1⟩, some ⟨1, 2⟩]
  last := 1

theorem letterSite_sound :
    letterSite.Sound := by
  refine ⟨State.lawful_initial, fun n span h => ?_⟩
  match n with
  | 0 =>
      obtain rfl : ⟨0, 1⟩ = span := Option.some.inj h
      exact ⟨by decide, by decide, by decide⟩
  | 1 =>
      obtain rfl : ⟨1, 2⟩ = span := Option.some.inj h
      exact ⟨by decide, by decide, by decide⟩
  | n + 2 =>
      cases h

/-- The group in the lookahead is covered. -/
theorem reached_handleCaptures_letter :
    ∃ (g : Grammar) (captures : List (Option RuleId)) (d : Coverage),
      (Grammar.compile (lookahead literalEngine)).outcome = .ok g ∧
      g.engine.Lawful ∧
      Rescan.Returns (g.scanner .plain) letterSite captures (rescanText (g.scanner .plain) 0) ∧
      (handleCaptures (g.scanner .plain) (rescanText (g.scanner .plain) 0) letterSite captures
        .empty).outcome = .ok d ∧
      (d.extend .empty 1).reached = 2 ∧
      ∀ n, (d.extend .empty 1).reached ≤ n ↔
        1 ≤ n ∧ ∀ group ∈ letterSite.entered g captures, group.1.Covers → group.2.last ≤ n := by
  have hscan : (Grammar.compile (lookahead literalEngine)).outcome.bind (fun g =>
      (handleCaptures (g.scanner .plain) (rescanText (g.scanner .plain) 0) letterSite
        [none, some 2] .empty).outcome.map fun d =>
          ((letterSite.captured g [none, some 2]).all fun group => group.1.retokenize.isNone,
            (d.extend .empty 1).reached)) = .ok (true, 2) := by
    decide +kernel
  obtain ⟨g, hg, hscan⟩ := exists_of_bind_eq_ok hscan
  obtain ⟨d, hd, hvalues⟩ := exists_of_map_eq_ok hscan
  obtain ⟨hplain, hreached⟩ := Prod.mk.inj hvalues
  have he : (g.scanner .plain).grammar.engine.Lawful := by
    have hengine : g.engine = literalEngine := (Grammar.compile_eq_ok hg).1
    exact hengine ▸ literalEngine_lawful
  have hreturns : Rescan.Returns (g.scanner .plain) letterSite [none, some 2]
      (rescanText (g.scanner .plain) 0) :=
    returns_of_forall_isNone fun group hgroup => List.all_eq_true.mp hplain group hgroup
  have hall := reached_handleCaptures he letterSite_sound 0 [none, some 2] .empty .empty
  exact ⟨g, _, d, hg, he, hreturns, hd, hreached, (hall.2 d hd).1⟩

/-- The group in the lookahead is covered behind the match, so that the match of the second letter
has no text left. -/
theorem handleCaptures_of_lookahead :
    (regexEngine.compile ["a(?=(b))"]).map (fun scan => scan "ab\n" 0) =
      .ok (some ⟨0, letterSite.groups⟩) ∧
    (Grammar.compile (lookahead regexEngine)).outcome.bind (fun g =>
      (handleCaptures (g.scanner .plain) (rescanText (g.scanner .plain) 0) letterSite
        [none, some 2] .empty).outcome.map fun d => (d.extend .empty letterSite.last).reached) =
      .ok 2 ∧
    max letterSite.last Coverage.empty.reached = 1 ∧
    (Grammar.compile (lookahead regexEngine)).outcome.bind (fun g =>
      (g.tokenizeLine 0 .plain "ab" .initial none).outcome.map TokenizedLine.tokens) =
      .ok [⟨0, 1, ["source"]⟩, ⟨1, 2, ["source", "next"]⟩] := by
  decide +kernel

end LineScopes
