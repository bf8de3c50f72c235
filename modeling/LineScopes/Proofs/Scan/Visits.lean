import LineScopes.Proofs.Scan.Erasure
import LineScopes.Proofs.Token.Stacks

/-!
# The places that a scan comes through

The scan of a line begins where the rules that last line by line have left it and goes on step by
step. The text of a group is scanned again in a scan of its own, with the frame of its rule on top of
the stack. What lasts on the stack, and how it is stacked, holds at every place of all these scans.

**Main definitions.** `GroupSite.Begins`, `Visits`.

**Main statements.** `Visits.stacked`, `Visits.tidy`: the stack at every place.
-/

namespace LineScopes

namespace GroupSite

/-- Where the scan of a group begins: at its start, with the frame of its rule on top. -/
def inner
    (s : LineScanner)
    (site : GroupSite)
    (r : CaptureRule)
    (rule : RuleId)
    (span : Span)
    (coverage : Coverage) : Cursor :=
  let nameScopes :=
    s.pushTemplate site.state.top.contentScopes r.name site.text site.groups
  let contentScopes := s.pushTemplate nameScopes r.contentName site.text site.groups
  { firstLine := site.firstLine && span.first == 0
    pos := span.first
    anchor := none
    state := site.state.push
      (.entered rule (some span.first) none false nameScopes contentScopes)
    coverage }

/-- The scans of the groups of a match begin in the text up to the end of the group. -/
inductive Begins
    (s : LineScanner)
    (site : GroupSite)
    (captures : List (Option RuleId)) : String → Cursor → Prop
  | group {slot : Option RuleId} {found : Option Span} {r : CaptureRule} {rule : RuleId}
    {span : Span}
    (hslot : (slot, found) ∈ site.slots captures)
    (hcapture : captureOf? s.grammar slot found = some (r, span))
    (hrule : r.retokenize = some rule)
    (coverage : Coverage) :
    Begins s site captures (Text.slice site.text 0 span.last)
      (site.inner s r rule span coverage)

end GroupSite

section Groups

variable {s : LineScanner} {site : GroupSite}

theorem outcome_rescanGroup
    (rescan : Rescan)
    (r : CaptureRule)
    (rule : RuleId)
    (span : Span)
    (c : Coverage) :
    (rescanGroup s rescan site r rule span c).outcome =
      (rescan (Text.slice site.text 0 span.last) (site.inner s r rule span c).firstLine
        (site.inner s r rule span c).pos (site.inner s r rule span c).state
        (site.inner s r rule span c).coverage).outcome := by
  simp only [rescanGroup, Reported.outcome_reportIf_bind]
  rfl

end Groups

/-- The places that the scans of a document come through, each with the text that is scanned and
whether that is a whole line. -/
inductive Visits (s : LineScanner) : Bool → String → Cursor → Prop
  /-- The scan of a line begins. -/
  | line {previous : State} (hprevious : Between s.grammar previous) {rescan : Rescan}
    {line : String} {c : Cursor}
    (h : (startLine s rescan (line ++ "\n") previous.isInitial (startState s previous)
      .empty).outcome = .ok c) :
    Visits s true (line ++ "\n") c
  /-- A scan goes on. -/
  | onward {whole : Bool} {text : String} {c d : Cursor} (hc : Visits s whole text c)
    {rescan : Rescan} (h : (step s rescan text c).outcome = .ok (.onward d)) :
    Visits s whole text d
  /-- A group of a match is scanned again. -/
  | group {whole : Bool} {text : String} {c : Cursor} (hc : Visits s whole text c)
    {m : PatternMatch} {k : Handling}
    (hnext : (nextMatch s.grammar ((c.kept s.grammar).point text)
      (c.kept s.grammar).state.top).outcome = .ok (some m))
    (hk : (c.kept s.grammar).handling s text m = some k)
    {inner : String} {d : Cursor}
    (hd : ((c.kept s.grammar).site text m k.state).Begins s k.captures inner d) :
    Visits s false inner d
  /-- A group of the match with which a rule goes on at the start of a line is scanned again. -/
  | continued {previous : State} (hprevious : Between s.grammar previous)
    {r : WhileRule} {site : GroupSite}
    (hr : (r, site.state) ∈ linesFrames s.grammar (keepContinuations s.grammar
      (startState s previous)))
    {inner : String} {d : Cursor} (hd : site.Begins s r.continuingCaptures inner d) :
    Visits s false inner d

/-- The patterns kept in the frames between lines are their own. -/
theorem Between.tidy
    {g : Grammar}
    {s : State}
    (h : Between g s) :
    s.isInitial = false → s.All (Frame.Tidy g) := by
  induction h with
  | initial =>
      intro hlater
      cases hlater
  | @line s hs nesting theme line limit l h ih =>
      intro _
      rw [Grammar.outcome_tokenizeLine] at h
      obtain ⟨scanned, hscan, rfl⟩ := exists_of_map_eq_ok h
      exact scanLine_all (s := g.scanner theme) (lasting_tidy g) ih hscan

namespace GroupSite.Begins

variable {s : LineScanner} {site : GroupSite} {captures : List (Option RuleId)}
variable {text : String} {c : Cursor}

theorem stacked
    (h : site.Begins s captures text c)
    {root : ScopeList}
    (hsite : site.state.Stacked s.grammar false root) :
    c.state.Stacked s.grammar false root := by
  cases h with
  | group hslot hcapture hrule coverage =>
      exact hsite.push ⟨ScopeList.extends_pushTemplate _ _ _ _ _,
        ScopeList.extends_pushTemplate _ _ _ _ _⟩ nofun

theorem all
    (h : site.Begins s captures text c)
    {P : Frame → Prop}
    (hP : Frame.Lasting s.grammar P)
    (hsite : site.state.All P) :
    c.state.All P := by
  cases h with
  | group hslot hcapture hrule coverage =>
      exact hsite.push (hP.entered _ _ _ _ _ _)

end GroupSite.Begins

namespace Visits

variable {s : LineScanner} {whole : Bool} {text : String} {c : Cursor}

/-- At every place of a scan the frames are stacked on a root frame. -/
theorem stacked
    (h : Visits s whole text c) :
    ∃ root, c.state.Stacked s.grammar whole root := by
  induction h with
  | line hprevious hstart =>
      obtain ⟨root, hroot⟩ := startState_stacked hprevious.stacked
      exact ⟨root, startLine_stacked hroot hstart⟩
  | onward hc hstep ih =>
      obtain ⟨root, hroot⟩ := ih
      exact ⟨root, step_stacked hroot hstep⟩
  | group hc hnext hk hd ih =>
      obtain ⟨root, hroot⟩ := ih
      have hhandling := Cursor.handling_stacked (Cursor.kept_stacked hroot) hk
      exact ⟨root, hd.stacked hhandling.state⟩
  | continued hprevious hr hd =>
      obtain ⟨root, hroot⟩ := startState_stacked hprevious.stacked
      have hsite := hroot.keepContinuations.of_mem_suffixes (mem_suffixes_of_linesFrames hr)
      exact ⟨root, hd.stacked hsite.weaken⟩

/-- At every place of a scan the patterns kept in frames are their own. -/
theorem tidy
    (h : Visits s whole text c) :
    c.state.All (Frame.Tidy s.grammar) := by
  have hlasting := lasting_tidy s.grammar
  induction h with
  | line hprevious hstart =>
      exact startLine_all hlasting (startState_all hlasting hprevious.tidy) hstart
  | onward hc hstep ih =>
      exact step_all hlasting ih hstep
  | group hc hnext hk hd ih =>
      have hhandling := Cursor.handling_all hlasting (Cursor.kept_all hlasting ih) hk
      exact hd.all hlasting hhandling.state
  | continued hprevious hr hd =>
      have hkept := keepContinuations_all hlasting (startState_all hlasting hprevious.tidy)
      exact hd.all hlasting (linesFrames_all hkept hr)

end Visits

end LineScopes
