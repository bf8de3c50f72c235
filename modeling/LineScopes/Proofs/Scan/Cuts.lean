import LineScopes.Proofs.Scan.Upkeep

/-!
# Where a scan cuts its texts

A scan moves through its text by offsets and cuts the text at them: the rest that has not been
scanned, the text of a match, and the part up to the end of a group, which is scanned as a text of
its own. With a lawful engine all these offsets are boundaries in the right order, in every scan of
a line however deep it is nested, and no scan moves back.

**Main definitions.** `ScanPlace`, `ScanPlace.Handles`, `ScanPlace.Advances`, `ScanPlace.Comes`,
`ScanPlace.Cuts`.

**Main statements.** `Advances.sound`, `Comes.sound`: what holds at a place holds at the next one
and where a nested scan begins. `slices_in_range`: all cuts are in range.
-/

namespace LineScopes

open Relation (ReflTransGen)

/-- What a scan does next. -/
inductive Stage where
  /-- Rules that last line by line are left to be asked whether they go on. -/
  | asking (left : List (WhileRule × State))
  | scanning
  | over

/-- Where a scan of a text has got to, and what it does next. -/
structure ScanPlace where
  stage : Stage
  cursor : Cursor

namespace ScanPlace

/-- The match whose groups are handled at a place, with what they are given and their rules. -/
inductive Handles
    (s : LineScanner)
    (text : String) : ScanPlace → PatternMatch → GroupSite → List (Option RuleId) → Prop
  | continuation {r : WhileRule} {state : State} {left : List (WhileRule × State)} {c : Cursor}
    {m : PatternMatch}
    (hfound : (s.grammar.setOnward state.top).findAt (c.point text) = .ok (some m))
    (hlabel : m.label = .continuing) :
    Handles s text ⟨.asking ((r, state) :: left), c⟩ m (c.site text m state) r.continuingCaptures
  | next {c : Cursor} {m : PatternMatch} {k : Handling}
    (hnext : (nextMatch s.grammar ((c.kept s.grammar).point text)
      (c.kept s.grammar).state.top).outcome = .ok (some m))
    (hk : (c.kept s.grammar).handling s text m = some k) :
    Handles s text ⟨.scanning, c⟩ m ((c.kept s.grammar).site text m k.state) k.captures

/-- A scan gets from one place to the next. Scans of groups may leave any coverage. -/
inductive Advances
    (s : LineScanner)
    (text : String) : ScanPlace → ScanPlace → Prop
  /-- A rule goes on. -/
  | continues {r : WhileRule} {state : State} {left : List (WhileRule × State)} {c d : Cursor}
    {m : PatternMatch} {rescan : Rescan}
    (hfound : (s.grammar.setOnward state.top).findAt (c.point text) = .ok (some m))
    (hlabel : m.label = .continuing)
    (hd : (handleContinuation s rescan text c r state m).outcome = .ok d) :
    Advances s text ⟨.asking ((r, state) :: left), c⟩ ⟨.asking left, d⟩
  /-- A rule does not go on, and is left with all that is above it. -/
  | leaves {r : WhileRule} {state : State} {left : List (WhileRule × State)} {c : Cursor}
    {found : Option PatternMatch}
    (hfound : (s.grammar.setOnward state.top).findAt (c.point text) = .ok found)
    (hleft : ∀ m, found = some m → m.label ≠ .continuing) :
    Advances s text ⟨.asking ((r, state) :: left), c⟩ ⟨.scanning, { c with state := state.pop }⟩
  | asked {c : Cursor} : Advances s text ⟨.asking [], c⟩ ⟨.scanning, c⟩
  | onward {c d : Cursor} {rescan : Rescan}
    (h : (step s rescan text c).outcome = .ok (.onward d)) :
    Advances s text ⟨.scanning, c⟩ ⟨.scanning, d⟩
  | finished {c d : Cursor} {rescan : Rescan}
    (h : (step s rescan text c).outcome = .ok (.finished d)) :
    Advances s text ⟨.scanning, c⟩ ⟨.over, d⟩

/-- The places that the scans of a line come to, each with its text: the scan of the line itself,
and those of the groups of all matches that are handled. -/
inductive Comes
    (s : LineScanner)
    (previous : State)
    (line : String) : String → ScanPlace → Prop
  | line :
    Comes s previous line (line ++ "\n")
      ⟨.asking (s.grammar.conditions (startState s previous)),
        .atStart s.grammar previous.isInitial (startState s previous) .empty⟩
  | advance {text : String} {p q : ScanPlace} (hp : Comes s previous line text p)
    (h : Advances s text p q) : Comes s previous line text q
  | group {text : String} {p : ScanPlace} (hp : Comes s previous line text p) {m : PatternMatch}
    {site : GroupSite} {captures : List (Option RuleId)} (hm : Handles s text p m site captures)
    {inner : String} {d : Cursor} (hd : site.Begins s captures inner d) :
    Comes s previous line inner ⟨.scanning, d⟩

/-- The parts of its text that a scan cuts out at a place. -/
inductive Cuts
    (s : LineScanner)
    (text : String) : ScanPlace → Span → Prop
  /-- The rest of the text; when a match must not be handled again, its first character is skipped.
  -/
  | rest {c : Cursor} : Cuts s text ⟨.scanning, c⟩ ⟨c.pos, text.utf8ByteSize⟩
  | found {c : Cursor} {m : PatternMatch}
    (hnext : (nextMatch s.grammar ((c.kept s.grammar).point text)
      (c.kept s.grammar).state.top).outcome = .ok (some m)) :
    Cuts s text ⟨.scanning, c⟩ ⟨m.first, m.last⟩
  /-- The text up to the end of a group that is scanned again. -/
  | group {p : ScanPlace} {m : PatternMatch} {site : GroupSite}
    {captures : List (Option RuleId)} (hm : Handles s text p m site captures)
    {slot : Option RuleId} {found : Option Span} {r : CaptureRule} {rule : RuleId} {span : Span}
    (hslot : (slot, found) ∈ site.slots captures)
    (hcapture : captureOf? s.grammar slot found = some (r, span))
    (hrule : r.retokenize = some rule) :
    Cuts s text p ⟨0, span.last⟩

/-- What holds at every place of a scan: it is a boundary, and the patterns kept in all frames are
lawful. -/
structure Sound
    (text : String)
    (p : ScanPlace) : Prop where
  cursor : p.cursor.Sound text
  left : ∀ left, p.stage = .asking left → ∀ r state, (r, state) ∈ left → state.Lawful

end ScanPlace

/-- A scan that is over stays where it was. -/
theorem pos_of_finished
    {s : LineScanner}
    {rescan : Rescan}
    {text : String}
    {c d : Cursor}
    (h : (step s rescan text c).outcome = .ok (.finished d)) :
    d.pos = c.pos := by
  rcases step_eq_ok h with heq | ⟨m, k, coverage, -, -, -, heq⟩
  · obtain rfl := Progress.finished.inj heq
    rfl
  · unfold Cursor.resume at heq
    split at heq
    · cases heq
    · dsimp only at heq
      split at heq
      · obtain rfl := Progress.finished.inj heq
        rfl
      · cases heq

namespace ScanPlace

section Sound

variable {s : LineScanner} {text : String} {p q : ScanPlace}
variable (he : s.grammar.engine.Lawful)
include he

/-- The groups that are handled lie in the text. -/
theorem Handles.sound
    (hp : p.Sound text)
    {m : PatternMatch}
    {site : GroupSite}
    {captures : List (Option RuleId)}
    (h : Handles s text p m site captures) :
    site.Sound ∧ site.text = text := by
  cases h with
  | @continuation r state left c m hfound hlabel =>
      have hstate := hp.left _ rfl r state List.mem_cons_self
      have hset := Grammar.lawful_setOnward he hstate.top
      have hm : m.Within text c.pos := hset.find_within hp.cursor.pos hfound
      exact ⟨⟨hstate, hm.groups⟩, rfl⟩
  | @next c m k hnext hk =>
      have hkept := hp.cursor.kept he
      have hm : m.Within text c.pos := nextMatch_within he hkept.state.top hkept.pos hnext
      obtain ⟨hstate, -, -⟩ := Cursor.handling_all (lasting_lawful he) hkept.state hk
      exact ⟨⟨hstate, hm.groups⟩, rfl⟩

/-- The scan of a group begins at a boundary of a part of the text. -/
theorem sound_of_begins
    {site : GroupSite}
    (hsite : site.Sound)
    {captures : List (Option RuleId)}
    {inner : String}
    {d : Cursor}
    (h : site.Begins s captures inner d) :
    ScanPlace.Sound inner ⟨.scanning, d⟩ := by
  refine ⟨⟨?_, h.all (lasting_lawful he) hsite.state⟩, nofun⟩
  cases h with
  | group hslot hcapture hrule coverage =>
      obtain rfl := captureOf?_eq_some hcapture
      obtain ⟨part, hpart, hpos⟩ := exists_slice?_of_within (hsite.within hslot)
      rw [Text.slice, hpart]
      exact hpos

/-- A scan stays at boundaries and does not move back. -/
theorem Advances.sound
    (hp : p.Sound text)
    (h : Advances s text p q) :
    q.Sound text ∧ p.cursor.pos ≤ q.cursor.pos := by
  cases h with
  | @continues r state left c d m rescan hfound hlabel hd =>
      have hstate := hp.left _ rfl r state List.mem_cons_self
      have hset := Grammar.lawful_setOnward he hstate.top
      have hm : m.Within text c.pos := hset.find_within hp.cursor.pos hfound
      have hle := Nat.le_trans hm.pos_le_first hm.first_le_last
      obtain ⟨hpos, -, -⟩ := handleContinuation_place hle hd
      refine ⟨⟨⟨?_, ?_⟩, ?_⟩, ?_⟩
      · rw [hpos]
        exact hm.boundary_last
      · rw [state_handleContinuation hd]
        exact hp.cursor.state
      · rintro _ ⟨⟩ r' state' hmem
        exact hp.left _ rfl r' state' (List.mem_cons_of_mem _ hmem)
      · rw [hpos]
        exact hle
  | @leaves r state left c found hfound hleft =>
      have hstate := hp.left _ rfl r state List.mem_cons_self
      exact ⟨⟨⟨hp.cursor.pos, hstate.pop⟩, nofun⟩, Nat.le_refl _⟩
  | asked =>
      exact ⟨⟨hp.cursor, nofun⟩, Nat.le_refl _⟩
  | onward h =>
      obtain ⟨hsound, hle⟩ := step_sound he hp.cursor h
      exact ⟨⟨hsound, nofun⟩, hle⟩
  | @finished c d rescan h =>
      obtain ⟨hstate, -⟩ := step_sound he hp.cursor h
      have hpos : d.pos = c.pos := pos_of_finished h
      exact ⟨⟨⟨hpos ▸ hp.cursor.pos, hstate⟩, nofun⟩, Nat.le_of_eq hpos.symm⟩

theorem Comes.sound
    {previous : State}
    (hprevious : previous.Lawful)
    {line : String}
    (h : Comes s previous line text p) :
    p.Sound text := by
  have hlasting := lasting_lawful he
  induction h with
  | line =>
      have hkept := keepContinuations_all hlasting (startState_all hlasting fun _ => hprevious)
      refine ⟨⟨Text.isBoundary_zero _, hkept⟩, ?_⟩
      rintro _ ⟨⟩ r state hmem
      exact linesFrames_all hkept hmem
  | advance _ h ih =>
      exact (h.sound he ih).1
  | group _ hm hd ih =>
      exact sound_of_begins he (hm.sound he ih).1 hd

/-- What a scan cuts out at a place is a part of its text. -/
theorem Cuts.within
    (hp : p.Sound text)
    {span : Span}
    (h : Cuts s text p span) :
    span.Within text := by
  cases h with
  | rest =>
      exact ⟨hp.cursor.pos, Text.isBoundary_utf8ByteSize text, hp.cursor.pos.le_utf8ByteSize⟩
  | @found c m hnext =>
      have hkept := hp.cursor.kept he
      have hm : m.Within text c.pos := nextMatch_within he hkept.state.top hkept.pos hnext
      exact ⟨hm.boundary_first, hm.boundary_last, hm.first_le_last⟩
  | group hm hslot hcapture hrule =>
      obtain ⟨hsite, rfl⟩ := hm.sound he hp
      obtain rfl := captureOf?_eq_some hcapture
      have hspan := hsite.within hslot
      exact ⟨Text.isBoundary_zero _, hspan.2.1, Nat.zero_le _⟩

/-- From a place to any later one of the same scan. -/
theorem pos_le_of_advances
    (hp : p.Sound text)
    (h : ReflTransGen (Advances s text) p q) :
    q.Sound text ∧ p.cursor.pos ≤ q.cursor.pos := by
  induction h with
  | refl =>
      exact ⟨hp, Nat.le_refl _⟩
  | tail _ hstep ih =>
      obtain ⟨hsound, hle⟩ := hstep.sound he ih.1
      exact ⟨hsound, Nat.le_trans ih.2 hle⟩

end Sound

section Runs

variable {s : LineScanner} {rescan : Rescan} {text : String}

/-- The rules that are asked at the start of a line lead from place to place. -/
theorem advances_of_continueRules
    {rules : List (WhileRule × State)}
    {c d : Cursor}
    (h : (continueRules s rescan text rules c).outcome = .ok d) :
    ReflTransGen (Advances s text) ⟨.asking rules, c⟩ ⟨.scanning, d⟩ := by
  induction rules generalizing c with
  | nil =>
      obtain rfl : c = d := by simpa [continueRules] using h
      exact .single .asked
  | cons rule rest ih =>
      obtain ⟨r, state⟩ := rule
      simp only [continueRules, Reported.outcome_bind_eq_ok, Reported.outcome_liftM] at h
      obtain ⟨found, hfound, h⟩ := h
      cases found with
      | none =>
          simp only [Reported.outcome_reportIf_bind, Reported.outcome_pure, Except.ok.injEq] at h
          subst h
          exact .single (.leaves hfound (by simp))
      | some m =>
          dsimp only at h
          split at h
          · rename_i hlabel
            simp only [Reported.outcome_bind_eq_ok] at h
            obtain ⟨next, hnext, h⟩ := h
            exact .head (.continues hfound hlabel hnext) (ih h)
          · rename_i hlabel
            simp only [Reported.outcome_reportIf_bind, Reported.outcome_pure,
              Except.ok.injEq] at h
            subst h
            refine .single (.leaves hfound fun m' heq => ?_)
            cases heq
            exact hlabel

/-- A run leads from place to place. -/
theorem advances_of_run
    {bound : Nat}
    {limit : TimeLimit}
    {c : Cursor}
    {newest : List Entry}
    {e : ScanEnd}
    (h : (run s rescan text bound limit c newest).outcome = .ok e) :
    ∃ stage, ReflTransGen (Advances s text) ⟨.scanning, c⟩ ⟨stage, e.cursor⟩ := by
  induction bound generalizing limit c newest with
  | zero =>
      simp [run] at h
  | succ bound ih =>
      rcases run_succ_eq_ok h with ⟨-, rfl⟩ | ⟨p, hstep, hp⟩
      · exact ⟨_, .refl⟩
      · rcases hp with ⟨rfl, -⟩ | ⟨d, rfl, hrun⟩
        · exact ⟨_, .single (.finished hstep)⟩
        · obtain ⟨stage, hrest⟩ := ih hrun
          exact ⟨stage, .head (.onward hstep) hrest⟩

theorem Comes.trans
    {previous : State}
    {line : String}
    {p q : ScanPlace}
    (hp : Comes s previous line text p)
    (h : ReflTransGen (Advances s text) p q) :
    Comes s previous line text q := by
  induction h with
  | refl =>
      exact hp
  | tail _ hstep ih =>
      exact ih.advance hstep

/-- The scan of a line ends at one of the places it comes to. -/
theorem exists_comes_of_scanLine
    {nesting : Nat}
    {line : String}
    {previous : State}
    {limit : TimeLimit}
    {l : ScannedLine}
    (h : (scanLine s nesting line previous limit).outcome = .ok l) :
    l.size = (line ++ "\n").utf8ByteSize ∧ ∃ p, Comes s previous line (line ++ "\n") p ∧
      p.cursor.state = l.state ∧ p.cursor.coverage = l.coverage := by
  simp only [scanLine, scanText, Reported.outcome_bind_eq_ok] at h
  obtain ⟨e, ⟨c, hstart, hrun⟩, h⟩ := h
  simp only [Reported.outcome_pure, Except.ok.injEq] at h
  subst h
  obtain ⟨stage, hend⟩ := advances_of_run hrun
  have hasked := advances_of_continueRules hstart
  exact ⟨rfl, ⟨stage, e.cursor⟩, Comes.line.trans (hasked.trans hend), rfl, rfl⟩

end Runs

end ScanPlace

/-- With a lawful engine no scan of a line, nested ones included, cuts a text where it cannot be
cut. It stands at a boundary of its text at every place and does not move back, whatever it cuts out
there is a part of its text, and a scanned line is not empty, as its newline counts. -/
theorem slices_in_range
    {s : LineScanner}
    (he : s.grammar.engine.Lawful)
    {previous : State}
    (hprevious : previous.Lawful)
    (line : String) :
    (∀ text p, ScanPlace.Comes s previous line text p →
      (Text.IsBoundary text p.cursor.pos ∧ p.cursor.pos ≤ text.utf8ByteSize) ∧
        (∀ q, ReflTransGen (ScanPlace.Advances s text) p q → p.cursor.pos ≤ q.cursor.pos) ∧
        ∀ span, ScanPlace.Cuts s text p span →
          ∃ part, Text.slice? text span.first span.last = some part) ∧
      ∀ nesting limit l, (scanLine s nesting line previous limit).outcome = .ok l →
        1 ≤ l.size ∧ ∃ p, ScanPlace.Comes s previous line (line ++ "\n") p ∧
          p.cursor.state = l.state ∧ p.cursor.coverage = l.coverage := by
  refine ⟨fun text p hp => ?_, fun nesting limit l hl => ?_⟩
  · have hsound := hp.sound he hprevious
    refine ⟨⟨hsound.cursor.pos, hsound.cursor.pos.le_utf8ByteSize⟩, fun q hq => ?_,
      fun span hspan => ?_⟩
    · exact (ScanPlace.pos_le_of_advances he hsound hq).2
    · exact (hspan.within he hsound).exists_slice?
  · obtain ⟨hsize, hend⟩ := ScanPlace.exists_comes_of_scanLine hl
    refine ⟨?_, hend⟩
    rw [hsize, String.utf8ByteSize_append]
    exact Nat.le_add_left 1 _

/-- Words that are scanned again for accents. -/
def words : Grammar :=
  Literal.grammar #[
    .group ⟨none, none, [1], false⟩,
    .simple ⟨some ⟨"word"⟩, ⟨"née"⟩, [some 2]⟩,
    .capture ⟨none, none, some 3⟩,
    .group ⟨none, none, [4], false⟩,
    .simple ⟨some ⟨"accent"⟩, ⟨"é"⟩, []⟩]

/-- The word is scanned again in the text up to its end, from its start on, where the rest is cut
out and then the accent. -/
theorem slices_in_range_words :
    words.engine.Lawful ∧ State.initial.Lawful ∧
      ∃ d, ScanPlace.Comes (words.scanner .plain) .initial "une née," "une née" ⟨.scanning, d⟩ ∧
        d.pos = 4 ∧ (∃ part, Text.slice? "une née" 4 8 = some part) ∧
        ∃ part, Text.slice? "une née" 5 7 = some part := by
  let s := words.scanner .plain
  let c : Cursor := .atStart words true (startState s .initial) .empty
  let text := "une née," ++ "\n"
  let m : PatternMatch := ⟨.rule 1, 4, 8, [some ⟨4, 8⟩]⟩
  let k := (c.kept words).passing s text m 1 (.simple ⟨some ⟨"word"⟩, ⟨"née"⟩, [some 2]⟩)
  let r : CaptureRule := ⟨none, none, some 3⟩
  let d := ((c.kept words).site text m k.state).inner s r 3 ⟨4, 8⟩ .empty
  have hnone : words.conditions (startState s .initial) = [] :=
    List.isEmpty_iff.mp (by decide +kernel)
  have hstart : ScanPlace.Comes s .initial "une née," text ⟨.scanning, c⟩ := by
    have hline : ScanPlace.Comes s .initial "une née," text ⟨.asking _, c⟩ := .line
    rw [show s.grammar.conditions (startState s .initial) = [] from hnone] at hline
    exact hline.advance .asked
  have hnext : (nextMatch words ((c.kept words).point text) (c.kept words).state.top).outcome =
      .ok (some m) := by
    decide +kernel
  have hinner : ScanPlace.Comes s .initial "une née," "une née" ⟨.scanning, d⟩ := by
    have hpart : Text.slice text 0 8 = "une née" := by
      decide +kernel
    have hcapture : captureOf? words (some 2) (some ⟨4, 8⟩) = some (r, ⟨4, 8⟩) :=
      rfl
    have hbegins : ((c.kept words).site text m k.state).Begins s [some 2] (Text.slice text 0 8) d :=
      @GroupSite.Begins.group s ((c.kept words).site text m k.state) [some 2] (some 2) _ r 3 ⟨4, 8⟩
        List.mem_cons_self hcapture rfl .empty
    exact hstart.group (.next hnext rfl) (hpart ▸ hbegins)
  have hfound : (nextMatch words ((d.kept words).point "une née")
      (d.kept words).state.top).outcome = .ok (some ⟨.rule 4, 5, 7, [some ⟨5, 7⟩]⟩) := by
    decide +kernel
  obtain ⟨hplaces, -⟩ :=
    slices_in_range (s := s) literalEngine_lawful State.lawful_initial "une née,"
  obtain ⟨-, -, hcuts⟩ := hplaces _ _ hinner
  exact ⟨literalEngine_lawful, State.lawful_initial, d, hinner, rfl, hcuts _ .rest,
    hcuts _ (.found hfound)⟩

end LineScopes
