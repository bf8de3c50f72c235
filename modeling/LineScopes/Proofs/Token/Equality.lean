import LineScopes.Proofs.Scan.Lockstep
import LineScopes.Proofs.Scan.StackLaws
import LineScopes.Proofs.Token.Partition

/-!
# Equal states

Two states are compared to see whether the next line would be tokenized in the same way. The
comparison looks at the rules and end patterns of all frames and at the content scopes of the frame
on top. It leaves out the other scopes, and whether the match that opened the rule on top included
the end of its line. If these agree as well, equal states do tokenize the next line in the same
way, and the states after it are equal again; if they do not, equal states can tokenize it
differently.

**Main definitions.** `Returned`, `State.SameScopes`, `State.SameEnds`.

**Main statements.** `tokenizeLine_of_equals`: the next line. `tokenizeLines_of_equals`: all lines
to come. `equals_overlooks`: each of the conditions is needed.
-/

namespace LineScopes

/-- The states that a grammar leaves after the lines of a document, however deep scans are nested in
them. -/
inductive Returned
    (g : Grammar)
    (theme : Theme) : State → Prop
  | first {nesting : Nat} {line : String} {limit : TimeLimit} {l : TokenizedLine}
    (h : (g.tokenizeLine nesting theme line .initial limit).outcome = .ok l) :
    Returned g theme l.state
  | next {s : State} (hs : Returned g theme s) {nesting : Nat} {line : String} {limit : TimeLimit}
    {l : TokenizedLine} (h : (g.tokenizeLine nesting theme line s limit).outcome = .ok l) :
    Returned g theme l.state

namespace State

/-- The frames of two states have the same scopes. -/
def SameScopes (s t : State) : Prop :=
  s.frames.map (fun f => (f.nameScopes, f.contentScopes)) =
    t.frames.map (fun f => (f.nameScopes, f.contentScopes))

/-- The matches that opened the rules of two states agree about the ends of their lines. -/
def SameEnds (s t : State) : Prop :=
  s.frames.map Frame.reachesEnd = t.frames.map Frame.reachesEnd

instance (s t : State) : Decidable (s.SameScopes t) :=
  inferInstanceAs (Decidable (_ = _))

instance (s t : State) : Decidable (s.SameEnds t) :=
  inferInstanceAs (Decidable (_ = _))

theorem sameRules_map_bare
    (keep : Bool)
    (fs gs : List Frame) :
    sameRules (fs.map (Frame.bare keep)) (gs.map (Frame.bare keep)) = sameRules fs gs := by
  rw [Bool.eq_iff_iff, sameRules_iff, sameRules_iff, List.map_map, List.map_map]
  rfl

/-- Frames of lines that agree about rules, end patterns and scopes are the same when bare. -/
theorem map_bare_of_sameRules
    {g : Grammar}
    {keep : Bool}
    {fs gs : List Frame}
    (hrules : sameRules fs gs = true)
    (hscopes : fs.map (fun f => (f.nameScopes, f.contentScopes)) =
      gs.map (fun f => (f.nameScopes, f.contentScopes)))
    (hends : keep = true → fs.map Frame.reachesEnd = gs.map Frame.reachesEnd)
    (hfs : ∀ f ∈ fs, f.Tidy g)
    (hgs : ∀ f ∈ gs, f.Tidy g) :
    fs.map (fun f => f.reset.bare keep) = gs.map (fun f => f.reset.bare keep) := by
  induction fs generalizing gs with
  | nil =>
      cases gs with
      | nil =>
          rfl
      | cons h gs =>
          cases hrules
  | cons f fs ih =>
      cases gs with
      | nil =>
          cases hrules
      | cons h gs =>
          obtain ⟨hfirst, hrest⟩ := (Bool.and_eq_true _ _).mp hrules
          obtain ⟨hrule, hclosing⟩ : f.rule = h.rule ∧ f.closing = h.closing := by
            simpa [Frame.sameRule] using hfirst
          obtain ⟨hpair, hscopes⟩ := List.cons.inj hscopes
          obtain ⟨hname, hcontent⟩ := Prod.mk.inj hpair
          have hend : (keep && f.reachesEnd) = (keep && h.reachesEnd) := by
            cases keep with
            | false =>
                rfl
            | true =>
                exact (List.cons.inj (hends rfl)).1
          have htouched : f.untouched = h.untouched := by
            rw [(hfs f List.mem_cons_self).touched, (hgs h List.mem_cons_self).touched]
          have hbare : f.reset.bare keep = h.reset.bare keep := by
            simp only [Frame.bare, Frame.reset, hrule, hclosing, hname, hcontent, hend, htouched]
          have htail := ih hrest hscopes (fun hkeep => (List.cons.inj (hends hkeep)).2)
            (fun f hf => hfs f (List.mem_cons_of_mem _ hf))
            (fun f hf => hgs f (List.mem_cons_of_mem _ hf))
          rw [List.map_cons, List.map_cons, hbare, htail]

/-- Equal states with the same scopes are alike at the start of a line. -/
theorem Alike.of_equals
    {g : Grammar}
    (keep : Bool)
    {s t : State}
    (hs : s.All (Frame.Tidy g))
    (ht : t.All (Frame.Tidy g))
    (h : s.equals t = true)
    (hscopes : s.SameScopes t)
    (hends : keep = true → s.SameEnds t) :
    s.reset.Alike g keep t.reset := by
  obtain ⟨hrules, -⟩ := (Bool.and_eq_true _ _).mp h
  have hframes := map_bare_of_sameRules hrules hscopes hends hs ht
  obtain ⟨htop, hbelow⟩ := List.cons.inj hframes
  have hlasting := lasting_tidy g
  refine ⟨hs.reset hlasting, ht.reset hlasting, ?_⟩
  simpa [State.bare, State.reset, Function.comp_def] using ⟨htop, hbelow⟩

theorem Alike.reset
    {g : Grammar}
    {keep : Bool}
    {s t : State}
    (h : s.Alike g keep t) :
    s.reset.Alike g keep t.reset :=
  have hlasting := lasting_tidy g
  ⟨h.left.reset hlasting, h.right.reset hlasting, by rw [bare_reset, bare_reset, h.bare]⟩

namespace Alike

variable {g : Grammar} {keep : Bool} {s t : State}

theorem equals
    (h : s.Alike g keep t) :
    s.equals t = true := by
  have hrules : sameRules s.frames t.frames = true := by
    rw [← sameRules_map_bare keep, ← frames_bare, ← frames_bare, h.bare]
    exact sameRules_iff.mpr rfl
  simp [State.equals, hrules, h.contentScopes]

theorem sameScopes
    (h : s.Alike g keep t) :
    s.SameScopes t := by
  have hframes := congrArg State.frames h.bare
  have hmap := congrArg (List.map fun f => (f.nameScopes, f.contentScopes)) hframes
  simpa [SameScopes, Function.comp_def] using hmap

theorem sameEnds
    (h : s.Alike g true t) :
    s.SameEnds t := by
  have hframes := congrArg State.frames h.bare
  have hmap := congrArg (List.map Frame.reachesEnd) hframes
  simpa [SameEnds, Function.comp_def] using hmap

end Alike

end State

/-- All patterns kept in a state that is returned are its own. -/
theorem Returned.tidy
    {g : Grammar}
    {theme : Theme}
    {s : State}
    (h : Returned g theme s) :
    s.All (Frame.Tidy g) := by
  have hline : ∀ {nesting line previous limit} {l : TokenizedLine},
      (g.tokenizeLine nesting theme line previous limit).outcome = .ok l →
      (previous.isInitial = false → previous.All (Frame.Tidy g)) → l.state.All (Frame.Tidy g) := by
    intro nesting line previous limit l h hprevious
    rw [Grammar.outcome_tokenizeLine] at h
    obtain ⟨scanned, hscan, rfl⟩ := exists_of_map_eq_ok h
    exact scanLine_all (s := g.scanner theme) (lasting_tidy g) hprevious hscan
  induction h with
  | first h =>
      exact hline h fun hlater => by cases hlater
  | next _ h ih =>
      exact hline h fun _ => ih

/-- The same tokens, with states to go on with that are equal again and have the same scopes again.
-/
structure TokenizedLine.Same (l l' : TokenizedLine) : Prop where
  tokens : l.tokens = l'.tokens
  stopped : l.stopped = l'.stopped
  equals : l.state.equals l'.state = true
  scopes : l.state.SameScopes l'.state

namespace Grammar

variable {g : Grammar} {theme : Theme}

/-- From states that are alike, a line gets the same tokens and leaves states that are alike. -/
theorem tokenizeLine_alike
    {keep : Bool}
    {s t : State}
    (h : s.reset.Alike g keep t.reset)
    (hend : s.top.reachesEnd = t.top.reachesEnd)
    (nesting : Nat)
    (line : String)
    (limit : TimeLimit) :
    SameOutcome (fun l l' => l.state.Alike g keep l'.state ∧ l.Same l')
      (g.tokenizeLine nesting theme line s limit).outcome
      (g.tokenizeLine nesting theme line t limit).outcome := by
  rw [outcome_tokenizeLine, outcome_tokenizeLine]
  refine (scanLine_alike (s := g.scanner theme) h hend nesting line limit).map ?_
  intro l l' _ _ hl
  have hstate : l.state.Alike g keep l'.state := hl.state
  have hsegments : l.segments = l'.segments := by
    unfold ScannedLine.segments
    rw [hl.coverage, hl.size, hstate.contentScopes]
  refine ⟨hstate, ?_, hl.stopped, hstate.equals, hstate.sameScopes⟩
  rw [hl.size, hsegments]

theorem tokenizeLines_alike
    {s t : State}
    (h : s.reset.Alike g true t.reset)
    (nesting : Nat)
    (lines : List String) :
    (g.tokenizeLines nesting theme lines s).outcome =
      (g.tokenizeLines nesting theme lines t).outcome := by
  induction lines generalizing s t with
  | nil =>
      rfl
  | cons line rest ih =>
      have hend : s.top.reachesEnd = t.top.reachesEnd := by
        have htop := congrArg (fun u : State => u.top.reachesEnd) h.bare
        exact htop
      simp only [tokenizeLines, Reported.outcome_bind]
      refine SameOutcome.eq ((tokenizeLine_alike h hend nesting line none).bind ?_)
      rintro l l' - - ⟨hstate, hsame⟩
      rw [ih hstate.reset, hsame.tokens]
      exact .refl (fun _ => rfl) _

/-- Equal states whose frames agree about what the comparison leaves out cannot be told apart by
any lines to come. -/
theorem tokenizeLines_of_equals
    {a b : State}
    (ha : Returned g theme a)
    (hb : Returned g theme b)
    (h : a.equals b = true)
    (hscopes : a.SameScopes b)
    (hends : a.SameEnds b)
    (nesting : Nat)
    (lines : List String) :
    (g.tokenizeLines nesting theme lines a).outcome =
      (g.tokenizeLines nesting theme lines b).outcome :=
  tokenizeLines_alike (.of_equals true ha.tidy hb.tidy h hscopes fun _ => hends) nesting lines

/-- Equal states with the same scopes tokenize the next line in the same way, if the matches that
opened the rules on top agree about the ends of their lines. If all matches that opened a rule do,
they do so again after the line. Scans may be nested to any depth. -/
theorem tokenizeLine_of_equals
    {a b : State}
    (ha : Returned g theme a)
    (hb : Returned g theme b)
    (h : a.equals b = true)
    (hscopes : a.SameScopes b)
    (hend : a.top.reachesEnd = b.top.reachesEnd)
    (nesting : Nat)
    (line : String)
    (limit : TimeLimit) :
    SameOutcome (fun l l' => l.Same l' ∧ (a.SameEnds b → l.state.SameEnds l'.state))
      (g.tokenizeLine nesting theme line a limit).outcome
      (g.tokenizeLine nesting theme line b limit).outcome := by
  by_cases hends : a.SameEnds b
  · have halike := State.Alike.of_equals true ha.tidy hb.tidy h hscopes fun _ => hends
    refine (tokenizeLine_alike halike hend nesting line limit).imp ?_
    rintro l l' - - ⟨hstate, hsame⟩
    exact ⟨hsame, fun _ => hstate.sameEnds⟩
  · have halike := State.Alike.of_equals false ha.tidy hb.tidy h hscopes nofun
    refine (tokenizeLine_alike halike hend nesting line limit).imp ?_
    rintro l l' - - ⟨-, hsame⟩
    exact ⟨hsame, fun hagain => absurd hagain hends⟩

end Grammar

/-- A grammar for captions such as `title<text:`, which are named after what they say. A caption
can hold others, and it can hold the end of the line. -/
def captions : CompileRequest where
  sources := {
    library := .empty
    base := {
      scopeName := "text"
      patterns := [
        { name := some "$1", contentName := some "$2"
          beginPattern := some "([a-z ]+)<([a-z ]*):\\n?", endPattern := some ">"
          patterns := some [
            { reference := some "$self" },
            { name := some "first", matchPattern := some "\\Gz" }] }] } }

/-- Two states, and what the next line looks like from each of them. -/
structure Contrast where
  left : State
  right : State
  leftTokens : List Token
  rightTokens : List Token

/-- Contrasts the states after two documents of one line. -/
def contrast
    (g : Grammar)
    (x y next : String) : Except Error Contrast := do
  let a ← (g.tokenizeLine 0 .plain x .initial none).outcome
  let b ← (g.tokenizeLine 0 .plain y .initial none).outcome
  let l ← (g.tokenizeLine 0 .plain next a.state none).outcome
  let l' ← (g.tokenizeLine 0 .plain next b.state none).outcome
  return ⟨a.state, b.state, l.tokens, l'.tokens⟩

theorem contrast_eq_ok
    {g : Grammar}
    {x y next : String}
    {r : Contrast}
    (h : contrast g x y next = .ok r) :
    Returned g .plain r.left ∧ Returned g .plain r.right ∧
      (g.tokenizeLine 0 .plain next r.left none).outcome.map (·.tokens) = .ok r.leftTokens ∧
      (g.tokenizeLine 0 .plain next r.right none).outcome.map (·.tokens) = .ok r.rightTokens := by
  obtain ⟨a, ha, h⟩ := exists_of_bind_eq_ok h
  obtain ⟨b, hb, h⟩ := exists_of_bind_eq_ok h
  obtain ⟨l, hl, h⟩ := exists_of_bind_eq_ok h
  obtain ⟨l', hl', h⟩ := exists_of_bind_eq_ok h
  obtain rfl := Except.ok.inj h
  refine ⟨.first ha, .first hb, ?_, ?_⟩
  · rw [hl]
    rfl
  · rw [hl']
    rfl

/-- The same caption at two places of a line. -/
theorem tokenizeLine_of_equals_captions :
    ∃ g a b, (Grammar.compile captions).outcome = .ok g ∧
      Returned g .plain a ∧ Returned g .plain b ∧
      a.equals b = true ∧ a.top.enter = some 0 ∧ b.top.enter = some 4 ∧
      SameOutcome (fun l l' => l.Same l' ∧ (a.SameEnds b → l.state.SameEnds l'.state))
        (g.tokenizeLine 0 .plain "z>" a none).outcome
        (g.tokenizeLine 0 .plain "z>" b none).outcome := by
  have hstates : (Grammar.compile captions).outcome.bind (fun g =>
      (contrast g "p<q:" "k<:>p<q:" "z>").map fun r =>
        (r.left.equals r.right, decide (r.left.SameScopes r.right),
          decide (r.left.top.reachesEnd = r.right.top.reachesEnd),
          r.left.top.enter, r.right.top.enter)) =
      .ok (true, true, true, some 0, some 4) := by
    decide +kernel
  obtain ⟨g, hg, hstates⟩ := exists_of_bind_eq_ok hstates
  obtain ⟨r, hr, hstates⟩ := exists_of_map_eq_ok hstates
  obtain ⟨ha, hb, -, -⟩ := contrast_eq_ok hr
  obtain ⟨hequals, hscopes, hend, hleft, hright⟩ : r.left.equals r.right = true ∧
      r.left.SameScopes r.right ∧ r.left.top.reachesEnd = r.right.top.reachesEnd ∧
      r.left.top.enter = some 0 ∧ r.right.top.enter = some 4 := by
    simpa using hstates
  exact ⟨g, r.left, r.right, hg, ha, hb, hequals, hleft, hright,
    Grammar.tokenizeLine_of_equals ha hb hequals hscopes hend 0 "z>" none⟩

/-- Equal states that the next line tells apart. -/
structure ToldApart
    (g : Grammar)
    (a b : State) : Prop where
  left : Returned g .plain a
  right : Returned g .plain b
  equals : a.equals b = true
  line : ∃ line tokens tokens', (g.tokenizeLine 0 .plain line a none).outcome.map (·.tokens) =
      .ok tokens ∧
    (g.tokenizeLine 0 .plain line b none).outcome.map (·.tokens) = .ok tokens' ∧ tokens ≠ tokens'

theorem exists_toldApart
    {g : Grammar}
    {x y next : String}
    {P : State → State → Prop}
    [∀ a b, Decidable (P a b)]
    (h : (contrast g x y next).map (fun r =>
      (r.left.equals r.right, decide (r.leftTokens ≠ r.rightTokens),
        decide (P r.left r.right))) = .ok (true, true, true)) :
    ∃ a b, ToldApart g a b ∧ P a b := by
  obtain ⟨r, hr, h⟩ := exists_of_map_eq_ok h
  obtain ⟨hequals, htokens, hP⟩ : r.left.equals r.right = true ∧
      r.leftTokens ≠ r.rightTokens ∧ P r.left r.right := by
    simpa using h
  obtain ⟨ha, hb, hleft, hright⟩ := contrast_eq_ok hr
  exact ⟨r.left, r.right, ⟨ha, hb, hequals, next, _, _, hleft, hright, htokens⟩, hP⟩

/-- What the comparison leaves out can change how the next line is tokenized: whether the match
that opened the rule on top included the end of its line, the scopes of delimiters, and the scopes
of the frames below. -/
theorem equals_overlooks :
    ∃ g, (Grammar.compile captions).outcome = .ok g ∧
      (∃ a b, ToldApart g a b ∧ a.SameScopes b) ∧
      (∃ a b, ToldApart g a b ∧ a.SameEnds b ∧
        a.frames.map Frame.contentScopes = b.frames.map Frame.contentScopes) ∧
      ∃ a b, ToldApart g a b ∧ a.SameEnds b ∧
        a.frames.map Frame.nameScopes = b.frames.map Frame.nameScopes := by
  have hends : (Grammar.compile captions).outcome.bind (fun g =>
      (contrast g "p<q:" "p<q: " "z").map fun r =>
        (r.left.equals r.right, decide (r.leftTokens ≠ r.rightTokens),
          decide (r.left.SameScopes r.right))) = .ok (true, true, true) := by
    decide +kernel
  have hnames : (Grammar.compile captions).outcome.bind (fun g =>
      (contrast g "p<q r:" "p q<r:" ">").map fun r =>
        (r.left.equals r.right, decide (r.leftTokens ≠ r.rightTokens),
          decide (r.left.SameEnds r.right ∧
            r.left.frames.map Frame.contentScopes = r.right.frames.map Frame.contentScopes))) =
      .ok (true, true, true) := by
    decide +kernel
  have hcontents : (Grammar.compile captions).outcome.bind (fun g =>
      (contrast g "p<q:r s<t:" "p<q r:s<t:" ">z").map fun r =>
        (r.left.equals r.right, decide (r.leftTokens ≠ r.rightTokens),
          decide (r.left.SameEnds r.right ∧
            r.left.frames.map Frame.nameScopes = r.right.frames.map Frame.nameScopes))) =
      .ok (true, true, true) := by
    decide +kernel
  obtain ⟨g, hg, hends⟩ := exists_of_bind_eq_ok hends
  rw [hg] at hnames hcontents
  exact ⟨g, hg, exists_toldApart hends, exists_toldApart hnames, exists_toldApart hcontents⟩

end LineScopes
