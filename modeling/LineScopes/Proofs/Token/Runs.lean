import LineScopes.Proofs.Token.Partition
import Mathlib.Algebra.Group.Nat.Defs
import Mathlib.Data.List.Forall2

/-!
# Runs agree with tokens

A line can be tokenized in two forms. Runs of metadata join neighbours that look the same, take a
short cut if no selector depends on the scopes, and lose the added newline in a way of their own.
They say about every place of the line what the token there says.

**Main definitions.** `TokenTypeOverride.given?`, `Run.answer`, `Run.covering`, `Run.Agreement`.

**Main statements.** `foldl_apply`: of all overrides the last one that accepts the scopes counts.
`said_ofSegment`: the short cut gives the same answer. `finished_eq`: taking the newline away from
the runs or from the segments is the same. `agreement_ofSegments`: the runs of segments, whatever
the segments are. `encodeLine_agrees`: the two forms of a line.
-/

namespace LineScopes

namespace TokenTypeOverride

/-- The token type that overrides give to text: that of the last one whose selector accepts its
scopes. -/
def given?
    (overrides : List TokenTypeOverride)
    (names : List String) : Option TokenType :=
  ((overrides.filter fun o => o.selector.accepts names).getLast?).map TokenTypeOverride.type

theorem fields_apply
    (names : List String)
    (m : Metadata)
    (o : TokenTypeOverride) :
    (apply names m o).fields =
      { m.fields with type := if o.selector.accepts names then o.type else m.fields.type } := by
  unfold apply Metadata.update
  split
  · exact Metadata.fields_pack _
  · rfl

/-- Overrides that are applied in order leave the token type of the last one that accepts the
scopes, and nothing else changes. -/
theorem foldl_apply
    (overrides : List TokenTypeOverride)
    (names : List String)
    (m : Metadata) :
    overrides.foldl (apply names) m =
      Fields.pack { m.fields with type := (given? overrides names).getD m.fields.type } := by
  suffices h : (overrides.foldl (apply names) m).fields =
      { m.fields with type := (given? overrides names).getD m.fields.type } by
    rw [← h, Metadata.pack_fields]
  induction overrides using List.reverseRecOn with
  | nil =>
      rfl
  | append_singleton overrides o ih =>
      rw [List.foldl_concat, fields_apply, ih]
      by_cases ho : o.selector.accepts names = true
      · simp [given?, List.filter_append, ho]
      · simp [given?, List.filter_append, ho]

end TokenTypeOverride

namespace Run

/-- What runs and tokens say about text: the metadata of its scopes, with the token type that the
overrides give to it, and whether brackets have to be balanced. -/
def answer
    (overrides : List TokenTypeOverride)
    (brackets : Option BracketSelectors)
    (scopes : ScopeList) : Metadata × Option Bool :=
  let fields := Metadata.fields (scopes.metadata?.getD 0)
  let type := (TokenTypeOverride.given? overrides scopes.names).getD fields.type
  (Fields.pack { fields with type }, brackets.map (·.accepts scopes.names))

/-- What a run says about its text. -/
def said (r : Run) : Metadata × Option Bool :=
  (r.metadata, r.balanced)

/-- The run that covers an offset, of runs given oldest first. -/
def covering
    (runs : List Run)
    (n : Nat) : Option Run :=
  runs.reverse.find? fun r => r.first ≤ n

section OfSegments

variable (overrides : List TokenTypeOverride) (brackets : Option BracketSelectors)

theorem first_ofSegment
    (s : Segment) :
    (ofSegment overrides brackets s).first = s.first % 2 ^ 32 := by
  unfold ofSegment UInt32.size
  dsimp only
  split <;> rfl

/-- The short cut changes nothing: it is taken if no selector depends on the scopes. -/
theorem said_ofSegment
    (s : Segment) :
    (ofSegment overrides brackets s).said = answer overrides brackets s.scopes := by
  unfold ofSegment answer
  dsimp only
  rw [← TokenTypeOverride.foldl_apply]
  split
  · rename_i hshort
    obtain ⟨hoverrides, hbrackets⟩ := (Bool.and_eq_true _ _).mp hshort
    obtain rfl := List.isEmpty_iff.mp hoverrides
    cases brackets with
    | none =>
        rfl
    | some b =>
        have hsettled : b.settled = true := by simpa using hbrackets
        simp [said, BracketSelectors.accepts_of_settled hsettled]
  · rfl

theorem append_cons
    (last : Run)
    (rest : List Run)
    (r : Run) :
    append (last :: rest) r =
      if last.said = r.said then last :: rest else r :: last :: rest := by
  simp [append, said]

/-- The newest run says what the newest segment says. -/
theorem head_ofSegments
    (s : Segment)
    (older : List Segment) :
    ∃ r rest, ofSegments overrides brackets (s :: older) = r :: rest ∧
      r.said = answer overrides brackets s.scopes := by
  rw [ofSegments, ← said_ofSegment]
  cases ofSegments overrides brackets older with
  | nil =>
      exact ⟨_, _, rfl, rfl⟩
  | cons last rest =>
      rw [append_cons]
      split
      · rename_i hsame
        exact ⟨last, rest, rfl, hsame⟩
      · exact ⟨_, _, rfl, rfl⟩

variable {overrides brackets}

theorem ofSegments_eq_nil_iff
    {segments : List Segment} :
    ofSegments overrides brackets segments = [] ↔ segments = [] := by
  cases segments with
  | nil =>
      simp [ofSegments]
  | cons s older =>
      obtain ⟨r, rest, hruns, -⟩ := head_ofSegments overrides brackets s older
      simp [hruns]

/-- Every run is the run of some segment. -/
theorem mem_ofSegments
    {segments : List Segment}
    {r : Run}
    (h : r ∈ ofSegments overrides brackets segments) :
    ∃ s ∈ segments, ofSegment overrides brackets s = r := by
  induction segments with
  | nil =>
      cases h
  | cons s older ih =>
      have hrest : r ∈ ofSegments overrides brackets older →
          ∃ t ∈ s :: older, ofSegment overrides brackets t = r := by
        intro hr
        obtain ⟨t, ht, heq⟩ := ih hr
        exact ⟨t, List.mem_cons_of_mem s ht, heq⟩
      rw [ofSegments] at h
      cases hruns : ofSegments overrides brackets older with
      | nil =>
          rw [hruns] at h
          obtain rfl := List.mem_singleton.mp h
          exact ⟨s, List.mem_cons_self, rfl⟩
      | cons last rest =>
          rw [hruns] at h hrest
          rw [append_cons] at h
          split at h
          · exact hrest h
          · rcases List.mem_cons.mp h with rfl | h
            · exact ⟨s, List.mem_cons_self, rfl⟩
            · exact hrest h

/-- There is an answer about brackets exactly if it is asked for. -/
theorem isSome_balanced
    {segments : List Segment}
    {r : Run}
    (h : r ∈ ofSegments overrides brackets segments) :
    r.balanced.isSome = brackets.isSome := by
  obtain ⟨s, -, rfl⟩ := mem_ofSegments h
  have hsaid := congrArg (·.2.isSome) (said_ofSegment overrides brackets s)
  simpa [said, answer] using hsaid

/-- Neighbours never say the same. -/
theorem isChain_ofSegments
    (segments : List Segment) :
    (ofSegments overrides brackets segments).IsChain fun r q => r.said ≠ q.said := by
  induction segments with
  | nil =>
      exact .nil
  | cons s older ih =>
      rw [ofSegments]
      cases hruns : ofSegments overrides brackets older with
      | nil =>
          exact .singleton _
      | cons last rest =>
          rw [hruns] at ih
          rw [append_cons]
          split
          · exact ih
          · rename_i hdiffer
            exact .cons_cons (Ne.symm hdiffer) ih

end OfSegments

section Tiling

variable (overrides : List TokenTypeOverride) (brackets : Option BracketSelectors)
variable {text : String} {segments : List Segment} {n : Nat}

/-- Below the length that fits into a word, a run starts where its segment does. -/
theorem first_ofSegment_of_tiling
    (h : Tiling text segments n)
    (hn : n ≤ 2 ^ 32)
    {s : Segment}
    (hs : s ∈ segments) :
    (ofSegment overrides brackets s).first = s.first := by
  obtain ⟨hlt, hle⟩ := h.last_le s hs
  rw [first_ofSegment]
  exact Nat.mod_eq_of_lt (by omega)

/-- A run starts where some segment does. -/
theorem exists_segment
    (h : Tiling text segments n)
    (hn : n ≤ 2 ^ 32) :
    ∀ r ∈ ofSegments overrides brackets segments, ∃ s ∈ segments, r.first = s.first := by
  intro r hr
  obtain ⟨s, hs, rfl⟩ := mem_ofSegments hr
  exact ⟨s, hs, first_ofSegment_of_tiling overrides brackets h hn hs⟩

/-- All runs start below the offset that is reached. -/
theorem first_lt
    (h : Tiling text segments n)
    (hn : n ≤ 2 ^ 32) :
    ∀ r ∈ ofSegments overrides brackets segments, r.first < n := by
  intro r hr
  obtain ⟨s, hs, hfirst⟩ := exists_segment overrides brackets h hn r hr
  obtain ⟨hlt, hle⟩ := h.last_le s hs
  omega

variable {overrides brackets}

theorem pairwise_ofSegments
    (h : Tiling text segments n)
    (hn : n ≤ 2 ^ 32) :
    (ofSegments overrides brackets segments).Pairwise fun r q => q.first < r.first := by
  induction segments generalizing n with
  | nil =>
      exact .nil
  | cons s older ih =>
      have hs := first_ofSegment_of_tiling overrides brackets h hn List.mem_cons_self
      obtain ⟨-, hlt, -, holder⟩ := h
      have hbelow := first_lt overrides brackets holder (by omega)
      have hrest := ih holder (by omega)
      rw [ofSegments]
      cases hruns : ofSegments overrides brackets older with
      | nil =>
          exact List.pairwise_singleton _ _
      | cons last rest =>
          rw [hruns] at hbelow hrest
          rw [append_cons]
          split
          · exact hrest
          · refine List.pairwise_cons.mpr ⟨fun r hr => ?_, hrest⟩
            rw [hs]
            exact hbelow r hr

/-- The oldest run is at the start of the text. -/
theorem getLast?_ofSegments
    (h : Tiling text segments n)
    (hne : segments ≠ []) :
    ((ofSegments overrides brackets segments).getLast?).map first = some 0 := by
  induction segments generalizing n with
  | nil =>
      exact absurd rfl hne
  | cons s older ih =>
      obtain ⟨-, -, -, holder⟩ := h
      rw [ofSegments]
      cases older with
      | nil =>
          have hzero : s.first = 0 := holder
          simp [ofSegments, append, first_ofSegment, hzero]
      | cons t rest =>
          obtain ⟨r, runs, hruns, -⟩ := head_ofSegments overrides brackets t rest
          have holdest := ih holder (List.cons_ne_nil t rest)
          rw [hruns] at holdest ⊢
          rw [append_cons]
          split
          · exact holdest
          · rw [List.getLast?_cons_cons]
            exact holdest

/-- The run at a place says what the segment there says. -/
theorem find?_ofSegments
    (h : Tiling text segments n)
    (hn : n ≤ 2 ^ 32)
    {s : Segment}
    (hs : s ∈ segments)
    {k : Nat}
    (hfirst : s.first ≤ k)
    (hlast : k < s.last) :
    ∃ r, (ofSegments overrides brackets segments).find? (fun r => r.first ≤ k) = some r ∧
      r.said = answer overrides brackets s.scopes := by
  induction segments generalizing n with
  | nil =>
      cases hs
  | cons newest older ih =>
      have hstarts := exists_segment overrides brackets h hn
      have hnewest := first_ofSegment_of_tiling overrides brackets h hn List.mem_cons_self
      obtain ⟨-, hlt, -, holder⟩ := h
      rcases List.mem_cons.mp hs with rfl | hs
      · -- the newest run starts at or below the newest segment
        obtain ⟨r, rest, hruns, hsaid⟩ := head_ofSegments overrides brackets s older
        rw [hruns] at hstarts ⊢
        obtain ⟨t, ht, hr⟩ := hstarts r List.mem_cons_self
        have hle : t.first ≤ s.first := by
          rcases List.mem_cons.mp ht with rfl | ht
          · exact Nat.le_refl _
          · have hbelow := holder.last_le t ht
            omega
        exact ⟨r, List.find?_cons_of_pos (by simp; omega), hsaid⟩
      · -- a run that is added now starts behind the place
        obtain ⟨r, hfound, hsaid⟩ := ih holder (by omega) hs
        have hbehind := (holder.last_le s hs).2
        refine ⟨r, ?_, hsaid⟩
        rw [ofSegments]
        cases hruns : ofSegments overrides brackets older with
        | nil =>
            simp [hruns] at hfound
        | cons last rest =>
            rw [hruns] at hfound
            rw [append_cons]
            split
            · exact hfound
            · rw [List.find?_cons_of_neg (by simp; omega)]
              exact hfound

end Tiling

/-- What the two forms of a line have to do with each other. The tokens are given with the scope
lists they were produced with; both forms are given oldest first. -/
structure Agreement
    (overrides : List TokenTypeOverride)
    (brackets : Option BracketSelectors)
    (tokens : List Token)
    (scopes : List ScopeList)
    (runs : List Run) : Prop where
  head_first : runs.head?.map first = some 0
  increasing : runs.Pairwise fun r q => r.first < q.first
  starts : ∀ r ∈ runs, ∃ t ∈ tokens, t.first = r.first
  covers : List.Forall₂
    (fun (t : Token) (l : ScopeList) =>
      t.scopes = l.names ∧
      ∀ k, t.first ≤ k → k < t.last →
        ∃ r, covering runs k = some r ∧ r.said = answer overrides brackets l)
    tokens scopes
  distinct : runs.IsChain fun r q => r.said ≠ q.said
  flags : (runs.mapM balanced).map List.length = brackets.map fun _ => runs.length

section Agreement

variable {overrides : List TokenTypeOverride} {brackets : Option BracketSelectors}

/-- One answer for each run, or none at all. -/
theorem length_mapM_balanced
    {runs : List Run}
    (hne : runs ≠ [])
    (h : ∀ r ∈ runs, r.balanced.isSome = brackets.isSome) :
    (runs.mapM balanced).map List.length = brackets.map fun _ => runs.length := by
  cases brackets with
  | none =>
      cases runs with
      | nil =>
          exact absurd rfl hne
      | cons r rest =>
          have hr : r.balanced = none := by simpa using h r List.mem_cons_self
          simp [hr]
  | some b =>
      clear hne
      induction runs with
      | nil =>
          rfl
      | cons r rest ih =>
          obtain ⟨flag, hr⟩ := Option.isSome_iff_exists.mp (h r List.mem_cons_self)
          have hrest := ih fun q hq => h q (List.mem_cons_of_mem r hq)
          obtain ⟨flags, hflags, hlength⟩ := Option.map_eq_some_iff.mp hrest
          simp [hr, hflags, hlength]

/-- The runs of segments agree with their tokens. -/
theorem agreement_ofSegments
    {text : String}
    {s : Segment}
    {older : List Segment}
    {n : Nat}
    (h : Tiling text (s :: older) n)
    (hn : n ≤ 2 ^ 32)
    (size : Nat) :
    Agreement overrides brackets (Token.ofSegments size (s :: older))
      ((s :: older).map Segment.scopes).reverse
      (ofSegments overrides brackets (s :: older)).reverse := by
  refine
    { head_first := ?_
      increasing := ?_
      starts := ?_
      covers := ?_
      distinct := ?_
      flags := ?_ }
  · rw [List.head?_reverse]
    exact getLast?_ofSegments h (List.cons_ne_nil s older)
  · rw [List.pairwise_reverse]
    exact pairwise_ofSegments h hn
  · intro r hr
    obtain ⟨t, ht, hfirst⟩ := exists_segment overrides brackets h hn r (List.mem_reverse.mp hr)
    rw [Token.ofSegments_cons]
    rcases List.mem_cons.mp ht with rfl | ht
    · exact ⟨.ofSegment (t.clipped size), by simp, by simp [hfirst]⟩
    · refine ⟨.ofSegment t, ?_, hfirst.symm⟩
      rw [List.mem_reverse]
      exact List.mem_map_of_mem (List.mem_cons_of_mem _ ht)
  · have hcovers : ∀ t ∈ s :: older, ∀ k, t.first ≤ k → k < t.last →
        ∃ r, covering (ofSegments overrides brackets (s :: older)).reverse k = some r ∧
          r.said = answer overrides brackets t.scopes := by
      intro t ht k hfirst hlast
      rw [covering, List.reverse_reverse]
      exact find?_ofSegments h hn ht hfirst hlast
    rw [Token.ofSegments_cons, List.forall₂_reverse_iff, List.forall₂_map_left_iff,
      List.forall₂_map_right_iff]
    refine .cons ⟨?_, fun k hfirst hlast => ?_⟩ (List.forall₂_same.mpr fun t ht => ?_)
    · unfold Segment.clipped
      split <;> rfl
    · rw [Token.first_ofSegment, Segment.first_clipped] at hfirst
      exact hcovers s List.mem_cons_self k hfirst
        (Nat.lt_of_lt_of_le hlast (Segment.last_clipped_le size s))
    · exact ⟨rfl, hcovers t (List.mem_cons_of_mem s ht)⟩
  · rw [List.isChain_reverse]
    exact (isChain_ofSegments _).imp fun r q hne => hne.symm
  · refine length_mapM_balanced ?_ fun r hr => isSome_balanced (List.mem_reverse.mp hr)
    rw [ne_eq, List.reverse_eq_nil_iff, ofSegments_eq_nil_iff]
    exact List.cons_ne_nil s older

/-- The runs without the newline are those of the segments without the newline. -/
theorem dropNewline_ofSegments
    {text : String}
    {newest : List Segment}
    {n size : Nat}
    (h : Tiling text newest n)
    (hn : n ≤ size)
    (hsize : size ≤ 2 ^ 32) :
    dropNewline size (ofSegments overrides brackets newest) =
      ofSegments overrides brackets (Coverage.dropNewline size newest) := by
  cases newest with
  | nil =>
      rfl
  | cons s older =>
      have hs := first_ofSegment_of_tiling overrides brackets h (by omega) List.mem_cons_self
      obtain ⟨-, hlt, -, holder⟩ := h
      have hbelow := first_lt overrides brackets holder (by omega)
      rw [ofSegments, Coverage.dropNewline]
      cases hruns : ofSegments overrides brackets older with
      | nil =>
          obtain rfl := ofSegments_eq_nil_iff.mp hruns
          simp only [append, dropNewline, hs]
          split
          · rfl
          · simp [ofSegments, append]
      | cons last rest =>
          have hlast : last.first < s.first := hbelow last (by rw [hruns]; exact List.mem_cons_self)
          have hkept : dropNewline size (last :: rest) = last :: rest :=
            if_neg (by omega)
          rw [append_cons]
          split
          · -- the run of the newline has been joined with the one before
            rename_i hsame
            rw [hkept]
            split
            · exact hruns.symm
            · rw [ofSegments, hruns, append_cons, if_pos hsame]
          · rename_i hdiffer
            simp only [dropNewline, hs]
            split
            · exact hruns.symm
            · rw [ofSegments, hruns, append_cons, if_neg hdiffer]

/-- The runs of a scanned line are those of its segments. -/
theorem finished_eq
    {text : String}
    {c : Coverage}
    (h : c.Tiles text)
    {size : Nat}
    (hreached : c.reached ≤ size)
    (hsize : size ≤ 2 ^ 32)
    (scopes : ScopeList) :
    finished overrides brackets c scopes size =
      ofSegments overrides brackets (c.finished scopes size) := by
  unfold finished Coverage.finished
  rw [dropNewline_ofSegments h hreached hsize]
  cases hnewest : Coverage.dropNewline size c.newest with
  | nil =>
      rfl
  | cons s older =>
      obtain ⟨r, rest, hruns, -⟩ := head_ofSegments overrides brackets s older
      simp only [hruns]

end Agreement

end Run

/-- The tokens and the runs of a scanned line agree. -/
theorem ScannedLine.Sound.agreement
    {line : String}
    {l : ScannedLine}
    (h : l.Sound line)
    (hline : line.utf8ByteSize < 2 ^ 32)
    (overrides : List TokenTypeOverride)
    (brackets : Option BracketSelectors) :
    Run.Agreement overrides brackets (Token.ofSegments l.size l.segments)
      (l.segments.map Segment.scopes).reverse
      (Run.finished overrides brackets l.coverage l.state.top.contentScopes l.size).reverse := by
  have hreached := h.reached_le
  have hsize := h.size
  rw [Run.finished_eq h.tiles hreached (by omega)]
  rw [hsize] at hreached
  obtain ⟨s, older, n, hsegments, hending, -⟩ :=
    Coverage.finished_ending h.tiles hreached l.state.top.contentScopes
  have hn := hending.le
  rw [ScannedLine.segments, hsize, hsegments]
  exact Run.agreement_ofSegments hending.tiling (by omega) _

namespace Grammar

/-- A line fails or ends as its scan does, in the form of runs, too. -/
theorem outcome_encodeLine
    (g : Grammar)
    (nesting : Nat)
    (theme : Theme)
    (line : String)
    (previous : State)
    (limit : TimeLimit) :
    (g.encodeLine nesting theme line previous limit).outcome =
      (scanLine (g.scanner theme) nesting line previous limit).outcome.map fun l =>
        ⟨(Run.finished g.overrides g.brackets l.coverage l.state.top.contentScopes l.size).reverse,
          l.state, l.stopped⟩ := by
  refine Reported.outcome_bind_eq_map fun l => ?_
  rw [Reported.outcome_bind, Run.outcome_finish]
  rfl

/-- Both forms of a line fail with the same error, or they leave the same state and agree. The
scope lists are those of the segments of the scan. -/
theorem encodeLine_agrees
    {g : Grammar}
    (he : g.engine.Lawful)
    {previous : State}
    (hprevious : previous.Lawful)
    {line : String}
    (hline : line.utf8ByteSize < 2 ^ 32)
    (nesting : Nat)
    (theme : Theme)
    (limit : TimeLimit) :
    SameOutcome
      (fun t r =>
        t.state = r.state ∧ t.stopped = r.stopped ∧
        ∃ l, (scanLine (g.scanner theme) nesting line previous limit).outcome = .ok l ∧
          t.tokens = Token.ofSegments l.size l.segments ∧
          Run.Agreement g.overrides g.brackets t.tokens
            (l.segments.map Segment.scopes).reverse r.runs)
      (g.tokenizeLine nesting theme line previous limit).outcome
      (g.encodeLine nesting theme line previous limit).outcome := by
  rw [outcome_tokenizeLine, outcome_encodeLine]
  refine SameOutcome.map (SameOutcome.refl (fun _ => rfl) _) ?_
  rintro l l' hscan - rfl
  have hsound := scanLine_sound (s := g.scanner theme) he hprevious hscan
  exact ⟨rfl, rfl, l, hscan, rfl, hsound.agreement hline g.overrides g.brackets⟩

end Grammar

/-- A grammar that asks for more about its one rule. -/
def markedAccents : Grammar :=
  { accents with
    overrides := [⟨.names ["accent"], .string⟩]
    brackets := some ⟨[], [.names ["accent"]], true⟩ }

/-- Both forms of a line with three tokens. The accent is a string because of the override, the
other letters are not. -/
theorem encodeLine_agrees_accents :
    ∃ t r,
      (markedAccents.tokenizeLine 0 .plain "née" .initial none).outcome = .ok t ∧
      (markedAccents.encodeLine 0 .plain "née" .initial none).outcome = .ok r ∧
      r.runs.map Run.first = [0, 1, 3] ∧
      r.runs.map (fun run => run.metadata.fields.type) = [.other, .string, .other] ∧
      r.brackets = some [true, false, true] ∧
      ∃ scopes, Run.Agreement markedAccents.overrides markedAccents.brackets t.tokens scopes
        r.runs := by
  have hruns : (markedAccents.encodeLine 0 .plain "née" .initial none).outcome.map
      (fun r => (r.runs.map Run.first, r.runs.map (fun run => run.metadata.fields.type),
        r.brackets)) =
      .ok ([0, 1, 3], [.other, .string, .other], some [true, false, true]) := by
    decide +kernel
  obtain ⟨r, hr, hruns⟩ := exists_of_map_eq_ok hruns
  obtain ⟨hfirst, hruns⟩ := Prod.mk.inj hruns
  obtain ⟨htypes, hbrackets⟩ := Prod.mk.inj hruns
  have hline : "née".utf8ByteSize < 2 ^ 32 := by
    decide +kernel
  have hagrees := Grammar.encodeLine_agrees (g := markedAccents) literalEngine_lawful
    State.lawful_initial hline 0 .plain none
  rw [hr] at hagrees
  obtain ⟨t, ht, -, -, l, -, -, hagreement⟩ := hagrees.exists_of_ok
  exact ⟨t, r, ht, hr, hfirst, htypes, hbrackets, _, hagreement⟩

end LineScopes
