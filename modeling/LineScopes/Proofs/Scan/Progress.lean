import LineScopes.Proofs.Engine.Literal
import LineScopes.Proofs.Outcome
import LineScopes.Proofs.Rule.Growth
import LineScopes.Proofs.Scan.Moves
import LineScopes.Proofs.Scan.Sound
import Mathlib.Tactic.Linarith
import Mathlib.Tactic.Ring

/-!
# A scan comes to an end

While a scan stays at one place it first leaves frames that were entered elsewhere, and from the
first rule on that is entered here it only enters rules, each of them once. So it stays for at most
as many steps as there are frames and rules, and the stack grows by at most the number of rules and
one more frame before the scan moves on.

**Main definitions.** `potential`, `ceiling`, `remaining`, `Steps`, `Halts`.

**Main statements.** `Moves.potential_lt`: a step that stays decreases the potential.
`Moves.remaining_lt`: every step decreases what remains. `run_halts`: the bound on the steps of a
scan is never reached.
-/

namespace LineScopes

section Measure

variable (rules pos : Nat) (marks : List Mark)

/-- How many rules have not been entered at a place. -/
def unentered : Nat :=
  ((List.range rules).filter fun id => id ∉ fresh pos marks).length

/-- How many steps a scan can stay at its place. -/
def potential : Nat :=
  if fresh pos marks = [] then marks.length + rules else unentered rules pos marks

/-- How high the stack can be when the scan moves on. -/
def ceiling : Nat :=
  if fresh pos marks = [] then marks.length + rules + 1
  else marks.length + unentered rules pos marks + 1

/-- How many steps a scan of a text of some size can take. -/
def remaining
    (size : Nat) : Nat :=
  potential rules pos marks + 1 +
    (size - pos) * (ceiling rules pos marks + (size - pos + 1) * (rules + 2))

theorem unentered_le :
    unentered rules pos marks ≤ rules := by
  have h := List.length_filter_le (fun id => id ∉ fresh pos marks) (List.range rules)
  simpa [unentered] using h

theorem potential_le :
    potential rules pos marks ≤ marks.length + rules := by
  have h := unentered_le rules pos marks
  unfold potential
  split <;> omega

theorem ceiling_le :
    ceiling rules pos marks ≤ marks.length + rules + 1 := by
  have h := unentered_le rules pos marks
  unfold ceiling
  split <;> omega

theorem length_lt_ceiling :
    marks.length < ceiling rules pos marks := by
  unfold ceiling
  split <;> omega

/-- What remains is at most what the height of the stack and the size of the text allow. -/
theorem remaining_le
    (size : Nat) :
    remaining rules pos marks size ≤
      (size + 1) * (marks.length + (size + 1 + 1) * (rules + 2)) := by
  have hpotential := potential_le rules pos marks
  have hceiling := ceiling_le rules pos marks
  have hplaces : (size - pos) * (ceiling rules pos marks + (size - pos + 1) * (rules + 2)) ≤
      size * (marks.length + rules + 1 + (size + 1) * (rules + 2)) :=
    Nat.mul_le_mul (Nat.sub_le _ _)
      (Nat.add_le_add hceiling (Nat.mul_le_mul_right _ (by omega)))
  have hslack : (size + 1) * (marks.length + (size + 1 + 1) * (rules + 2)) =
      marks.length + rules + 1 + size * (marks.length + rules + 1 + (size + 1) * (rules + 2)) +
        (size * rules + 3 * size + rules + 3) := by
    ring
  unfold remaining
  omega

variable {pos marks}

theorem potential_of_nil
    (h : fresh pos marks = []) :
    potential rules pos marks = marks.length + rules :=
  if_pos h

theorem potential_of_ne_nil
    (h : fresh pos marks ≠ []) :
    potential rules pos marks = unentered rules pos marks :=
  if_neg h

theorem ceiling_of_nil
    (h : fresh pos marks = []) :
    ceiling rules pos marks = marks.length + rules + 1 :=
  if_pos h

theorem ceiling_of_ne_nil
    (h : fresh pos marks ≠ []) :
    ceiling rules pos marks = marks.length + unentered rules pos marks + 1 :=
  if_neg h

/-- Moving on by one place costs more than a scan can do at the next place. -/
theorem remaining_step
    (height : Nat)
    {places places' : Nat}
    (h : places' + 1 ≤ places) :
    height + rules + 1 + places' * (height + rules + 1 + (places' + 1) * (rules + 2)) <
      1 + places * (height + (places + 1) * (rules + 2)) := by
  have hfewer : (places' + 1) * (height + (places' + 1 + 1) * (rules + 2)) ≤
      places * (height + (places + 1) * (rules + 2)) :=
    Nat.mul_le_mul h (Nat.add_le_add_left (Nat.mul_le_mul_right _ (by omega)) _)
  have hslack : (places' + 1) * (height + (places' + 1 + 1) * (rules + 2)) =
      height + rules + 1 + places' * (height + rules + 1 + (places' + 1) * (rules + 2)) +
        (places' * rules + 3 * places' + rules + 3) := by
    ring
  omega

variable {rules}

/-- A rule that is entered does not count any more. -/
theorem unentered_cons_lt
    {id : RuleId}
    (hid : id < rules)
    (hnew : id ∉ fresh pos marks) :
    unentered rules pos ((id, some pos) :: marks) < unentered rules pos marks := by
  unfold unentered
  have hfilter : (List.range rules).filter (fun i => i ∉ fresh pos ((id, some pos) :: marks)) =
      ((List.range rules).filter fun i => i ∉ fresh pos marks).filter (· ≠ id) := by
    rw [List.filter_filter]
    refine List.filter_congr fun i _ => ?_
    simp
  rw [hfilter]
  refine List.length_filter_lt_length_iff_exists.mpr ⟨id, ?_, by simp⟩
  simp [hid, hnew]

namespace Moves

variable {marks' : List Mark}

theorem potential_lt
    (h : Moves rules pos marks pos marks') :
    potential rules pos marks' < potential rules pos marks := by
  cases h with
  | left hold =>
      have hle := potential_le rules pos marks'
      rw [potential_of_nil rules (fresh_eq_nil_of_ne hold), List.length_cons]
      omega
  | @entered id _ hid hnew =>
      have hlt := unentered_cons_lt hid hnew
      have hle := unentered_le rules pos marks
      rw [potential_of_ne_nil rules (by simp)]
      unfold potential
      split <;> omega
  | advanced hpos =>
      exact absurd hpos (Nat.lt_irrefl pos)

/-- As long as a scan stays, the bound on the height of the stack does not grow. -/
theorem ceiling_le
    (h : Moves rules pos marks pos marks') :
    ceiling rules pos marks' ≤ ceiling rules pos marks := by
  cases h with
  | left hold =>
      have hle := LineScopes.ceiling_le rules pos marks'
      rw [ceiling_of_nil rules (fresh_eq_nil_of_ne hold), List.length_cons]
      omega
  | @entered id _ hid hnew =>
      have hlt := unentered_cons_lt hid hnew
      have hle := unentered_le rules pos marks
      rw [ceiling_of_ne_nil rules (by simp), List.length_cons]
      unfold ceiling
      split <;> omega
  | advanced hpos =>
      exact absurd hpos (Nat.lt_irrefl pos)

theorem pos_le
    {pos' : Nat}
    (h : Moves rules pos marks pos' marks') :
    pos ≤ pos' := by
  cases h with
  | left =>
      exact Nat.le_refl _
  | entered =>
      exact Nat.le_refl _
  | advanced hpos =>
      exact Nat.le_of_lt hpos

/-- The stack of a scan that moves on is not higher than the bound. -/
theorem length_le_ceiling
    {pos' : Nat}
    (h : Moves rules pos marks pos' marks')
    (hpos : pos < pos') :
    marks'.length ≤ ceiling rules pos marks := by
  cases h with
  | left =>
      exact absurd hpos (Nat.lt_irrefl pos)
  | entered =>
      exact absurd hpos (Nat.lt_irrefl pos)
  | advanced _ hlength =>
      exact Nat.le_trans hlength (length_lt_ceiling rules pos marks)

/-- Every step decreases what remains of a scan. -/
theorem remaining_lt
    {pos' size : Nat}
    (h : Moves rules pos marks pos' marks')
    (hsize : pos' ≤ size) :
    remaining rules pos' marks' size < remaining rules pos marks size := by
  rcases Nat.eq_or_lt_of_le h.pos_le with rfl | hpos
  · have hpotential := h.potential_lt
    have hceiling := Nat.mul_le_mul_left (size - pos)
      (Nat.add_le_add_right h.ceiling_le ((size - pos + 1) * (rules + 2)))
    unfold remaining
    omega
  · have hlength := h.length_le_ceiling hpos
    have hpotential := potential_le rules pos' marks'
    have hceiling := LineScopes.ceiling_le rules pos' marks'
    have hplaces : size - pos' + 1 ≤ size - pos := by omega
    have hstep := remaining_step rules (ceiling rules pos marks) hplaces
    have hrest : (size - pos') * (ceiling rules pos' marks' + (size - pos' + 1) * (rules + 2)) ≤
        (size - pos') *
          (ceiling rules pos marks + rules + 1 + (size - pos' + 1) * (rules + 2)) :=
      Nat.mul_le_mul_left _ (Nat.add_le_add_right (by omega) _)
    unfold remaining
    omega

end Moves

end Measure

section Steps

variable {s : LineScanner} {rescan : Rescan} {text : String} {c d : Cursor}

/-- A number of steps, each of which goes on. -/
inductive Steps
    (s : LineScanner)
    (rescan : Rescan)
    (text : String) : Nat → Cursor → Cursor → Prop
  | refl (c : Cursor) : Steps s rescan text 0 c c
  | head {n : Nat} {c d e : Cursor}
    (first : (step s rescan text c).outcome = .ok (.onward d))
    (rest : Steps s rescan text n d e) :
    Steps s rescan text (n + 1) c e

/-- The outcome of a scan that takes its last step: the step fails, or it ends the scan. -/
inductive Halts
    (s : LineScanner)
    (rescan : Rescan)
    (text : String)
    (c : Cursor) : Except Error ScanEnd → Prop
  | failed {e : Error} (h : (step s rescan text c).outcome = .error e) :
    Halts s rescan text c (.error e)
  | finished {d : Cursor} (h : (step s rescan text c).outcome = .ok (.finished d)) :
    Halts s rescan text c (.ok ⟨d, false⟩)

variable (hroot : s.grammar.isRegion rootRule = false)
variable (hinjections : ∀ i ∈ s.grammar.injections, s.grammar.isRegion i.rule = false)
include hroot hinjections

/-- The place of a scan never goes back, and it changes after as many steps as there are frames and
rules. -/
theorem Steps.stays
    {n : Nat}
    (hc : c.state.Rooted)
    (h : Steps s rescan text n c d) :
    d.state.Rooted ∧ c.pos ≤ d.pos ∧
      (d.pos = c.pos → n + potential s.grammar.rules.size d.pos d.state.marks ≤
        potential s.grammar.rules.size c.pos c.state.marks) := by
  induction h with
  | refl c =>
      exact ⟨hc, Nat.le_refl _, fun _ => by omega⟩
  | @head n c d e first rest ih =>
      obtain ⟨hmoves, hd⟩ := step_moves hroot hinjections hc first
      obtain ⟨he, hle, hstays⟩ := ih hd
      have hfirst := hmoves.pos_le
      refine ⟨he, Nat.le_trans hfirst hle, fun hpos => ?_⟩
      have hsame : d.pos = c.pos := by omega
      have hrest := hstays (by omega)
      rw [hsame] at hmoves hrest
      have hlt := hmoves.potential_lt
      omega

/-- With a bound that is not below what remains, a run takes all steps it can take. -/
theorem run_halts_of_remaining_le
    (he : s.grammar.engine.Lawful)
    (hc : c.Sound text)
    (hrooted : c.state.Rooted)
    {bound : Nat}
    (hbound : remaining s.grammar.rules.size c.pos c.state.marks text.utf8ByteSize ≤ bound)
    (newest : List Entry) :
    ∃ n d, n < bound ∧ Steps s rescan text n c d ∧
      Halts s rescan text d (run s rescan text bound none c newest).outcome := by
  induction bound generalizing c newest with
  | zero =>
      unfold remaining at hbound
      omega
  | succ bound ih =>
      rw [outcome_run_succ, if_neg (by simp)]
      cases hstep : (step s rescan text c).outcome with
      | error e =>
          exact ⟨0, c, Nat.succ_pos _, .refl c, .failed hstep⟩
      | ok p =>
          cases p with
          | finished d =>
              exact ⟨0, c, Nat.succ_pos _, .refl c, .finished hstep⟩
          | onward d =>
              obtain ⟨hmoves, hd⟩ := step_moves hroot hinjections hrooted hstep
              obtain ⟨hsound, -⟩ := step_sound he hc hstep
              have hlt := hmoves.remaining_lt hsound.pos.le_utf8ByteSize
              obtain ⟨n, e, hn, hsteps, hhalts⟩ := ih hsound hd (by omega) []
              exact ⟨n + 1, e, Nat.succ_lt_succ hn, .head hstep hsteps, hhalts⟩

end Steps

/-- The bound on the steps of a scan is never reached: the scan takes fewer steps and then ends or
fails. On the way, it stays at a place for at most as many steps as there are frames and rules. -/
theorem run_halts
    {s : LineScanner}
    {r : CompileRequest}
    (hcompile : (Grammar.compile r).outcome = .ok s.grammar)
    (hinjections : ∀ i ∈ s.grammar.injections, s.grammar.isRegion i.rule = false)
    (he : s.grammar.engine.Lawful)
    {text : String}
    {c : Cursor}
    (hc : c.Sound text)
    (hrooted : c.state.Rooted)
    (rescan : Rescan) :
    (∃ n d, n < stepBound s.grammar text c.state ∧ Steps s rescan text n c d ∧
      Halts s rescan text d
        (run s rescan text (stepBound s.grammar text c.state) none c []).outcome) ∧
    ∀ k n d e, Steps s rescan text k c d → Steps s rescan text n d e →
      d.pos ≤ e.pos ∧ (e.pos = d.pos → n ≤ d.state.depth + s.grammar.rules.size) := by
  obtain ⟨group, hgroup⟩ := Grammar.exists_group_of_compile hcompile
  have hroot : s.grammar.isRegion rootRule = false := by
    simp [Grammar.isRegion, hgroup]
  constructor
  · refine run_halts_of_remaining_le hroot hinjections he hc hrooted ?_ []
    have hle := remaining_le s.grammar.rules.size c.pos c.state.marks text.utf8ByteSize
    rwa [State.length_marks] at hle
  · intro k n d e hfirst hsteps
    obtain ⟨hd, -, -⟩ := hfirst.stays hroot hinjections hrooted
    obtain ⟨-, hle, hstays⟩ := hsteps.stays hroot hinjections hd
    refine ⟨hle, fun hpos => ?_⟩
    have hpotential := potential_le s.grammar.rules.size d.pos d.state.marks
    rw [State.length_marks] at hpotential
    have hn := hstays hpos
    omega

/-- A grammar for what stands in parentheses, which may be nested. -/
def parentheses : CompileRequest where
  sources := {
    library := .empty
    base := {
      scopeName := "source"
      patterns := [
        { beginPattern := some "(", endPattern := some ")",
          patterns := some [{ reference := some "$self" }] }] } }
  engine := literalEngine

/-- The scan of a line with parentheses that are not closed. -/
theorem run_halts_parentheses :
    ∃ s : LineScanner,
      (Grammar.compile parentheses).outcome = .ok s.grammar ∧
      ∃ n d, Steps s (rescanText s 1) "(a(b\n" n ⟨true, 0, none, .root .empty, .empty⟩ d ∧
        Halts s (rescanText s 1) "(a(b\n" d
          (run s (rescanText s 1) "(a(b\n" (stepBound s.grammar "(a(b\n" (.root .empty)) none
            ⟨true, 0, none, .root .empty, .empty⟩ []).outcome := by
  have hcompiled : (Grammar.compile parentheses).outcome.map
      (fun g => g.injections.all fun i => !g.isRegion i.rule) = .ok true := by
    decide +kernel
  obtain ⟨g, hg, hinjections⟩ := exists_of_map_eq_ok hcompiled
  have he : g.engine.Lawful := by
    rw [(Grammar.compile_eq_ok hg).1]
    exact literalEngine_lawful
  have hsound : Cursor.Sound "(a(b\n" ⟨true, 0, none, .root .empty, .empty⟩ := by
    refine ⟨Text.isBoundary_zero _, fun f hf => ?_⟩
    obtain rfl := List.mem_singleton.mp hf
    exact Frame.lawful_entered _ _ _ _ _ _
  have hplain : ∀ i ∈ g.injections, g.isRegion i.rule = false := by
    simpa using hinjections
  have hscan := run_halts (s := g.scanner .plain) hg hplain he hsound rfl
    (rescanText (g.scanner .plain) 1)
  obtain ⟨⟨n, d, -, hsteps, hhalts⟩, -⟩ := hscan
  exact ⟨g.scanner .plain, hg, n, d, hsteps, hhalts⟩

end LineScopes
