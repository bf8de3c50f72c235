import LineScopes.Proofs.Scan.Contract
import LineScopes.Scan.Captures
import LineScopes.Text.Boundary
import Mathlib.Logic.Relation

/-!
# How a coverage grows

A scan covers a line by extensions only, and with a lawful engine every extension ends at a
boundary of the text. So at every moment the segments tile the line up to the offset that is
reached.

**Main definitions.** `Coverage.Tiles`, `Coverage.Grows`, `Rescan.Sound`.

**Main statements.** `Grows.tiles`: growing keeps the tiling. `handleCaptures_grows`: the groups of
a match only let the coverage grow, whatever they are and wherever they lie.
-/

namespace LineScopes

open Relation

/-- Segments, given newest first, that divide a text from its start to an offset. -/
def Tiling
    (text : String) : List Segment → Nat → Prop
  | [], n => n = 0
  | s :: rest, n =>
    s.last = n ∧ s.first < n ∧ Text.IsBoundary text n ∧ Tiling text rest s.first

namespace Tiling

theorem boundary
    {text : String}
    {segments : List Segment}
    {n : Nat}
    (h : Tiling text segments n) :
    Text.IsBoundary text n := by
  cases segments with
  | nil =>
      obtain rfl : n = 0 := h
      exact Text.isBoundary_zero text
  | cons s rest =>
      exact h.2.2.1

/-- Every segment of a tiling lies below the offset that is reached. -/
theorem last_le
    {text : String}
    {segments : List Segment}
    {n : Nat}
    (h : Tiling text segments n) :
    ∀ s ∈ segments, s.first < s.last ∧ s.last ≤ n := by
  induction segments generalizing n with
  | nil =>
      simp
  | cons s rest ih =>
      obtain ⟨rfl, hlt, -, hrest⟩ := h
      intro t ht
      rcases List.mem_cons.mp ht with rfl | ht
      · exact ⟨hlt, Nat.le_refl _⟩
      · have hlast := ih hrest t ht
        exact ⟨hlast.1, by omega⟩

end Tiling

namespace Coverage

/-- The segments tile the text up to the offset that is reached. -/
def Tiles
    (text : String)
    (c : Coverage) : Prop :=
  Tiling text c.newest c.reached

/-- An extension to a boundary of the text. -/
def Extends
    (text : String)
    (c d : Coverage) : Prop :=
  ∃ scopes last, Text.IsBoundary text last ∧ d = c.extend scopes last

/-- Any number of extensions to boundaries of the text. -/
abbrev Grows (text : String) : Coverage → Coverage → Prop :=
  ReflTransGen (Extends text)

theorem tiles_empty
    (text : String) :
    empty.Tiles text := by
  rfl

theorem tiles_extend
    {text : String}
    {c : Coverage}
    (h : c.Tiles text)
    (scopes : ScopeList)
    {last : Nat}
    (hlast : Text.IsBoundary text last) :
    (c.extend scopes last).Tiles text := by
  unfold extend
  split
  · rename_i hlt
    exact ⟨rfl, hlt, hlast, h⟩
  · exact h

/-- A coverage grows by one extension. -/
theorem grows_extend
    {text : String}
    (c : Coverage)
    (scopes : ScopeList)
    {last : Nat}
    (hlast : Text.IsBoundary text last) :
    c.Grows text (c.extend scopes last) :=
  .single ⟨scopes, last, hlast, rfl⟩

namespace Grows

variable {text : String} {c d : Coverage}

theorem tiles
    (h : c.Grows text d)
    (hc : c.Tiles text) :
    d.Tiles text := by
  induction h with
  | refl =>
      exact hc
  | tail _ hstep ih =>
      obtain ⟨scopes, last, hlast, rfl⟩ := hstep
      exact tiles_extend ih scopes hlast

theorem reached_le
    (h : c.Grows text d) :
    c.reached ≤ d.reached := by
  induction h with
  | refl =>
      exact Nat.le_refl _
  | tail _ hstep ih =>
      obtain ⟨scopes, last, -, rfl⟩ := hstep
      rw [reached_extend]
      omega

/-- What grows inside of a part of a text grows inside of the text. -/
theorem of_slice
    {part : String}
    {last : Nat}
    (hpart : Text.slice? text 0 last = some part)
    (h : c.Grows part d) :
    c.Grows text d := by
  refine ReflTransGen.mono ?_ c d h
  rintro c d ⟨scopes, n, hn, rfl⟩
  exact ⟨scopes, n, ((Text.isBoundary_of_slice?_zero hpart).mp hn).1, rfl⟩

end Grows

end Coverage

/-- Started at a boundary with lawful patterns, a nested scan only lets the coverage grow. -/
def Rescan.Sound (rescan : Rescan) : Prop :=
  ∀ text firstLine pos state c d,
    Text.IsBoundary text pos →
    state.Lawful →
    (rescan text firstLine pos state c).outcome = .ok d →
      c.Grows text d

/-- What the groups of a match rely on. -/
structure GroupSite.Sound (site : GroupSite) : Prop where
  state : site.state.Lawful
  groups : ∀ n s, site.groups.span? n = some s → s.Within site.text

section Captures

variable {s : LineScanner} {rescan : Rescan} {site : GroupSite}

theorem captureOf?_eq_some
    {g : Grammar}
    {slot : Option RuleId}
    {span : Option Span}
    {r : CaptureRule}
    {found : Span}
    (h : captureOf? g slot span = some (r, found)) :
    span = some found := by
  unfold captureOf? at h
  split at h
  · split at h
    · simp at h
    · simp_all
  · simp at h

/-- The groups that end at or before an offset are left; the others stay open. -/
theorem closeUntil_grows
    {text : String}
    {first : Nat}
    {groups left : List OpenGroup}
    {c d : Coverage}
    (hgroups : ∀ o ∈ groups, Text.IsBoundary text o.last)
    (h : (closeUntil s first groups c).outcome = .ok (left, d)) :
    c.Grows text d ∧ ∀ o ∈ left, o ∈ groups := by
  induction groups generalizing c with
  | nil =>
      obtain ⟨rfl, rfl⟩ : [] = left ∧ c = d := by simpa [closeUntil] using h
      exact ⟨.refl, by simp⟩
  | cons o rest ih =>
      unfold closeUntil at h
      split at h
      · rw [LineScanner.outcome_produce_bind] at h
        obtain ⟨hgrows, hleft⟩ :=
          ih (fun p hp => hgroups p (List.mem_cons_of_mem o hp)) h
        have hlast := hgroups o List.mem_cons_self
        exact ⟨(Coverage.grows_extend c o.scopes hlast).trans hgrows,
          fun p hp => List.mem_cons_of_mem o (hleft p hp)⟩
      · obtain ⟨rfl, rfl⟩ : o :: rest = left ∧ c = d := by simpa using h
        exact ⟨.refl, fun p hp => hp⟩

theorem closeAll_grows
    {text : String}
    {groups : List OpenGroup}
    {c d : Coverage}
    (hgroups : ∀ o ∈ groups, Text.IsBoundary text o.last)
    (h : (closeAll s groups c).outcome = .ok d) :
    c.Grows text d := by
  induction groups generalizing c with
  | nil =>
      obtain rfl : c = d := by simpa [closeAll] using h
      exact .refl
  | cons o rest ih =>
      rw [closeAll, LineScanner.outcome_produce_bind] at h
      have hlast := hgroups o List.mem_cons_self
      have hrest := ih (fun p hp => hgroups p (List.mem_cons_of_mem o hp)) h
      exact (Coverage.grows_extend c o.scopes hlast).trans hrest

/-- A span that delimits a part of a text can be cut out. -/
theorem Span.Within.exists_slice?
    {text : String}
    {span : Span}
    (h : span.Within text) :
    ∃ part, Text.slice? text span.first span.last = some part := by
  unfold Text.slice?
  rw [dif_pos ⟨h.1, h.2.1, h.2.2⟩]
  exact ⟨_, rfl⟩

/-- A span starts in the part of the text that it ends. -/
theorem exists_slice?_of_within
    {text : String}
    {span : Span}
    (h : span.Within text) :
    ∃ part, Text.slice? text 0 span.last = some part ∧ Text.IsBoundary part span.first := by
  obtain ⟨hfirst, hlast, hle⟩ := h
  have hprefix : Span.Within ⟨0, span.last⟩ text := ⟨Text.isBoundary_zero _, hlast, Nat.zero_le _⟩
  obtain ⟨part, hpart⟩ := hprefix.exists_slice?
  exact ⟨part, hpart, (Text.isBoundary_of_slice?_zero hpart).mpr ⟨hfirst, hle⟩⟩

/-- The groups of a match that are handled, each with the rule of its slot. There are none if the
match as a whole has no span. -/
def GroupSite.slots
    (site : GroupSite)
    (captures : List (Option RuleId)) : List (Option RuleId × Option Span) :=
  if (site.groups.span? 0).isSome then captures.zip site.groups else []

theorem GroupSite.slots_sublist
    (site : GroupSite)
    (captures : List (Option RuleId)) :
    (site.slots captures).Sublist (captures.zip site.groups) := by
  unfold slots
  split
  · exact .refl _
  · exact List.nil_sublist _

/-- What is done about the groups of a match is done about those that are handled. -/
theorem outcome_handleCaptures_eq
    (captures : List (Option RuleId))
    (c : Coverage) :
    (handleCaptures s rescan site captures c).outcome =
      (scanGroups s rescan site (site.slots captures) [] c).outcome := by
  unfold handleCaptures GroupSite.slots
  cases captures with
  | nil =>
      cases (site.groups.span? 0).isSome <;> rfl
  | cons slot rest =>
      cases site.groups.span? 0 <;> rfl

/-- The span of a group with a rule delimits a part of the text. -/
theorem GroupSite.Sound.within
    (hsite : site.Sound)
    {captures : List (Option RuleId)}
    {slot : Option RuleId}
    {span : Span}
    (h : (slot, some span) ∈ site.slots captures) :
    span.Within site.text := by
  have hgroup := (List.of_mem_zip ((site.slots_sublist captures).mem h)).2
  obtain ⟨n, hn⟩ := List.mem_iff_getElem?.mp hgroup
  exact hsite.groups n span (by simp [Groups.span?, hn])

/-- A group is scanned again in the part of the text that it ends. -/
theorem rescanGroup_grows
    (hrescan : rescan.Sound)
    (hsite : site.Sound)
    {r : CaptureRule}
    {rule : RuleId}
    {span : Span}
    (hspan : span.Within site.text)
    {c d : Coverage}
    (h : (rescanGroup s rescan site r rule span c).outcome = .ok d) :
    c.Grows site.text d := by
  obtain ⟨part, hpart, hpos⟩ := exists_slice?_of_within hspan
  simp only [rescanGroup, Reported.outcome_reportIf_bind, Text.slice, hpart,
    Option.getD_some] at h
  refine (hrescan _ _ _ _ _ _ hpos ?_ h).of_slice hpart
  exact hsite.state.push (Frame.lawful_entered _ _ _ _ _ _)

/-- Groups can come in any order and lie anywhere in the text. -/
theorem scanGroups_grows
    (hrescan : rescan.Sound)
    (hsite : site.Sound)
    {slots : List (Option RuleId × Option Span)}
    (hslots : ∀ slot span, (slot, some span) ∈ slots → span.Within site.text)
    {groups : List OpenGroup}
    (hgroups : ∀ o ∈ groups, Text.IsBoundary site.text o.last)
    {c d : Coverage}
    (h : (scanGroups s rescan site slots groups c).outcome = .ok d) :
    c.Grows site.text d := by
  induction slots generalizing groups c with
  | nil =>
      exact closeAll_grows hgroups h
  | cons slot rest ih =>
      obtain ⟨slot, found⟩ := slot
      have hrest : ∀ slot span, (slot, some span) ∈ rest → span.Within site.text :=
        fun slot span hmem => hslots slot span (List.mem_cons_of_mem _ hmem)
      unfold scanGroups at h
      split at h
      · exact ih hrest hgroups h
      · rename_i r span hcapture
        obtain rfl := captureOf?_eq_some hcapture
        have hspan := hslots slot span List.mem_cons_self
        split at h
        · exact closeAll_grows hgroups h
        · simp only [Reported.outcome_bind_eq_ok, LineScanner.outcome_produce_bind] at h
          obtain ⟨⟨left, e⟩, hclose, h⟩ := h
          obtain ⟨hce, hleft⟩ := closeUntil_grows hgroups hclose
          have hgroups' : ∀ o ∈ left, Text.IsBoundary site.text o.last :=
            fun o ho => hgroups o (hleft o ho)
          have hgrown := hce.trans
            (Coverage.grows_extend e (currentScopes site left) hspan.1)
          split at h
          · simp only [Reported.outcome_bind_eq_ok] at h
            obtain ⟨e', hagain, h⟩ := h
            have hnested := rescanGroup_grows hrescan hsite hspan hagain
            exact (hgrown.trans hnested).trans (ih hrest hgroups' h)
          · split at h
            · refine hgrown.trans (ih hrest ?_ h)
              intro o ho
              rcases List.mem_cons.mp ho with rfl | ho
              · exact hspan.2.1
              · exact hgroups' o ho
            · exact hgrown.trans (ih hrest hgroups' h)

theorem handleCaptures_grows
    (hrescan : rescan.Sound)
    (hsite : site.Sound)
    {captures : List (Option RuleId)}
    {c d : Coverage}
    (h : (handleCaptures s rescan site captures c).outcome = .ok d) :
    c.Grows site.text d := by
  rw [outcome_handleCaptures_eq] at h
  exact scanGroups_grows hrescan hsite (fun slot span hmem => hsite.within hmem) (by simp) h

end Captures

end LineScopes
