import LineScopes.Engine.Literal
import LineScopes.Grammar.Compiled
import LineScopes.Proofs.Outcome
import LineScopes.Text.Boundary

/-!
# The engine for plain texts is lawful

A search walks along the text character by character and compares whole characters, so what it
finds delimits a part of the text. The contract of an engine can be met.

**Main definitions.** `anchoredEngine`, `Literal.grammar`.

**Main statements.** `searchFrom_within`: a search from a boundary finds parts of the text.
`literalEngine_lawful`, `anchoredEngine_lawful`.
-/

namespace LineScopes
namespace Literal

@[simp] theorem utf8ByteSize_ofList
    (cs : List Char) :
    (String.ofList cs).utf8ByteSize = byteLength cs := by
  induction cs with
  | nil =>
      rfl
  | cons c cs ih =>
      rw [String.ofList_cons, String.utf8ByteSize_append, ih, String.utf8ByteSize_singleton]
      simp [byteLength]

/-- What follows an offset of a text. -/
def Follows
    (text : String)
    (n : Nat)
    (cs : List Char) : Prop :=
  ∃ before, text = before ++ String.ofList cs ∧ n = before.utf8ByteSize

theorem follows_of_slice?
    {text rest : String}
    {n : Nat}
    (h : Text.slice? text n text.utf8ByteSize = some rest) :
    Follows text n rest.toList := by
  unfold Text.slice? at h
  split at h
  · rename_i hb
    simp only [Option.some.injEq] at h
    obtain ⟨before, after, htext, hn⟩ := Text.isBoundary_iff_exists_append.mp hb.1
    have hafter : rest = after := by
      subst h hn
      apply String.toByteArray_inj.mp
      show text.toByteArray.extract before.utf8ByteSize text.utf8ByteSize = after.toByteArray
      subst htext
      simp [String.toByteArray_append, ByteArray.extract_append_eq_right]
    subst hafter
    exact ⟨before, by rw [String.ofList_toList]; exact htext, hn⟩
  · simp at h

namespace Follows

variable {text : String} {n : Nat}

theorem boundary
    {cs : List Char}
    (h : Follows text n cs) :
    Text.IsBoundary text n := by
  obtain ⟨before, htext, hn⟩ := h
  exact Text.isBoundary_iff_exists_append.mpr ⟨before, _, htext, hn⟩

theorem drop
    {p cs : List Char}
    (h : Follows text n (p ++ cs)) :
    Follows text (n + byteLength p) cs := by
  obtain ⟨before, rfl, rfl⟩ := h
  refine ⟨before ++ String.ofList p, ?_, ?_⟩
  · rw [String.ofList_append, String.append_assoc]
  · rw [String.utf8ByteSize_append, utf8ByteSize_ofList]

end Follows

theorem prefix_of_firstAt?
    {cs p : List Char}
    {patterns : List (List Char)}
    {i j : Nat}
    (h : firstAt? cs patterns i = some (j, p)) :
    p <+: cs := by
  induction patterns generalizing i with
  | nil =>
      simp [firstAt?] at h
  | cons q rest ih =>
      unfold firstAt? at h
      split at h
      · rename_i hprefix
        obtain ⟨-, rfl⟩ : i = j ∧ q = p := by simpa using h
        exact List.isPrefixOf_iff_prefix.mp hprefix
      · exact ih h

/-- A pattern that is found at an offset delimits a part of the text. -/
theorem within_of_prefix
    {text : String}
    {n : Nat}
    {p cs : List Char}
    (hcs : Follows text n cs)
    (h : p <+: cs) :
    Span.Within ⟨n, n + byteLength p⟩ text := by
  obtain ⟨rest, rfl⟩ := h
  exact ⟨hcs.boundary, hcs.drop.boundary, Nat.le_add_right _ _⟩

/-- A search from a boundary finds a part of the text behind it. -/
theorem searchFrom_within
    {text : String}
    {patterns : List (List Char)}
    {n : Nat}
    {cs : List Char}
    (hcs : Follows text n cs)
    {found : Found}
    (h : searchFrom patterns n cs = some found) :
    ∃ s : Span, found.groups = [some s] ∧ n ≤ s.first ∧ s.Within text := by
  induction cs generalizing n with
  | nil =>
      unfold searchFrom at h
      split at h
      · rename_i i p hfirst
        obtain rfl : _ = found := Option.some.inj h
        exact ⟨_, rfl, Nat.le_refl n, within_of_prefix hcs (prefix_of_firstAt? hfirst)⟩
      · simp at h
  | cons c rest ih =>
      unfold searchFrom at h
      split at h
      · rename_i i p hfirst
        obtain rfl : _ = found := Option.some.inj h
        exact ⟨_, rfl, Nat.le_refl n, within_of_prefix hcs (prefix_of_firstAt? hfirst)⟩
      · have hrest : Follows text (n + c.utf8Size) rest := by
          simpa [byteLength] using Follows.drop (p := [c]) hcs
        obtain ⟨s, hs, hle, hwithin⟩ := ih hrest h
        exact ⟨s, hs, by omega, hwithin⟩

end Literal

/-- The engine for plain texts meets the contract. -/
theorem literalEngine_lawful :
    literalEngine.Lawful := by
  intro patterns scan hcompile text start found hstart hfound
  simp only [literalEngine, Literal.compile] at hcompile
  split at hcompile
  · simp at hcompile
  · obtain rfl : _ = scan := Except.ok.inj hcompile
    unfold Literal.search at hfound
    split at hfound
    · rename_i rest hslice
      obtain ⟨s, hgroups, hle, hwithin⟩ :=
        Literal.searchFrom_within (Literal.follows_of_slice? hslice) hfound
      refine ⟨?_, ?_⟩
      · simpa [Found.first, Groups.span?, hgroups] using hle
      · intro n t ht
        cases n with
        | zero =>
            obtain rfl : s = t := by simpa [Groups.span?, hgroups] using ht
            exact hwithin
        | succ n =>
            simp [Groups.span?, hgroups] at ht
    · simp at hfound

/-- A search in which `\G` stands for the place where it begins. -/
def Literal.fromStart
    (patterns : List String)
    (scan : Scanner) : Scanner := fun text start =>
  match patterns.idxOf? "\\G" with
  | some index => some ⟨index, [some ⟨start, start⟩]⟩
  | none => scan text start

/-- The place where a search begins is an empty part of the text. -/
theorem Literal.lawful_fromStart
    {patterns : List String}
    {scan : Scanner}
    (h : scan.Lawful) :
    (fromStart patterns scan).Lawful := by
  intro text start found hstart hfound
  unfold fromStart at hfound
  split at hfound
  · obtain rfl := Option.some.inj hfound
    refine ⟨Nat.le_refl start, fun n s hs => ?_⟩
    cases n with
    | zero =>
        obtain rfl : ⟨start, start⟩ = s := by simpa [Groups.span?] using hs
        exact ⟨hstart, hstart, Nat.le_refl start⟩
    | succ n =>
        simp [Groups.span?] at hs
  · exact h text start found hstart hfound

/-- The engine for plain texts, with one anchor. -/
def anchoredEngine : Engine where
  name := "AnchoredEngine"
  compile patterns := (Literal.compile patterns).map (Literal.fromStart patterns)

theorem anchoredEngine_lawful :
    anchoredEngine.Lawful := by
  intro patterns scan hcompile
  obtain ⟨literal, hliteral, rfl⟩ := exists_of_map_eq_ok hcompile
  exact Literal.lawful_fromStart (literalEngine_lawful patterns literal hliteral)

/-- A grammar for plain texts without injections. -/
def Literal.grammar (rules : RuleTable) : Grammar where
  scope := "source"
  rules := rules
  injections := []
  engine := literalEngine
  sets := .ofTable _ _
  languages := {}
  overrides := []
  brackets := none
  options := {}

end LineScopes
