import LineScopes.Scope.Name
import Mathlib.Data.List.Infix
import Mathlib.Data.String.Basic

/-!
# Names and their dotted parts

A pattern covers a name if its dotted parts are the first ones of the name. Two patterns that cover
one name cover each other, the shorter one the longer one, and the shorter one comes first in the
order of texts.

**Main definitions.** `Scope.EndsInDot`.

**Main statements.** `covers_iff_parts_isPrefix`. `length_le_of_covers`, `eq_of_covers`.
-/

namespace LineScopes
namespace Scope

/-- A name that ends with a dot, which starts no further part. -/
def EndsInDot (name : String) : Prop :=
  name.toList.getLast? = some '.'

instance (name : String) : Decidable (EndsInDot name) :=
  inferInstanceAs (Decidable (_ = _))

theorem dottedChars_ne_nil
    {cs : List Char}
    (h : cs ≠ []) :
    dottedChars cs ≠ [] := by
  cases cs with
  | nil =>
      exact absurd rfl h
  | cons c rest =>
      unfold dottedChars
      split
      · simp
      · split <;> simp

@[simp] theorem dottedChars_dot (cs : List Char) :
    dottedChars ('.' :: cs) = [] :: dottedChars cs := by
  rw [dottedChars, if_pos rfl]

/-- A character that is no dot belongs to the first part. -/
theorem dottedChars_cons
    {c : Char}
    {cs piece : List Char}
    {pieces : List (List Char)}
    (hc : c ≠ '.')
    (h : dottedChars cs = piece :: pieces) :
    dottedChars (c :: cs) = (c :: piece) :: pieces := by
  rw [dottedChars, if_neg hc, h]

/-- The parts of a text behind a dot are those in front of it and those behind it. -/
theorem dottedChars_append_dot
    {cs : List Char}
    (hne : cs ≠ [])
    (hdot : cs.getLast? ≠ some '.')
    (rest : List Char) :
    dottedChars (cs ++ '.' :: rest) = dottedChars cs ++ dottedChars rest := by
  induction cs with
  | nil =>
      exact absurd rfl hne
  | cons c cs ih =>
      cases cs with
      | nil =>
          have hc : c ≠ '.' := by
            simpa using hdot
          simp [dottedChars, hc]
      | cons d cs =>
          have hrest := ih (by simp) (by simpa using hdot)
          by_cases hc : c = '.'
          · subst hc
            rw [List.cons_append, dottedChars_dot, hrest, dottedChars_dot]
            rfl
          · obtain ⟨piece, pieces, hpieces⟩ :=
              List.exists_cons_of_ne_nil (dottedChars_ne_nil (List.cons_ne_nil d cs))
            rw [hpieces] at hrest
            rw [List.cons_append, dottedChars_cons hc hrest, dottedChars_cons hc hpieces]
            rfl

/-- A text whose first part is empty begins with a dot. -/
theorem eq_dot_of_dottedChars
    {c : Char}
    {cs : List Char}
    {pieces : List (List Char)}
    (h : dottedChars (c :: cs) = [] :: pieces) :
    c = '.' ∧ dottedChars cs = pieces := by
  unfold dottedChars at h
  split at h
  · exact ⟨‹_›, (List.cons.inj h).2⟩
  · split at h <;> simp at h

/-- A text whose first part has a first character begins with it. -/
theorem eq_of_dottedChars
    {c d : Char}
    {cs piece : List Char}
    {pieces : List (List Char)}
    (h : dottedChars (c :: cs) = (d :: piece) :: pieces) :
    c = d ∧ c ≠ '.' ∧ (dottedChars cs = piece :: pieces ∨ cs = [] ∧ piece = [] ∧ pieces = []) := by
  unfold dottedChars at h
  split at h
  · simp at h
  · rename_i hc
    split at h
    · rename_i hnone
      have hnil : cs = [] := by
        by_contra hne
        exact dottedChars_ne_nil hne hnone
      obtain ⟨⟨rfl, rfl⟩, rfl⟩ : (c = d ∧ piece = []) ∧ pieces = [] := by
        simpa [and_assoc] using h
      exact ⟨rfl, hc, .inr ⟨hnil, rfl, rfl⟩⟩
    · rename_i piece' pieces' hsome
      obtain ⟨⟨rfl, rfl⟩, rfl⟩ : (c = d ∧ piece' = piece) ∧ pieces' = pieces := by
        simpa using h
      exact ⟨rfl, hc, .inl hsome⟩

/-- If the parts of a text are the first ones of another text, so are those behind the first
character. -/
theorem eq_and_isPrefix_of_dottedChars
    {c d : Char}
    {cs ds : List Char}
    (hne : cs ≠ [])
    (hdot : cs.getLast? ≠ some '.')
    (h : dottedChars (c :: cs) <+: dottedChars (d :: ds)) :
    c = d ∧ dottedChars cs <+: dottedChars ds := by
  obtain ⟨later, hlater⟩ := h
  obtain ⟨piece, pieces, hpieces⟩ := List.exists_cons_of_ne_nil (dottedChars_ne_nil hne)
  by_cases hc : c = '.'
  · subst hc
    have hparts : dottedChars (d :: ds) = [] :: (dottedChars cs ++ later) := by
      rw [← hlater, dottedChars_dot]
      rfl
    obtain ⟨rfl, hrest⟩ := eq_dot_of_dottedChars hparts
    exact ⟨rfl, later, hrest.symm⟩
  · have hparts : dottedChars (d :: ds) = (c :: piece) :: (pieces ++ later) := by
      rw [← hlater, dottedChars_cons hc hpieces]
      rfl
    obtain ⟨rfl, -, hrest⟩ := eq_of_dottedChars hparts
    rcases hrest with hrest | ⟨rfl, rfl, hnone⟩
    · exact ⟨rfl, later, by rw [hpieces, hrest]; rfl⟩
    · -- a text with a single empty part is a dot
      obtain rfl : pieces = [] := (List.append_eq_nil_iff.mp hnone).1
      obtain ⟨e, cs, rfl⟩ := List.exists_cons_of_ne_nil hne
      obtain ⟨rfl, hcs⟩ := eq_dot_of_dottedChars hpieces
      have hnil : cs = [] := by
        by_contra hcs'
        exact dottedChars_ne_nil hcs' hcs
      simp [hnil] at hdot

/-- A text whose first part is a single character is this character, or has a dot behind it. -/
theorem eq_or_isPrefix_of_dottedChars_singleton
    {c d : Char}
    {ds : List Char}
    (hc : c ≠ '.')
    (h : dottedChars [c] <+: dottedChars (d :: ds)) :
    d :: ds = [c] ∨ [c, '.'] <+: d :: ds := by
  obtain ⟨later, hlater⟩ := h
  have hparts : dottedChars (d :: ds) = [c] :: later := by
    rw [← hlater]
    simp [dottedChars, hc]
  obtain ⟨rfl, -, hrest⟩ := eq_of_dottedChars hparts
  rcases hrest with hrest | ⟨rfl, -, -⟩
  · right
    cases ds with
    | nil =>
        cases hrest
    | cons e ds =>
        obtain ⟨rfl, -⟩ := eq_dot_of_dottedChars hrest
        exact ⟨ds, rfl⟩
  · exact .inl rfl

/-- A text whose parts are the first ones of another text is that text, or ends at a dot of it. -/
theorem eq_or_isPrefix_of_dottedChars
    {cs ds : List Char}
    (hne : cs ≠ [])
    (hdot : cs.getLast? ≠ some '.')
    (h : dottedChars cs <+: dottedChars ds) :
    ds = cs ∨ cs ++ ['.'] <+: ds := by
  induction cs generalizing ds with
  | nil =>
      exact absurd rfl hne
  | cons c cs ih =>
      cases ds with
      | nil =>
          have hnil : dottedChars (c :: cs) = [] := List.prefix_nil.mp h
          exact absurd hnil (dottedChars_ne_nil hne)
      | cons d ds =>
          cases cs with
          | nil =>
              exact eq_or_isPrefix_of_dottedChars_singleton (by simpa using hdot) h
          | cons c' cs =>
              have hlast : (c' :: cs).getLast? ≠ some '.' := by
                simpa using hdot
              obtain ⟨rfl, hinner⟩ :=
                eq_and_isPrefix_of_dottedChars (List.cons_ne_nil c' cs) hlast h
              rcases ih (List.cons_ne_nil c' cs) hlast hinner with rfl | hprefix
              · exact .inl rfl
              · exact .inr (by simpa using hprefix)

theorem covers_iff
    {pattern name : String} :
    covers pattern name = true ↔ name = pattern ∨ pattern.toList ++ ['.'] <+: name.toList := by
  simp [covers]

/-- A pattern covers a name if its dotted parts are the first ones of the name. -/
theorem covers_iff_parts_isPrefix
    {pattern name : String}
    (hne : pattern ≠ "")
    (hdot : ¬ EndsInDot pattern) :
    covers pattern name = true ↔ dottedParts pattern <+: dottedParts name := by
  have hchars : pattern.toList ≠ [] := by
    simpa using hne
  rw [covers_iff]
  constructor
  · rintro (rfl | ⟨rest, hrest⟩)
    · exact List.prefix_rfl
    · refine ⟨(dottedChars rest).map String.ofList, ?_⟩
      unfold dottedParts
      rw [← hrest, List.append_assoc, ← List.map_append]
      exact congrArg _ (dottedChars_append_dot hchars hdot rest).symm
  · rintro ⟨rest, hrest⟩
    have hinj : Function.Injective String.ofList := fun _ _ h => String.ofList_injective h
    have hprefix : dottedChars pattern.toList <+: dottedChars name.toList := by
      refine (List.prefix_map_iff_of_injective hinj).mp ⟨rest, hrest⟩
    rcases eq_or_isPrefix_of_dottedChars hchars hdot hprefix with heq | hprefix
    · exact .inl (String.toList_inj.mp heq)
    · exact .inr hprefix

/-- A pattern is a leading part of the names it covers. -/
theorem isPrefix_of_covers
    {pattern name : String}
    (h : covers pattern name = true) :
    pattern.toList <+: name.toList := by
  rcases covers_iff.mp h with rfl | hprefix
  · exact List.prefix_rfl
  · exact (List.prefix_append _ _).trans hprefix

/-- Of two leading parts of a name the shorter one comes first. -/
theorem lt_of_isPrefix
    {a b : String}
    (h : a.toList <+: b.toList)
    (hne : a ≠ b) :
    a < b := by
  have hle : ¬ b.toList < a.toList :=
    List.not_lt.mpr h.le
  rcases lt_trichotomy a b with hlt | heq | hgt
  · exact hlt
  · exact absurd heq hne
  · exact absurd (String.lt_iff_toList_lt.mp hgt) hle

/-- Of two patterns that cover a name, the one that does not come later is not longer. -/
theorem length_le_of_covers
    {a b name : String}
    (ha : covers a name = true)
    (hb : covers b name = true)
    (hle : ¬ b < a) :
    a.length ≤ b.length := by
  by_contra hlt
  have hlonger : b.length < a.length := by omega
  have hprefix : b.toList <+: a.toList :=
    List.prefix_of_prefix_length_le (isPrefix_of_covers hb) (isPrefix_of_covers ha) (by
      simpa [String.length_toList] using Nat.le_of_lt hlonger)
  refine hle (lt_of_isPrefix hprefix ?_)
  rintro rfl
  omega

/-- Two patterns of one length that cover a name are the same. -/
theorem eq_of_covers
    {a b name : String}
    (ha : covers a name = true)
    (hb : covers b name = true)
    (hlength : a.length = b.length) :
    a = b := by
  have hprefix : a.toList <+: b.toList :=
    List.prefix_of_prefix_length_le (isPrefix_of_covers ha) (isPrefix_of_covers hb) (by
      simp [String.length_toList, hlength])
  have hsame : a.toList.length = b.toList.length := by
    simpa [String.length_toList] using hlength
  exact String.toList_inj.mp (List.IsPrefix.eq_of_length hprefix hsame)

end Scope
end LineScopes
