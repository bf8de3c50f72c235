import LineScopes.Style.ColorMap

/-!
# Numbers of colors

A color that has been given a number keeps it, whatever other colors are given numbers later, and its
number is not the one for "not set".

**Main definitions.** `ColorMap.Knows`, `ColorMap.number`.

**Main statements.** `knows_of_id`, `Knows.of_id`. `exists_growing_id?`: only a fixed map can fail.
`id_eq_error`: it fails for a color that is missing.
-/

namespace LineScopes
namespace ColorMap

/-- A color has a number already. -/
def Knows
    (m : ColorMap)
    (color : String)
    (n : Nat) : Prop :=
  m.id color = .ok (n, m) ∧ n ≠ 0

/-- The number of a color; 0 if it cannot have one. -/
def number
    (m : ColorMap)
    (color : String) : Nat :=
  match m.id color with
  | .ok (n, _) => n
  | .error _ => 0

variable {m m' : ColorMap} {color other : String} {n k : Nat}

theorem Knows.number_eq
    (h : m.Knows color n) :
    m.number color = n := by
  unfold number
  rw [h.1]

/-- A growing map finds the number of a color, or gives it the next one. -/
theorem growing_id
    (seen : List String)
    (color : String) :
    (∃ i, seen.findIdx? (· == Unicode.upper color) = some i ∧
      (growing seen).id color = .ok (i + 1, growing seen)) ∨
    (seen.findIdx? (· == Unicode.upper color) = none ∧
      (growing seen).id color = .ok (seen.length + 1, growing (seen ++ [Unicode.upper color]))) := by
  unfold id
  dsimp only
  cases seen.findIdx? (· == Unicode.upper color) with
  | none => exact Or.inr ⟨rfl, rfl⟩
  | some i => exact Or.inl ⟨i, rfl, rfl⟩

/-- A growing map has a number for every color. -/
theorem exists_growing_id?
    (seen : List String)
    (color : Option String) :
    ∃ n seen', (growing seen).id? color = .ok (n, growing seen') := by
  cases color with
  | none =>
      exact ⟨0, seen, rfl⟩
  | some color =>
      rcases growing_id seen color with ⟨i, -, hid⟩ | ⟨-, hid⟩
      · exact ⟨_, _, hid⟩
      · exact ⟨_, _, hid⟩

theorem knows_growing_iff
    {seen : List String} :
    (growing seen).Knows color n ↔
      ∃ i, seen.findIdx? (· == Unicode.upper color) = some i ∧ n = i + 1 := by
  unfold Knows
  rcases growing_id seen color with ⟨i, hfound, hid⟩ | ⟨hfound, hid⟩
  · simp [hid, hfound, eq_comm]
    omega
  · simp [hid, hfound]

theorem fixed_id
    {colors : List String}
    (h : (fixed colors).id color = .ok (n, m)) :
    m = fixed colors ∧ n ≠ 0 := by
  unfold id at h
  dsimp only at h
  split at h
  · simp only [Except.ok.injEq, Prod.mk.injEq] at h
    exact ⟨h.2.symm, by omega⟩
  · cases h

/-- A color that is asked for has its number from then on. -/
theorem knows_of_id
    (h : m.id color = .ok (n, m')) :
    m'.Knows color n := by
  cases m with
  | fixed colors =>
      obtain ⟨rfl, hn⟩ := fixed_id h
      exact ⟨h, hn⟩
  | growing seen =>
      rcases growing_id seen color with ⟨i, hfound, hid⟩ | ⟨hfound, hid⟩
      · rw [hid] at h
        cases h
        exact knows_growing_iff.mpr ⟨i, hfound, rfl⟩
      · rw [hid] at h
        cases h
        refine knows_growing_iff.mpr ⟨seen.length, ?_, rfl⟩
        simp [List.findIdx?_append, hfound]

/-- Other colors do not change the number of a color. -/
theorem Knows.of_id
    (hknows : m.Knows color n)
    (h : m.id other = .ok (k, m')) :
    m'.Knows color n := by
  cases m with
  | fixed colors =>
      obtain ⟨rfl, -⟩ := fixed_id h
      exact hknows
  | growing seen =>
      obtain ⟨i, hi, rfl⟩ := knows_growing_iff.mp hknows
      rcases growing_id seen other with ⟨j, -, hid⟩ | ⟨-, hid⟩
      · rw [hid] at h
        cases h
        exact hknows
      · rw [hid] at h
        cases h
        exact knows_growing_iff.mpr ⟨i, by simp [List.findIdx?_append, hi], rfl⟩

/-- A color has no number only because it is missing. -/
theorem id_eq_error
    {e : Error}
    (h : m.id color = .error e) :
    ∃ c, e = .missingColor c := by
  unfold id at h
  dsimp only at h
  cases m with
  | growing seen =>
      dsimp only at h
      split at h <;> cases h
  | fixed colors =>
      dsimp only at h
      split at h
      · cases h
      · cases h
        exact ⟨_, rfl⟩

theorem id?_eq_error
    {color : Option String}
    {e : Error}
    (h : m.id? color = .error e) :
    ∃ c, e = .missingColor c := by
  cases color with
  | none =>
      cases h
  | some color =>
      exact id_eq_error h

/-- A map that has met more colors. -/
def Grows (m m' : ColorMap) : Prop :=
  ∀ color n, m.Knows color n → m'.Knows color n

theorem grows_of_id?
    {color : Option String}
    (h : m.id? color = .ok (n, m')) :
    m.Grows m' := by
  cases color with
  | none =>
      simp only [id?, Except.ok.injEq, Prod.mk.injEq] at h
      obtain ⟨-, rfl⟩ := h
      exact fun _ _ hknows => hknows
  | some color =>
      exact fun _ _ hknows => hknows.of_id h

end ColorMap
end LineScopes
