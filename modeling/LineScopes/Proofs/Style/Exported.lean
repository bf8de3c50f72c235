import LineScopes.Proofs.Style.ColorMap

/-!
# Colors that are taken over

A growing map keeps colors in uppercase, each one once. If they stay as they are in uppercase, a fixed
map of them gives every one the number it had.

**Main definitions.** `ColorMap.Settled`, `ColorMap.IsSettled`, `ColorMap.Stable`.

**Main statements.** `upper_upper`: ASCII texts in uppercase. `IsSettled.of_id`: the colors of a
growing map. `Settled.grows`: the fixed map of its colors.
-/

namespace LineScopes

namespace Unicode

theorem toUpper_ascii
    {c : Char}
    (h : c.toNat < 0x80) :
    c.toUpper.toNat < 0x80 ∧ c.toUpper.toUpper = c.toUpper := by
  have hall : ∀ n < 0x80, (Char.ofNat n).toUpper.toNat < 0x80 ∧
      (Char.ofNat n).toUpper.toUpper = (Char.ofNat n).toUpper := by
    decide +kernel
  have hc := hall c.toNat h
  rwa [Char.ofNat_toNat] at hc

theorem toList_upper
    {s : String}
    (h : ∀ c ∈ s.toList, c.toNat < 0x80) :
    (upper s).toList = s.toList.map Char.toUpper := by
  rw [upper, String.toList_ofList]
  generalize s.toList = cs at h ⊢
  induction cs with
  | nil =>
      rfl
  | cons c cs ih =>
      have hc : upperChar c = [c.toUpper] :=
        if_pos (h c List.mem_cons_self)
      rw [List.flatMap_cons, hc, ih fun d hd => h d (List.mem_cons_of_mem c hd)]
      rfl

/-- An ASCII text in uppercase stays as it is in uppercase. -/
theorem upper_upper
    {s : String}
    (h : ∀ c ∈ s.toList, c.toNat < 0x80) :
    upper (upper s) = upper s := by
  have hupper : ∀ c ∈ (upper s).toList, c.toNat < 0x80 := by
    rw [toList_upper h]
    intro c hc
    obtain ⟨d, hd, rfl⟩ := List.mem_map.mp hc
    exact (toUpper_ascii (h d hd)).1
  apply String.toList_inj.mp
  rw [toList_upper hupper, toList_upper h, List.map_map]
  exact List.map_congr_left fun c hc => (toUpper_ascii (h c hc)).2

theorem toNat_lt_of_isHexDigit
    {c : Char}
    (h : isHexDigit c = true) :
    c.toNat < 0x80 := by
  simp only [isHexDigit, Char.isDigit, Bool.or_eq_true, Bool.and_eq_true, decide_eq_true_eq,
    Char.le_def, UInt32.le_iff_toNat_le] at h
  have hcodes : (48 ≤ c.toNat ∧ c.toNat ≤ 57 ∨ 97 ≤ c.toNat ∧ c.toNat ≤ 102) ∨
      65 ≤ c.toNat ∧ c.toNat ≤ 70 := h
  omega

end Unicode

namespace ColorMap

/-- Colors that stay as they are in uppercase, each one once. -/
structure Settled (seen : List String) : Prop where
  nodup : seen.Nodup
  upper : ∀ c ∈ seen, Unicode.upper c = c

/-- A growing map whose colors are settled. -/
def IsSettled (m : ColorMap) : Prop :=
  ∃ seen, m = growing seen ∧ Settled seen

/-- An uppercase color stays as it is in uppercase. -/
def Stable (color : Option String) : Prop :=
  ∀ c, color = some c → Unicode.upper (Unicode.upper c) = Unicode.upper c

variable {m m' : ColorMap} {seen : List String} {color : String} {n : Nat}

/-- Asking for a color that is stable leaves the colors settled. -/
theorem IsSettled.of_id
    (h : m.IsSettled)
    (hstable : Unicode.upper (Unicode.upper color) = Unicode.upper color)
    (hid : m.id color = .ok (n, m')) :
    m'.IsSettled := by
  obtain ⟨seen, rfl, hseen⟩ := h
  rcases growing_id seen color with ⟨i, -, hgrowing⟩ | ⟨hnew, hgrowing⟩
  · rw [hgrowing] at hid
    cases hid
    exact ⟨seen, rfl, hseen⟩
  · rw [hgrowing] at hid
    cases hid
    refine ⟨_, rfl, ?_, ?_⟩
    · have hnot : Unicode.upper color ∉ seen := fun hmem => by
        simpa using List.findIdx?_eq_none_iff.mp hnew _ hmem
      refine List.nodup_append.mpr ⟨hseen.nodup, List.pairwise_singleton _ _, ?_⟩
      rintro c hc d hd rfl
      exact hnot (List.mem_singleton.mp hd ▸ hc)
    · intro c hc
      rcases List.mem_append.mp hc with hc | hc
      · exact hseen.upper c hc
      · obtain rfl := List.mem_singleton.mp hc
        exact hstable

theorem IsSettled.of_id?
    {color : Option String}
    (h : m.IsSettled)
    (hstable : Stable color)
    (hid : m.id? color = .ok (n, m')) :
    m'.IsSettled := by
  cases color with
  | none =>
      simp only [id?, Except.ok.injEq, Prod.mk.injEq] at hid
      exact hid.2 ▸ h
  | some color =>
      exact h.of_id (hstable color rfl) hid

/-- In settled colors the last place of a color is its first place. -/
theorem Settled.lastIndex?_eq
    (h : Settled seen)
    (wanted : String) :
    lastIndex? (fun c => Unicode.upper c == wanted) seen = seen.findIdx? (· == wanted) := by
  induction seen with
  | nil =>
      rfl
  | cons c seen ih =>
      obtain ⟨hnew, hnodup⟩ := List.nodup_cons.mp h.nodup
      have hseen : Settled seen := ⟨hnodup, fun d hd => h.upper d (List.mem_cons_of_mem c hd)⟩
      rw [lastIndex?, ih hseen, List.findIdx?_cons, h.upper c List.mem_cons_self]
      by_cases hc : c = wanted
      · subst hc
        have hnone : seen.findIdx? (· == c) = none := by
          refine List.findIdx?_eq_none_iff.mpr fun d hd => beq_eq_false_iff_ne.mpr ?_
          rintro rfl
          exact hnew hd
        simp [hnone]
      · cases seen.findIdx? (· == wanted) <;> simp [hc]

/-- Every color keeps its number in the fixed map of the colors. -/
theorem Settled.grows
    (h : Settled seen) :
    (growing seen).Grows (fixed (growing seen).colors) := by
  intro color n hknows
  obtain ⟨i, hfound, rfl⟩ := knows_growing_iff.mp hknows
  refine ⟨?_, Nat.succ_ne_zero i⟩
  unfold id
  dsimp only [colors]
  rw [lastIndex?, h.lastIndex?_eq, hfound]

end ColorMap
end LineScopes
