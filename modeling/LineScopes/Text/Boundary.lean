import LineScopes.Text.Offset

/-!
# Boundaries of a text

An offset is a boundary if the text can be cut there. A step over a character leads from one
boundary to the next, and a part of a text has the boundaries of the text.

**Main statements.** `isBoundary_iff_exists_append`, `IsBoundary.nextOffset`,
`utf8ByteSize_of_slice?`, `isBoundary_append_iff`, `slice?_append`, `sliceFrom_append`,
`isBoundary_of_slice?_zero`.
-/

namespace LineScopes
namespace Text

theorem isBoundary_iff_exists_append
    {s : String}
    {n : Nat} :
    IsBoundary s n ↔ ∃ before after, s = before ++ after ∧ n = before.utf8ByteSize := by
  constructor
  · intro h
    obtain ⟨before, after, hs, hn⟩ := String.Pos.Raw.isValid_iff_exists_append.mp h
    exact ⟨before, after, hs, congrArg String.Pos.Raw.byteIdx hn⟩
  · rintro ⟨before, after, hs, hn⟩
    exact String.Pos.Raw.isValid_iff_exists_append.mpr ⟨before, after, hs, by rw [hn]; rfl⟩

/-- Inside a text a boundary has a character behind it, and the next boundary follows. -/
theorem IsBoundary.exists_charAt?
    {s : String}
    {n : Nat}
    (h : IsBoundary s n)
    (hn : n < s.utf8ByteSize) :
    ∃ c, charAt? s n = some c ∧ IsBoundary s (n + c.utf8Size) := by
  have hne : s.pos ⟨n⟩ h ≠ s.endPos := by
    intro heq
    have h' := congrArg (fun p : s.Pos => p.offset.byteIdx) heq
    simp only [String.offset_pos, String.offset_endPos, String.byteIdx_rawEndPos] at h'
    omega
  refine ⟨(s.pos ⟨n⟩ h).get hne, ?_, ?_⟩
  · unfold charAt?
    rw [dif_pos h]
    have hs : (s.pos ⟨n⟩ h).toSlice ≠ s.toSlice.endPos := by
      rw [String.endPos_toSlice]
      exact fun heq => hne (String.Pos.toSlice_inj.mp heq)
    show (s.pos ⟨n⟩ h).toSlice.get? = _
    rw [String.Slice.Pos.get?_eq_some_get hs]
    simp
  · have := ((s.pos ⟨n⟩ h).next hne).isValid
    rw [String.Pos.offset_next] at this
    exact this

theorem IsBoundary.nextOffset
    {s : String}
    {n : Nat}
    (h : IsBoundary s n)
    (hn : n < s.utf8ByteSize) :
    IsBoundary s (nextOffset s n) := by
  obtain ⟨c, hc, hb⟩ := h.exists_charAt? hn
  simpa [Text.nextOffset, hc] using hb

theorem utf8ByteSize_of_slice?
    {s t : String}
    {first last : Nat}
    (h : slice? s first last = some t) :
    t.utf8ByteSize = last - first := by
  unfold slice? at h
  split at h
  · rename_i hb
    have hl := hb.2.1.le_utf8ByteSize
    simp only [Option.some.injEq] at h
    subst h
    show (s.toByteArray.extract first last).size = _
    have : s.toByteArray.size = s.utf8ByteSize := rfl
    simp [ByteArray.size_extract, this]
    omega
  · simp at h

/-- What follows a text adds no boundary inside of it. -/
theorem isBoundary_append_iff
    {s t : String}
    {n : Nat}
    (hn : n ≤ s.utf8ByteSize) :
    IsBoundary (s ++ t) n ↔ IsBoundary s n := by
  constructor
  · intro h
    obtain ⟨a, b, hab, rfl⟩ := isBoundary_iff_exists_append.mp h
    have hl : s.toList ++ t.toList = a.toList ++ b.toList := by
      rw [← String.toList_append, hab, String.toList_append]
    rcases List.append_eq_append_iff.mp hl with ⟨c, hc, -⟩ | ⟨c, hc, -⟩
    · -- the part before the boundary is no longer than the text, so they are the same
      have ha : a = s ++ String.ofList c := by
        rw [← String.ofList_toList (s := a), hc, String.ofList_append, String.ofList_toList]
      rw [ha, String.utf8ByteSize_append] at hn ⊢
      have hzero : (String.ofList c).utf8ByteSize = 0 := by omega
      rw [hzero]
      exact isBoundary_utf8ByteSize s
    · have hs : s = a ++ String.ofList c := by
        rw [← String.ofList_toList (s := s), hc, String.ofList_append, String.ofList_toList]
      exact isBoundary_iff_exists_append.mpr ⟨a, _, hs, rfl⟩
  · intro h
    obtain ⟨a, b, hab, rfl⟩ := isBoundary_iff_exists_append.mp h
    exact isBoundary_iff_exists_append.mpr ⟨a, b ++ t, by rw [hab, String.append_assoc], rfl⟩

theorem isBoundary_append
    (before after : String) :
    IsBoundary (before ++ after) before.utf8ByteSize :=
  isBoundary_iff_exists_append.mpr ⟨before, after, rfl, rfl⟩

/-- What stands between two parts of a text is cut out at their ends. -/
theorem slice?_append
    (before s after : String) :
    slice? (before ++ (s ++ after)) before.utf8ByteSize (before.utf8ByteSize + s.utf8ByteSize) =
      some s := by
  have hlast := isBoundary_append (before ++ s) after
  rw [String.append_assoc, String.utf8ByteSize_append] at hlast
  unfold slice?
  rw [dif_pos ⟨isBoundary_append before _, hlast, Nat.le_add_right _ _⟩, Option.some.injEq]
  apply String.toByteArray_inj.mp
  show (before ++ (s ++ after)).toByteArray.extract (before.toByteArray.size + 0)
    (before.toByteArray.size + s.toByteArray.size) = s.toByteArray
  rw [String.toByteArray_append, String.toByteArray_append, ByteArray.extract_append_size_add,
    ByteArray.extract_append_eq_left rfl]

theorem slice?_append_right
    (before after : String) :
    slice? (before ++ after) before.utf8ByteSize (before ++ after).utf8ByteSize = some after := by
  have hafter := slice?_append before after ""
  rwa [String.append_empty, ← String.utf8ByteSize_append] at hafter

theorem sliceFrom_append
    (before after : String) :
    sliceFrom (before ++ after) before.utf8ByteSize = after := by
  rw [sliceFrom, slice, slice?_append_right, Option.getD_some]

/-- A part of a text is cut where the text itself can be cut. -/
theorem isBoundary_of_slice?_zero
    {s t : String}
    {last n : Nat}
    (h : slice? s 0 last = some t) :
    IsBoundary t n ↔ IsBoundary s n ∧ n ≤ last := by
  unfold slice? at h
  split at h
  · rename_i hb
    simp only [Option.some.injEq] at h
    obtain ⟨before, after, hs, hlast⟩ := isBoundary_iff_exists_append.mp hb.2.1
    have ht : t = before := by
      subst h hs hlast
      apply String.toByteArray_inj.mp
      show (before ++ after).toByteArray.extract 0 before.utf8ByteSize = before.toByteArray
      simp [String.toByteArray_append, ByteArray.extract_append_eq_left]
    subst ht hs hlast
    constructor
    · intro hn
      exact ⟨(isBoundary_append_iff hn.le_utf8ByteSize).mpr hn, hn.le_utf8ByteSize⟩
    · rintro ⟨hn, hle⟩
      exact (isBoundary_append_iff hle).mp hn
  · simp at h

end Text
end LineScopes
