import LineScopes.Proofs.Pattern.Reading
import Mathlib.Data.List.Basic

/-!
# The variants of a pattern

A pattern is prepared once and then given to an engine in four variants, one for each setting of the
anchors. Preparing it again changes nothing, and a variant differs from it only where the letter of
an anchor stands that is not allowed.

**Main definitions.** `LetterAt`, `Anchors.Disables`, `IsVariant`.

**Main statements.** `isVariant_variant`: every character of a variant. `ofPattern_variants`:
preparing a pattern and its variants.
-/

namespace LineScopes

/-- The anchor of an escape pair with this letter is not allowed. -/
def Anchors.Disables
    (a : Anchors)
    (letter : Char) : Prop :=
  letter = 'A' ∧ a.allowA = false ∨ letter = 'G' ∧ a.allowG = false

namespace PatternSource

open PatternPart

theorem anchorLetter_of_disables
    {a : Anchors}
    {letter : Char}
    (h : a.Disables letter) :
    anchorLetter a letter = disabled := by
  rcases h with ⟨rfl, hA⟩ | ⟨rfl, hG⟩
  · simp [anchorLetter, hA]
  · simp [anchorLetter, hG]

theorem anchorLetter_of_not_disables
    {a : Anchors}
    {letter : Char}
    (h : ¬ a.Disables letter) :
    anchorLetter a letter = letter := by
  obtain ⟨hA, hG⟩ := not_or.mp h
  simp only [anchorLetter, Bool.and_eq_true, decide_eq_true_eq, Bool.not_eq_true']
  rw [if_neg hA, if_neg hG]

section Parts

variable {parts : List PatternPart} {n : Nat} {letter : Char}

/-- In the characters of some parts, the letter of a pair stands at this place. -/
def PairAt
    (parts : List PatternPart)
    (n : Nat)
    (letter : Char) : Prop :=
  ∃ before after, parts = before ++ .pair letter :: after ∧ n = (write before).length + 1

/-- The letter of an escape pair of a pattern stands at this place. -/
def LetterAt
    (cs : List Char)
    (n : Nat)
    (letter : Char) : Prop :=
  PairAt (read cs) n letter

@[simp] theorem length_chars_disabledPart
    (a : Anchors)
    (part : PatternPart) :
    (disabledPart a part).chars.length = part.chars.length := by
  cases part <;> rfl

@[simp] theorem length_write_disabledPart
    (a : Anchors)
    (parts : List PatternPart) :
    (write (parts.map (disabledPart a))).length = (write parts).length := by
  induction parts with
  | nil =>
      rfl
  | cons part parts ih =>
      simp [ih]

theorem exists_pairAt
    (h : .pair letter ∈ parts) :
    ∃ n, PairAt parts n letter := by
  obtain ⟨before, after, rfl⟩ := List.append_of_mem h
  exact ⟨_, before, after, rfl, rfl⟩

theorem PairAt.cons
    (part : PatternPart)
    (h : PairAt parts n letter) :
    PairAt (part :: parts) (part.chars.length + n) letter := by
  obtain ⟨before, after, rfl, rfl⟩ := h
  exact ⟨part :: before, after, rfl, by simp [Nat.add_assoc]⟩

/-- What stands at the place of a letter, before and after anchors have been disabled. -/
theorem PairAt.getElem?_eq
    (h : PairAt parts n letter)
    (a : Anchors) :
    (write parts)[n]? = some letter ∧
      (write (parts.map (disabledPart a)))[n]? = some (anchorLetter a letter) := by
  obtain ⟨before, after, rfl, rfl⟩ := h
  have hwrite : ∀ front back : List PatternPart,
      write (front ++ back) = write front ++ write back :=
    fun front back => List.flatMap_append
  constructor
  · rw [hwrite, List.getElem?_append_right (Nat.le_succ _)]
    simp [chars]
  · rw [List.map_append, hwrite, List.getElem?_append_right (by simp)]
    simp [chars, disabledPart]

/-- Disabling anchors changes nothing but letters of pairs. -/
theorem exists_pairAt_of_ne
    {a : Anchors}
    (h : (write (parts.map (disabledPart a)))[n]? ≠ (write parts)[n]?) :
    ∃ letter, PairAt parts n letter := by
  induction parts generalizing n with
  | nil =>
      exact absurd rfl h
  | cons part parts ih =>
      simp only [List.map_cons, write_cons] at h
      by_cases hn : n < part.chars.length
      · rw [List.getElem?_append_left hn, List.getElem?_append_left (by simpa using hn)] at h
        cases part with
        | pair c =>
            have hplace : n = 1 := by
              simp only [chars, List.length_cons, List.length_nil] at hn
              rcases n with _ | n
              · exact absurd rfl h
              · omega
            exact ⟨c, [], parts, rfl, hplace⟩
        | single c =>
            exact absurd rfl h
        | reference digits =>
            exact absurd rfl h
        | lone =>
            exact absurd rfl h
      · rw [List.getElem?_append_right (Nat.not_lt.mp hn),
          List.getElem?_append_right (by simpa using hn), length_chars_disabledPart] at h
        obtain ⟨letter, hletter⟩ := ih h
        have hplace := hletter.cons part
        rw [Nat.add_sub_cancel' (Nat.not_lt.mp hn)] at hplace
        exact ⟨letter, hplace⟩

end Parts

/-- A variant is made pair by pair, also if there is nothing to disable. -/
theorem toList_variant
    (p : PatternSource)
    (a : Anchors) :
    (p.variant a).toList = write ((read p.text.toList).map (disabledPart a)) := by
  unfold variant
  split
  · rw [String.toList_ofList, disableAnchors_eq]
  · rename_i hanchor
    have hsame : ∀ part ∈ read p.text.toList, disabledPart a part = part := by
      intro part hpart
      cases part with
      | pair letter =>
          have hnot : ¬ a.Disables letter := by
            rintro (⟨rfl, -⟩ | ⟨rfl, -⟩)
            · exact hanchor ((anchored_iff _).mpr (.inl hpart))
            · exact hanchor ((anchored_iff _).mpr (.inr hpart))
          rw [disabledPart, anchorLetter_of_not_disables hnot]
      | single c =>
          rfl
      | reference digits =>
          rfl
      | lone =>
          rfl
    rw [List.map_congr_left hsame, List.map_id', write_read]

/-- How a variant of a pattern looks. -/
structure IsVariant
    (source : List Char)
    (a : Anchors)
    (variant : List Char) : Prop where
  length_eq : variant.length = source.length
  /-- It differs from the pattern at the letters of the anchors that are not allowed. -/
  differs_iff : ∀ n : Nat, variant[n]? ≠ source[n]? ↔
    ∃ letter, LetterAt source n letter ∧ a.Disables letter
  eq_disabled : ∀ n : Nat, variant[n]? ≠ source[n]? → variant[n]? = some disabled

theorem isVariant_variant
    (p : PatternSource)
    (a : Anchors) :
    IsVariant p.text.toList a (p.variant a).toList := by
  have hletter : ∀ {n letter}, LetterAt p.text.toList n letter →
      p.text.toList[n]? = some letter ∧
        (p.variant a).toList[n]? = some (anchorLetter a letter) := by
    intro n letter h
    have hplace := PairAt.getElem?_eq h a
    rwa [write_read, ← toList_variant] at hplace
  have hdiffers : ∀ {n}, (p.variant a).toList[n]? ≠ p.text.toList[n]? →
      ∃ letter, LetterAt p.text.toList n letter ∧ a.Disables letter := by
    intro n h
    obtain ⟨letter, hplace⟩ : ∃ letter, LetterAt p.text.toList n letter :=
      exists_pairAt_of_ne (a := a) (by rwa [write_read, ← toList_variant])
    obtain ⟨hsource, hvariant⟩ := hletter hplace
    refine ⟨letter, hplace, ?_⟩
    by_contra hnot
    rw [hsource, hvariant, anchorLetter_of_not_disables hnot] at h
    exact h rfl
  refine ⟨?_, fun n => ⟨hdiffers, ?_⟩, ?_⟩
  · rw [toList_variant, length_write_disabledPart, write_read]
  · rintro ⟨letter, hplace, hdisables⟩
    obtain ⟨hsource, hvariant⟩ := hletter hplace
    rw [hsource, hvariant, anchorLetter_of_disables hdisables]
    rcases hdisables with ⟨rfl, -⟩ | ⟨rfl, -⟩ <;> decide
  · intro n h
    obtain ⟨letter, hplace, hdisables⟩ := hdiffers h
    rw [(hletter hplace).2, anchorLetter_of_disables hdisables]

theorem variant_of_all_allowed
    (p : PatternSource) :
    p.variant ⟨true, true⟩ = p.text := by
  have hsame : disabledPart ⟨true, true⟩ = id := by
    funext part
    cases part <;> simp [disabledPart, anchorLetter]
  rw [← String.toList_inj, toList_variant, hsame, List.map_id, write_read]

/-- A pattern has anchors if one of its variants differs from it. -/
theorem hasAnchor_iff
    (p : PatternSource) :
    p.hasAnchor = true ↔ ∃ a, p.variant a ≠ p.text := by
  constructor
  · intro h
    obtain ⟨letter, hmem, hdisables⟩ : ∃ letter, .pair letter ∈ read p.text.toList ∧
        (⟨false, false⟩ : Anchors).Disables letter := by
      rcases (anchored_iff _).mp h with hA | hG
      · exact ⟨'A', hA, .inl ⟨rfl, rfl⟩⟩
      · exact ⟨'G', hG, .inr ⟨rfl, rfl⟩⟩
    obtain ⟨n, hplace⟩ := exists_pairAt hmem
    have hdiffers := ((isVariant_variant p ⟨false, false⟩).differs_iff n).mpr
      ⟨letter, hplace, hdisables⟩
    exact ⟨⟨false, false⟩, fun hsame => hdiffers (by rw [hsame])⟩
  · rintro ⟨a, ha⟩
    by_contra h
    exact ha (if_neg h)

/-- Preparing a pattern rewrites the ends of the text and nothing else, so that doing it again
changes nothing. Its variants differ from it at the anchors that are not allowed. -/
theorem ofPattern_variants
    (pattern : String) :
    ofPattern (ofPattern pattern).text = ofPattern pattern ∧
    (ofPattern pattern).text.toList = (read pattern.toList).flatMap
      (fun part => if part = .pair 'z' then lineEnd.toList else part.chars) ∧
    read (ofPattern pattern).text.toList = (read pattern.toList).flatMap
      (fun part => if part = .pair 'z' then read lineEnd.toList else [part]) ∧
    .pair 'z' ∉ read (ofPattern pattern).text.toList ∧
    (ofPattern pattern).hasAnchor = anchored pattern.toList ∧
    (∀ a, IsVariant (ofPattern pattern).text.toList a ((ofPattern pattern).variant a).toList) ∧
    (ofPattern pattern).variant ⟨true, true⟩ = (ofPattern pattern).text ∧
    ((ofPattern pattern).hasAnchor = true ↔
      ∃ a, (ofPattern pattern).variant a ≠ (ofPattern pattern).text) := by
  have hread : read (ofPattern pattern).text.toList = (read pattern.toList).flatMap ended := by
    rw [toList_ofPattern, read_replaceEnd]
  have hends := end_not_mem_read_ofPattern pattern
  refine ⟨?_, ?_, ?_, hends, ?_, isVariant_variant _, variant_of_all_allowed _, hasAnchor_iff _⟩
  · rw [ofPattern, replaceEnd_of_not_mem hends, String.ofList_toList]
  · rw [← write_read (ofPattern pattern).text.toList, hread, write, List.flatMap_assoc]
    refine List.flatMap_congr fun part _ => ?_
    unfold ended
    split
    · exact write_endParts
    · exact List.append_nil _
  · have hend := read_lineEnd_append []
    rw [List.append_nil, read_nil, List.append_nil] at hend
    rw [hread, hend]
    rfl
  · rw [Bool.eq_iff_iff, hasAnchor, toList_ofPattern, anchored_iff, anchored_iff,
      pair_mem_read_replaceEnd_iff (by decide), pair_mem_read_replaceEnd_iff (by decide)]
    simp

/-- An escaped backslash escapes nothing. -/
example :
    (ofPattern "\\\\G\\G\\z").variant ⟨true, false⟩ = "\\\\G\\\uffff$(?!\\n)(?<!\\n)" := by
  decide

end PatternSource

end LineScopes
