import LineScopes.Proofs.Pattern.Reading
import Mathlib.Data.List.Chain

/-!
# References to captured texts

The end pattern of a region may refer to the texts captured by its begin pattern. References are
found without a reading of the pattern, by a backslash with a digit behind it. This agrees with the
reading unless the backslash is escaped itself. Captured text is escaped, so that it is never read
as anything but plain characters.

**Main definitions.** `PatternPart.Clear`, `PatternPart.inserted`, `IsResolved`.

**Main statements.** `refersBack_iff`, `resolve_eq_iff`, `isResolved_resolve`.
`references_ofPattern` puts them together.
-/

namespace LineScopes

namespace PatternPart

/-- Where the part stands for a group, the text of the group stands in its place. -/
def inserted
    (group : List Char → List Char) : PatternPart → List Char
  | reference digits => group digits
  | part => part.chars

/-- What the inserted text is read as. -/
def insertedParts
    (group : List Char → List Char) : PatternPart → List PatternPart
  | reference digits => read (group digits)
  | part => [part]

/-- A digit. -/
def digit : PatternPart → Bool
  | single c => c.isDigit
  | _ => false

/-- No escaped backslash stands right before a digit. -/
def Clear (parts : List PatternPart) : Prop :=
  parts.IsChain fun part next => part = pair '\\' → next.digit = false

instance : DecidablePred Clear :=
  fun parts => inferInstanceAs (Decidable (parts.IsChain _))

theorem clear_cons_iff
    {part : PatternPart}
    (hpart : part ≠ pair '\\')
    (parts : List PatternPart) :
    Clear (part :: parts) ↔ Clear parts := by
  simp [Clear, List.isChain_cons, hpart]

theorem noDigit_iff
    (cs : List Char) :
    NoDigit cs ↔ ∀ part ∈ (read cs).head?, part.digit = false := by
  induction cs using byParts with
  | nil =>
      simp [NoDigit]
  | lone =>
      simp [NoDigit, digit]
  | reference c digits rest hc hdigits hrest _ =>
      rw [read_reference hc hdigits hrest]
      simp [NoDigit, digit]
  | pair c rest hc _ =>
      rw [read_pair hc]
      simp [NoDigit, digit]
  | single c rest hc _ =>
      rw [read_single hc]
      simp [NoDigit, digit]

/-- After an escaped backslash, it depends on the next character. -/
theorem clear_backslash_iff
    (cs : List Char) :
    Clear (pair '\\' :: read cs) ↔ NoDigit cs ∧ Clear (read cs) := by
  rw [Clear, List.isChain_cons, noDigit_iff]
  simp [Clear]

end PatternPart

namespace PatternSource

open PatternPart

section Finding

theorem refersBack_single
    {c : Char}
    (hc : c ≠ '\\')
    (cs : List Char) :
    refersBack (c :: cs) = refersBack cs := by
  rw [refersBack]
  rintro _ _ rfl
  exact absurd rfl hc

theorem refersBack_backslash_iff
    (cs : List Char) :
    refersBack ('\\' :: cs) = true ↔ ¬ NoDigit cs ∨ refersBack cs = true := by
  cases cs with
  | nil =>
      simp [refersBack, NoDigit]
  | cons c cs =>
      simp [refersBack, NoDigit]

/-- A reference is found if there is one, or if an escaped backslash looks like one. -/
theorem refersBack_iff
    (cs : List Char) :
    refersBack cs = true ↔ (∃ digits, .reference digits ∈ read cs) ∨ ¬ Clear (read cs) := by
  induction cs using byParts with
  | nil =>
      simp [refersBack, Clear]
  | lone =>
      simp [refersBack, Clear]
  | reference c digits rest hc hdigits hrest ih =>
      rw [read_reference hc hdigits hrest]
      simp [refersBack, hc]
  | pair c rest hc ih =>
      -- the letter is looked at again as if it did not belong to the backslash
      have hnext := noDigit_cons hc rest
      rw [refersBack_backslash_iff, read_pair hc]
      by_cases hslash : c = '\\'
      · subst hslash
        rw [refersBack_backslash_iff, clear_backslash_iff, ih]
        simp only [hnext, not_true_eq_false, false_or, List.mem_cons, reduceCtorEq]
        grind
      · rw [refersBack_single hslash, clear_cons_iff (by simpa using hslash), ih]
        simp [hnext]
  | single c rest hc ih =>
      rw [refersBack_single hc, read_single hc, clear_cons_iff (by simp), ih]
      simp

end Finding

section Replacing

variable {group : List Char → List Char}

theorem replaceReferences_single
    {c : Char}
    (hc : c ≠ '\\')
    (cs : List Char) :
    replaceReferences group (c :: cs) = c :: replaceReferences group cs := by
  rw [replaceReferences]
  simp [hc]

theorem replaceReferences_backslash
    {cs : List Char}
    (hcs : NoDigit cs) :
    replaceReferences group ('\\' :: cs) = '\\' :: replaceReferences group cs := by
  have hnone : ([] ++ cs).takeWhile Char.isDigit = [] :=
    takeWhile_digits (by simp) hcs
  rw [List.nil_append] at hnone
  rw [replaceReferences, hnone]
  simp

theorem replaceReferences_reference
    {c : Char}
    {digits cs : List Char}
    (hc : c.isDigit = true)
    (hdigits : ∀ d ∈ digits, d.isDigit = true)
    (hcs : NoDigit cs) :
    replaceReferences group ('\\' :: c :: (digits ++ cs)) =
      group (c :: digits) ++ replaceReferences group cs := by
  have hall : ∀ d ∈ c :: digits, d.isDigit = true := List.forall_mem_cons.mpr ⟨hc, hdigits⟩
  rw [← List.cons_append, replaceReferences, takeWhile_digits hall hcs, dropWhile_digits hall hcs]
  simp

/-- Without a backslash that looks like one, exactly the references are replaced. -/
theorem replaceReferences_eq
    {cs : List Char}
    (h : Clear (read cs)) :
    replaceReferences group cs = (read cs).flatMap (inserted group) := by
  induction cs using byParts with
  | nil =>
      simp [replaceReferences]
  | lone =>
      simp [replaceReferences, inserted, chars]
  | reference c digits rest hc hdigits hrest ih =>
      rw [read_reference hc hdigits hrest] at h ⊢
      rw [replaceReferences_reference hc hdigits hrest, List.flatMap_cons,
        ih ((clear_cons_iff (by simp) _).mp h)]
      rfl
  | pair c rest hc ih =>
      rw [read_pair hc] at h ⊢
      rw [replaceReferences_backslash (noDigit_cons hc rest), List.flatMap_cons]
      by_cases hslash : c = '\\'
      · subst hslash
        obtain ⟨hdigit, hrest⟩ := (clear_backslash_iff rest).mp h
        rw [replaceReferences_backslash hdigit, ih hrest]
        rfl
      · rw [replaceReferences_single hslash,
          ih ((clear_cons_iff (by simpa using hslash) _).mp h)]
        rfl
  | single c rest hc ih =>
      rw [read_single hc] at h ⊢
      rw [replaceReferences_single hc, List.flatMap_cons, ih ((clear_cons_iff (by simp) _).mp h)]
      rfl

theorem exists_of_not_noDigit
    {cs : List Char}
    (h : ¬ NoDigit cs) :
    ∃ c digits rest, cs = c :: (digits ++ rest) ∧ c.isDigit = true ∧
      (∀ d ∈ digits, d.isDigit = true) ∧ NoDigit rest := by
  cases cs with
  | nil =>
      exact absurd (by simp [NoDigit]) h
  | cons c cs =>
      have hc : c.isDigit = true := by simpa [NoDigit] using h
      exact ⟨c, _, _, by rw [List.takeWhile_append_dropWhile], hc,
        fun d hd => List.mem_takeWhile_imp hd, noDigit_dropWhile cs⟩

theorem replaceReferences_digits
    {digits : List Char}
    (hdigits : ∀ d ∈ digits, d.isDigit = true)
    (cs : List Char) :
    replaceReferences group (digits ++ cs) = digits ++ replaceReferences group cs :=
  pass_digits (fun _ cs hc => replaceReferences_single hc cs) hdigits cs

/-- Otherwise an escaped backslash is lost, which shows when the groups have no text. -/
theorem length_replaceReferences_lt
    {cs : List Char}
    (h : ¬ Clear (read cs)) :
    (replaceReferences (fun _ => []) cs).length <
      ((read cs).flatMap (inserted fun _ => [])).length := by
  induction cs using byParts with
  | nil =>
      exact absurd (by simp [Clear]) h
  | lone =>
      exact absurd (by simp [Clear]) h
  | reference c digits rest hc hdigits hrest ih =>
      rw [read_reference hc hdigits hrest] at h ⊢
      rw [replaceReferences_reference hc hdigits hrest, List.flatMap_cons]
      exact ih (mt (clear_cons_iff (by simp) _).mpr h)
  | pair c rest hc ih =>
      rw [read_pair hc] at h ⊢
      rw [replaceReferences_backslash (noDigit_cons hc rest), List.flatMap_cons]
      by_cases hslash : c = '\\'
      · subst hslash
        by_cases hdigit : NoDigit rest
        · have hrest := ih fun hclear => h ((clear_backslash_iff rest).mpr ⟨hdigit, hclear⟩)
          rw [replaceReferences_backslash hdigit]
          simpa [inserted, chars] using hrest
        · -- the digits behind the backslash are lost too
          have hle : (replaceReferences (fun _ => []) rest).length ≤
              ((read rest).flatMap (inserted fun _ => [])).length := by
            by_cases hclear : Clear (read rest)
            · rw [replaceReferences_eq hclear]
            · exact (ih hclear).le
          obtain ⟨d, digits, rest, rfl, hd, hdigits, hrest⟩ := exists_of_not_noDigit hdigit
          rw [← List.cons_append, replaceReferences_digits
            (List.forall_mem_cons.mpr ⟨hd, hdigits⟩)] at hle
          rw [replaceReferences_reference hd hdigits hrest]
          simp only [List.length_append, List.length_cons, List.nil_append, inserted, chars,
            List.cons_append] at hle ⊢
          omega
      · have hrest := ih (mt (clear_cons_iff (by simpa using hslash) _).mpr h)
        rw [replaceReferences_single hslash]
        simpa [inserted, chars] using hrest
  | single c rest hc ih =>
      have hrest := ih (mt (clear_cons_iff (by simp) _).mpr (read_single hc rest ▸ h))
      rw [read_single hc, replaceReferences_single hc, List.flatMap_cons]
      simpa [inserted, chars] using hrest

end Replacing

section Inserting

variable {group : List Char → List Char}

/-- A character as it is escaped in captured text. -/
def escapedPart (c : Char) : PatternPart :=
  if isSpecial c then .pair c else .single c

/-- A part that stands for nothing but a character: the character is escaped exactly if it has a
meaning in patterns. -/
def IsPlain : PatternPart → Prop
  | .single c => isSpecial c = false
  | .pair c => isSpecial c = true
  | .reference _ => False
  | .lone => False

theorem isSpecial_of_isDigit
    {c : Char}
    (hc : c.isDigit = true) :
    isSpecial c = false := by
  have hdigits : ∀ n < 58, 48 ≤ n → isSpecial (Char.ofNat n) = false := by
    decide
  obtain ⟨hlow, hhigh⟩ : 48 ≤ c.toNat ∧ c.toNat ≤ 57 := by
    simpa [Char.isDigit, UInt32.le_iff_toNat_le] using hc
  have hplain := hdigits c.toNat (Nat.lt_succ_of_le hhigh) hlow
  rwa [Char.ofNat_toNat] at hplain

theorem isPlain_escapedPart
    (c : Char) :
    IsPlain (escapedPart c) := by
  unfold escapedPart
  split
  · assumption
  · rename_i hc
    exact (Bool.not_eq_true _).mp hc

theorem IsPlain.solid
    {part : PatternPart}
    (h : IsPlain part) :
    part.Solid := by
  cases part with
  | single c =>
      rintro rfl
      have hslash : isSpecial '\\' = true := by decide
      exact Bool.noConfusion (hslash.symm.trans h)
  | pair c =>
      by_contra hdigit
      have hplain := isSpecial_of_isDigit ((Bool.not_eq_false _).mp hdigit)
      exact Bool.noConfusion (hplain.symm.trans h)
  | reference digits =>
      exact h
  | lone =>
      exact h

theorem read_escapeChars
    (cs : List Char) :
    read (escapeChars cs) = cs.map escapedPart := by
  have hwrite : escapeChars cs = write (cs.map escapedPart) ++ [] := by
    rw [List.append_nil, write, List.flatMap_map, escapeChars]
    refine List.flatMap_congr fun c _ => ?_
    unfold escapedPart
    split <;> rfl
  have hsolid : ∀ part ∈ cs.map escapedPart, part.Solid :=
    List.forall_mem_map.mpr fun c _ => (isPlain_escapedPart c).solid
  rw [hwrite, read_write_append hsolid, read_nil, List.append_nil]

/-- Captured text is read as plain characters. -/
theorem isPlain_of_mem_read_groupText
    {line : String}
    {groups : Groups}
    {digits : List Char}
    {part : PatternPart}
    (h : part ∈ read (groupText line groups digits)) :
    IsPlain part := by
  unfold groupText at h
  split at h
  · rw [read_escapeChars] at h
    obtain ⟨c, -, rfl⟩ := List.mem_map.mp h
    exact isPlain_escapedPart c
  · simp at h

/-- Inserted text is read on its own. -/
theorem read_flatMap_inserted
    (hgroup : ∀ digits, ∀ part ∈ read (group digits), part.Solid)
    (cs : List Char) :
    read ((read cs).flatMap (inserted group)) = (read cs).flatMap (insertedParts group) := by
  induction cs using byParts with
  | nil =>
      simp
  | lone =>
      simp [inserted, insertedParts, chars]
  | reference c digits rest hc hdigits hrest ih =>
      have hread := read_write_append (hgroup (c :: digits))
        ((read rest).flatMap (inserted group))
      rw [write_read, ih] at hread
      rw [read_reference hc hdigits hrest]
      exact hread
  | pair c rest hc ih =>
      rw [read_pair hc, List.flatMap_cons, List.flatMap_cons, ← ih]
      exact read_pair hc _
  | single c rest hc ih =>
      rw [read_single hc, List.flatMap_cons, List.flatMap_cons, ← ih]
      exact read_single hc _

theorem pair_mem_flatMap_insertedParts_iff
    {letter : Char}
    (hgroup : ∀ digits, .pair letter ∉ read (group digits))
    (parts : List PatternPart) :
    .pair letter ∈ parts.flatMap (insertedParts group) ↔ .pair letter ∈ parts := by
  rw [List.mem_flatMap]
  constructor
  · rintro ⟨part, hpart, hletter⟩
    cases part with
    | reference digits =>
        exact absurd hletter (hgroup digits)
    | single c =>
        simp [insertedParts] at hletter
    | pair c =>
        rwa [List.mem_singleton.mp hletter]
    | lone =>
        simp [insertedParts] at hletter
  · intro hletter
    exact ⟨_, hletter, List.mem_singleton_self _⟩

theorem reference_not_mem_flatMap_insertedParts
    {digits : List Char}
    (hgroup : ∀ number, .reference digits ∉ read (group number))
    (parts : List PatternPart) :
    .reference digits ∉ parts.flatMap (insertedParts group) := by
  rw [List.mem_flatMap]
  rintro ⟨part, -, hdigits⟩
  cases part with
  | reference number =>
      exact hgroup number hdigits
  | single c =>
      simp [insertedParts] at hdigits
  | pair c =>
      simp [insertedParts] at hdigits
  | lone =>
      simp [insertedParts] at hdigits

end Inserting

/-- What the pattern of a frame looks like after the texts of groups have been inserted. -/
structure IsResolved
    (p : PatternSource)
    (line : String)
    (groups : Groups)
    (resolved : String) : Prop where
  toList_eq : resolved.toList = (read p.text.toList).flatMap (inserted (groupText line groups))
  read_eq : read resolved.toList =
    (read p.text.toList).flatMap (insertedParts (groupText line groups))
  isPlain : ∀ digits, ∀ part ∈ read (groupText line groups digits), IsPlain part
  /-- No text becomes another reference. -/
  not_mem : ∀ digits, .reference digits ∉ read resolved.toList
  /-- No text becomes an anchor. -/
  pair_mem_iff : ∀ letter, letter = 'A' ∨ letter = 'G' →
    (.pair letter ∈ read resolved.toList ↔ .pair letter ∈ read p.text.toList)
  hasAnchor_eq : hasAnchor ⟨resolved⟩ = p.hasAnchor
  /-- No text becomes an end of the text, so that preparing the pattern again changes nothing. -/
  ofPattern_eq : ofPattern resolved = ⟨resolved⟩

theorem resolve_eq_iff
    (p : PatternSource) :
    (∀ line groups, (p.resolve line groups).toList =
      (read p.text.toList).flatMap (inserted (groupText line groups))) ↔
    Clear (read p.text.toList) := by
  constructor
  · intro h
    by_contra hclear
    have hlength := length_replaceReferences_lt hclear
    have hnone : groupText "" [] = fun _ => [] := rfl
    have hsame := h "" []
    rw [resolve, String.toList_ofList, hnone] at hsame
    rw [hsame] at hlength
    exact lt_irrefl _ hlength
  · intro hclear line groups
    rw [resolve, String.toList_ofList, replaceReferences_eq hclear]

theorem isResolved_resolve
    {p : PatternSource}
    (hclear : Clear (read p.text.toList))
    (hends : .pair 'z' ∉ read p.text.toList)
    (line : String)
    (groups : Groups) :
    IsResolved p line groups (p.resolve line groups) := by
  have htoList := (resolve_eq_iff p).mpr hclear line groups
  have hsolid : ∀ digits, ∀ part ∈ read (groupText line groups digits), part.Solid :=
    fun _ _ hpart => (isPlain_of_mem_read_groupText hpart).solid
  have hread := read_flatMap_inserted hsolid p.text.toList
  rw [← htoList] at hread
  have hpair : ∀ letter, isSpecial letter = false →
      (.pair letter ∈ read (p.resolve line groups).toList ↔ .pair letter ∈ read p.text.toList) := by
    intro letter hletter
    rw [hread]
    refine pair_mem_flatMap_insertedParts_iff (fun digits hmem => ?_) _
    exact Bool.noConfusion (hletter.symm.trans (isPlain_of_mem_read_groupText hmem))
  have hA := hpair 'A' (by decide)
  have hG := hpair 'G' (by decide)
  refine ⟨htoList, hread, fun _ _ => isPlain_of_mem_read_groupText, ?_, ?_, ?_, ?_⟩
  · intro digits
    rw [hread]
    exact reference_not_mem_flatMap_insertedParts
      (fun _ hmem => isPlain_of_mem_read_groupText hmem) _
  · rintro letter (rfl | rfl)
    · exact hA
    · exact hG
  · rw [Bool.eq_iff_iff, hasAnchor, hasAnchor, anchored_iff, anchored_iff, hA, hG]
  · rw [ofPattern, replaceEnd_of_not_mem (mt (hpair 'z' (by decide)).mp hends),
      String.ofList_toList]

/-- References are found and replaced along the reading of a pattern as long as no escaped backslash
stands before a digit, and only then. Captured text stays plain text. -/
theorem references_ofPattern
    (pattern : String) :
    ((ofPattern pattern).hasBackReferences = true ↔
      (∃ digits, .reference digits ∈ read (ofPattern pattern).text.toList) ∨
        ¬ Clear (read (ofPattern pattern).text.toList)) ∧
    ((∀ line groups, ((ofPattern pattern).resolve line groups).toList =
        (read (ofPattern pattern).text.toList).flatMap (inserted (groupText line groups))) ↔
      Clear (read (ofPattern pattern).text.toList)) ∧
    (Clear (read (ofPattern pattern).text.toList) → ∀ line groups,
      IsResolved (ofPattern pattern) line groups ((ofPattern pattern).resolve line groups)) := by
  exact ⟨refersBack_iff _, resolve_eq_iff _,
    fun hclear => isResolved_resolve hclear (end_not_mem_read_ofPattern pattern)⟩

/-- A quoted text that is named again at the end of its region. -/
theorem references_ofPattern_quote :
    Clear (read (ofPattern "\\.\\1\\z").text.toList) ∧
    IsResolved (ofPattern "\\.\\1\\z") "<<z" [none, some ⟨1, 3⟩] "\\.<z$(?!\\n)(?<!\\n)" := by
  have hclear : Clear (read (ofPattern "\\.\\1\\z").text.toList) := by
    decide +kernel
  have hresolve : (ofPattern "\\.\\1\\z").resolve "<<z" [none, some ⟨1, 3⟩] =
      "\\.<z$(?!\\n)(?<!\\n)" := by
    decide +kernel
  exact ⟨hclear, hresolve ▸ (references_ofPattern "\\.\\1\\z").2.2 hclear "<<z" _⟩

/-- Behind an escaped backslash the text of a group is escaped itself: it becomes the end of the
text. -/
theorem resolve_of_escaped_backslash :
    read (ofPattern "\\\\1").text.toList = [.pair '\\', .single '1'] ∧
    (ofPattern "\\\\1").hasBackReferences = true ∧
    (ofPattern "\\\\1").resolve "z" [some ⟨0, 1⟩, some ⟨0, 1⟩] = "\\z" ∧
    ofPattern "\\z" = ⟨"$(?!\\n)(?<!\\n)"⟩ := by
  decide +kernel

end PatternSource

end LineScopes
