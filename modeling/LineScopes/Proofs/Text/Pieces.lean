import LineScopes.Text.Split
import Mathlib.Data.List.DropRight

/-!
# Pieces of texts

The pieces of a text give the text back when they are joined, and a separator between two texts
divides their pieces. Trimming takes characters away from both ends; where these are the separators,
it takes away the empty pieces at both ends.

**Main definitions.** `trimEnds`, `Bare`.

**Main statements.** `intercalate_splitAt`. `trimEnds_of_padded`, `splitAt_trimBoth`: trimming, and
the pieces of a text whose separators are trimmed.
-/

namespace LineScopes
namespace Text

section Trimming

variable {α : Type} {p : α → Bool} {xs front back : List α}

/-- A list without the elements at both ends that satisfy `p`. -/
def trimEnds
    (p : α → Bool)
    (xs : List α) : List α :=
  (xs.dropWhile p).rdropWhile p

/-- Neither end of a list satisfies `p`. -/
structure Bare (p : α → Bool) (xs : List α) : Prop where
  head : ∀ a ∈ xs.head?, p a = false
  last : ∀ a ∈ xs.getLast?, p a = false

/-- What trimming takes away satisfies `p`. -/
theorem exists_trimEnds
    (p : α → Bool)
    (xs : List α) :
    ∃ front back, xs = front ++ (trimEnds p xs ++ back) ∧
      (∀ a ∈ front, p a = true) ∧ ∀ a ∈ back, p a = true := by
  refine ⟨xs.takeWhile p, (xs.dropWhile p).rtakeWhile p, ?_, fun a => List.mem_takeWhile_imp,
    fun a => List.mem_rtakeWhile_imp⟩
  rw [trimEnds, List.rdropWhile_append_rtakeWhile, List.takeWhile_append_dropWhile]

/-- Trimming takes away all that satisfies `p` at both ends. -/
theorem trimEnds_of_padded
    (hfront : ∀ a ∈ front, p a = true)
    (hback : ∀ a ∈ back, p a = true)
    (h : Bare p xs) :
    trimEnds p (front ++ (xs ++ back)) = xs := by
  cases xs with
  | nil =>
      have hall : ∀ a ∈ front ++ back, p a = true := fun a ha =>
        (List.mem_append.mp ha).elim (hfront a) (hback a)
      rw [trimEnds, List.nil_append, List.dropWhile_eq_nil_iff.mpr hall, List.rdropWhile_nil]
  | cons x xs =>
      have hkept : (x :: xs).rdropWhile p = x :: xs := by
        refine List.rdropWhile_eq_self_iff.mpr fun hne => ?_
        simp [h.last _ (List.getLast?_eq_some_getLast hne)]
      rw [trimEnds, List.dropWhile_append_of_pos hfront, List.cons_append,
        List.dropWhile_cons_of_neg (by simp [h.head x rfl]), ← List.cons_append,
        List.rdropWhile, List.reverse_append,
        List.dropWhile_append_of_pos fun a ha => hback a (List.mem_reverse.mp ha)]
      exact hkept

theorem trimEnds_map
    {β : Type}
    (f : α → β)
    (p : β → Bool)
    (xs : List α) :
    trimEnds p (xs.map f) = (trimEnds (fun a => p (f a)) xs).map f := by
  simp [trimEnds, List.rdropWhile, List.dropWhile_map, ← List.map_reverse, Function.comp_def]

/-- The ends of a trimmed list do not satisfy `p`. -/
theorem bare_trimEnds
    (p : α → Bool)
    (xs : List α) :
    Bare p (trimEnds p xs) := by
  constructor
  · intro a ha
    have hrest := List.head?_dropWhile_not p xs
    obtain ⟨back, hback⟩ := List.rdropWhile_prefix p (xs.dropWhile p)
    rwa [← hback, List.head?_append, ← trimEnds, ha] at hrest
  · intro a ha
    obtain ⟨hne, rfl⟩ := List.mem_getLast?_eq_getLast ha
    exact Bool.eq_false_iff.mpr (List.rdropWhile_last_not p _ hne)

theorem trimEnds_eq_nil_iff :
    trimEnds p xs = [] ↔ ∀ a ∈ xs, p a = true := by
  constructor
  · intro h a ha
    obtain ⟨front, back, hxs, hfront, hback⟩ := exists_trimEnds p xs
    rw [hxs, h, List.nil_append] at ha
    exact (List.mem_append.mp ha).elim (hfront a) (hback a)
  · intro h
    rw [trimEnds, List.dropWhile_eq_nil_iff.mpr h, List.rdropWhile_nil]

end Trimming

section Pieces

variable {sep c : Char} {cs ds : List Char}

/-- Cutting at separators is the same as splitting a list. -/
theorem splitChars_eq_splitOn (sep : Char) (cs : List Char) :
    splitChars sep cs = cs.splitOn sep := by
  induction cs with
  | nil =>
      rfl
  | cons c cs ih =>
      have hne := splitChars_ne_nil sep cs
      rw [splitChars, List.splitOn, List.splitOnP_cons_eq_if_modifyHead, ← List.splitOn, ← ih]
      by_cases hc : c = sep
      · rw [if_pos hc, if_pos (beq_iff_eq.mpr hc)]
      · rw [if_neg hc, if_neg (by simpa using hc)]
        cases hpieces : splitChars sep cs with
        | nil =>
            exact absurd hpieces hne
        | cons piece pieces =>
            rfl

/-- A separator divides the pieces. -/
theorem splitChars_append_cons (sep : Char) (cs ds : List Char) :
    splitChars sep (cs ++ sep :: ds) = splitChars sep cs ++ splitChars sep ds := by
  rw [splitChars_eq_splitOn, splitChars_eq_splitOn, splitChars_eq_splitOn,
    List.splitOn_append_cons_self]

/-- Separators in front of a text add empty pieces. -/
theorem splitChars_replicate_append (sep : Char) (k : Nat) (cs : List Char) :
    splitChars sep (List.replicate k sep ++ cs) = List.replicate k [] ++ splitChars sep cs := by
  induction k with
  | zero =>
      rfl
  | succ k ih =>
      rw [List.replicate_succ, List.replicate_succ, List.cons_append, splitChars, if_pos rfl, ih]
      rfl

/-- Separators behind a text add empty pieces. -/
theorem splitChars_append_replicate (sep : Char) (cs : List Char) (m : Nat) :
    splitChars sep (cs ++ List.replicate m sep) = splitChars sep cs ++ List.replicate m [] := by
  cases m with
  | zero =>
      simp
  | succ m =>
      have hblank := splitChars_replicate_append sep m []
      rw [List.append_nil] at hblank
      rw [List.replicate_succ, splitChars_append_cons, hblank, splitChars, ← List.replicate_succ',
        List.replicate_succ]

/-- The first piece of a text that does not start with a separator is not empty. -/
theorem head?_splitChars
    (h : c ≠ sep)
    (cs : List Char) :
    (splitChars sep (c :: cs)).head? ≠ some [] := by
  rw [splitChars, if_neg h]
  split <;> simp

/-- The last piece of a text that does not end in a separator is not empty. -/
theorem getLast?_splitChars
    (h : c ≠ sep)
    (cs : List Char) :
    (splitChars sep (cs ++ [c])).getLast? ≠ some [] := by
  induction cs with
  | nil =>
      simp [splitChars, h]
  | cons d cs ih =>
      rw [List.cons_append, splitChars]
      split
      · rwa [List.getLast?_cons_of_ne_nil (splitChars_ne_nil sep _)]
      · cases hpieces : splitChars sep (cs ++ [c]) with
        | nil =>
            simp
        | cons piece pieces =>
            rw [hpieces] at ih
            cases pieces with
            | nil =>
                simp
            | cons next pieces =>
                simpa using ih

/-- No piece has a separator in it. -/
theorem not_mem_of_mem_splitChars
    (h : ds ∈ splitChars sep cs) :
    sep ∉ ds := by
  induction cs generalizing ds with
  | nil =>
      simp [splitChars] at h
      simp [h]
  | cons c cs ih =>
      rw [splitChars] at h
      split at h
      · rcases List.mem_cons.mp h with rfl | h
        · exact List.not_mem_nil
        · exact ih h
      · rename_i hc
        cases hpieces : splitChars sep cs with
        | nil =>
            exact absurd hpieces (splitChars_ne_nil sep cs)
        | cons piece pieces =>
            rw [hpieces] at h ih
            rcases List.mem_cons.mp h with rfl | h
            · have hpiece := ih List.mem_cons_self
              simpa [Ne.symm hc] using hpiece
            · exact ih (List.mem_cons_of_mem _ h)

/-- Trimming separators takes away the empty pieces at both ends. -/
theorem trimEnds_splitChars
    (hne : trimEnds (· == sep) cs ≠ []) :
    trimEnds (· == []) (splitChars sep cs) = splitChars sep (trimEnds (· == sep) cs) := by
  obtain ⟨front, back, hcs, hfront, hback⟩ := exists_trimEnds (· == sep) cs
  have hbare := bare_trimEnds (· == sep) cs
  generalize trimEnds (· == sep) cs = core at hne hcs hbare ⊢
  have hfront' : front = List.replicate front.length sep :=
    List.eq_replicate_iff.mpr ⟨rfl, fun c hc => beq_iff_eq.mp (hfront c hc)⟩
  have hback' : back = List.replicate back.length sep :=
    List.eq_replicate_iff.mpr ⟨rfl, fun c hc => beq_iff_eq.mp (hback c hc)⟩
  rw [hcs, hfront', hback', splitChars_replicate_append, splitChars_append_replicate]
  refine trimEnds_of_padded (by simp) (by simp) ⟨fun ds hds => ?_, fun ds hds => ?_⟩
  · cases core with
    | nil =>
        exact absurd rfl hne
    | cons c core =>
        have hc : c ≠ sep := by simpa using hbare.head c rfl
        have hpiece := head?_splitChars hc core
        rw [hds] at hpiece
        simpa using hpiece
  · obtain ⟨core, c, rfl⟩ := (List.eq_nil_or_concat' core).resolve_left hne
    have hc : c ≠ sep := by simpa using hbare.last c (by simp)
    have hpiece := getLast?_splitChars hc core
    rw [hds] at hpiece
    simpa using hpiece

end Pieces

section Texts

theorem trimBoth_eq
    (p : Char → Bool)
    (s : String) :
    trimBoth p s = String.ofList (trimEnds p s.toList) :=
  rfl

/-- The pieces of a text, joined by the separator, are the text. -/
theorem intercalate_splitAt
    (sep : Char)
    (s : String) :
    (String.singleton sep).intercalate (splitAt sep s) = s := by
  refine String.toList_inj.mp ?_
  rw [String.toList_intercalate, String.toList_singleton, splitAt, List.map_map]
  simp [Function.comp_def, splitChars_eq_splitOn, List.intercalate_splitOn]

/-- The pieces of two texts with a separator between them are those of both texts. -/
theorem splitAt_append_singleton_append
    (sep : Char)
    (s t : String) :
    splitAt sep (s ++ String.singleton sep ++ t) = splitAt sep s ++ splitAt sep t := by
  simp [splitAt, String.toList_append, splitChars_append_cons]

/-- Trimming separators takes away the empty pieces at both ends. -/
theorem splitAt_trimBoth
    {sep : Char}
    {s : String}
    (hne : trimBoth (· == sep) s ≠ "") :
    splitAt sep (trimBoth (· == sep) s) = trimEnds (· == "") (splitAt sep s) := by
  have hchars : trimEnds (· == sep) s.toList ≠ [] := by
    simpa [trimBoth_eq] using hne
  rw [trimBoth_eq, splitAt, splitAt, String.toList_ofList, ← trimEnds_splitChars hchars,
    trimEnds_map]
  congr
  funext cs
  rw [Bool.eq_iff_iff, beq_iff_eq, beq_iff_eq, String.ofList_eq_empty_iff]

theorem trimBoth_eq_empty_iff
    {p : Char → Bool}
    {s : String} :
    trimBoth p s = "" ↔ ∀ c ∈ s.toList, p c = true := by
  rw [trimBoth_eq, String.ofList_eq_empty_iff, trimEnds_eq_nil_iff]

/-- The last piece of a text that has been trimmed is not empty. -/
theorem getLast?_splitAt_trimBoth
    {p : Char → Bool}
    {sep : Char}
    {s : String}
    (hsep : p sep = true)
    (hne : trimBoth p s ≠ "") :
    (splitAt sep (trimBoth p s)).getLast? ≠ some "" := by
  have hbare := bare_trimEnds p s.toList
  rw [trimBoth_eq] at hne ⊢
  rw [splitAt, String.toList_ofList, List.getLast?_map]
  rw [Ne, String.ofList_eq_empty_iff] at hne
  obtain ⟨core, c, hcore⟩ := (List.eq_nil_or_concat' _).resolve_left hne
  have hc : c ≠ sep := by
    rintro rfl
    have hlast := hbare.last c (by simp [hcore])
    rw [hsep] at hlast
    cases hlast
  rw [hcore]
  have hpiece := getLast?_splitChars hc core
  simpa using hpiece

/-- No piece of a text has a separator in it. -/
theorem not_mem_of_mem_splitAt
    {sep : Char}
    {s piece : String}
    (h : piece ∈ splitAt sep s) :
    sep ∉ piece.toList := by
  obtain ⟨ds, hds, rfl⟩ := List.mem_map.mp h
  simpa using not_mem_of_mem_splitChars hds

end Texts

end Text
end LineScopes
