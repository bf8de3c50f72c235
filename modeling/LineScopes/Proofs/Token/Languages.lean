import LineScopes.Proofs.Scope.Parts
import LineScopes.Token.Languages
import Mathlib.Data.List.Induction
import Mathlib.Data.List.Nodup

/-!
# The language of a scope name

A table of embedded languages is searched for the longest scope that covers a name. Two scopes of
one length that cover the same name are the same scope, so the order of the table makes no
difference, and neither does keeping the answers for names that have been asked for before.

**Main definitions.** `Languages.Longest`, `Languages.consult`.

**Main statements.** `languageOf_eq`: what the search finds. `Longest.eq`: there is one longest
entry. `language_of_longest`: the language of a name.
-/

namespace LineScopes

namespace Scope

/-- A pattern covers a name if it is the name, or if a dot stands behind it in the name. -/
theorem covers_iff_append
    {pattern name : String} :
    covers pattern name = true ↔ name = pattern ∨ ∃ rest, name = pattern ++ "." ++ rest := by
  rw [covers_iff]
  refine or_congr_right ⟨?_, ?_⟩
  · rintro ⟨rest, hrest⟩
    refine ⟨String.ofList rest, String.toList_inj.mp ?_⟩
    simp [← hrest]
  · rintro ⟨rest, rfl⟩
    exact ⟨rest.toList, by simp⟩

/-- Two patterns with as many bytes that cover a name are the same. -/
theorem eq_of_covers_of_size
    {a b name : String}
    (ha : covers a name = true)
    (hb : covers b name = true)
    (hsize : a.utf8ByteSize = b.utf8ByteSize) :
    a = b := by
  -- the shorter one of two leading parts of a name is a leading part of the other one
  wlog hle : a.length ≤ b.length generalizing a b
  · exact (this hb ha hsize.symm (by omega)).symm
  obtain ⟨rest, hrest⟩ : a.toList <+: b.toList :=
    List.prefix_of_prefix_length_le (isPrefix_of_covers ha) (isPrefix_of_covers hb) (by
      simpa [String.length_toList] using hle)
  have hb' : b = a ++ String.ofList rest :=
    String.toList_inj.mp (by simp [hrest])
  have hzero : (String.ofList rest).utf8ByteSize = 0 := by
    rw [hb', String.utf8ByteSize_append] at hsize
    omega
  rw [hb', String.utf8ByteSize_eq_zero_iff.mp hzero, String.append_empty]

end Scope

namespace Languages

/-- An entry of a table whose scope covers a name, and no scope that covers it is longer. -/
structure Longest
    (table : List (String × Nat))
    (name : String)
    (e : String × Nat) : Prop where
  mem : e ∈ table
  covers : Scope.covers e.1 name = true
  longest : ∀ e' ∈ table, Scope.covers e'.1 name = true → e'.1.utf8ByteSize ≤ e.1.utf8ByteSize

/-- The longest entry of a list is one of the longest. -/
theorem foldl_longer
    (entries : List (String × Nat)) :
    (entries = [] ∧ entries.foldl longer none = none) ∨
      ∃ e ∈ entries, entries.foldl longer none = some e ∧
        ∀ e' ∈ entries, e'.1.utf8ByteSize ≤ e.1.utf8ByteSize := by
  induction entries using List.reverseRecOn with
  | nil =>
      exact .inl ⟨rfl, rfl⟩
  | append_singleton entries e ih =>
      right
      rw [List.foldl_append, List.foldl_cons, List.foldl_nil]
      rcases ih with ⟨rfl, hnone⟩ | ⟨b, hb, hsome, hlongest⟩
      · exact ⟨e, by simp, by rw [hnone]; rfl, by simp⟩
      · rw [hsome]
        unfold longer
        dsimp only
        split
        · rename_i hle
          refine ⟨e, by simp, rfl, fun e' he' => ?_⟩
          rcases List.mem_append.mp he' with hold | hnew
          · exact (hlongest e' hold).trans hle
          · rw [List.mem_singleton.mp hnew]
        · rename_i hlt
          refine ⟨b, List.mem_append_left _ hb, rfl, fun e' he' => ?_⟩
          rcases List.mem_append.mp he' with hold | hnew
          · exact hlongest e' hold
          · rw [List.mem_singleton.mp hnew]
            omega

variable {table : List (String × Nat)} {name : String}

/-- The search finds a longest entry, unless no scope of the table covers the name. -/
theorem longest_or_none
    (table : List (String × Nat))
    (name : String) :
    (∃ e, Longest table name e ∧
      (table.filter fun e => Scope.covers e.1 name).foldl longer none = some e) ∨
    ((∀ e ∈ table, Scope.covers e.1 name = false) ∧
      (table.filter fun e => Scope.covers e.1 name).foldl longer none = none) := by
  rcases foldl_longer (table.filter fun e => Scope.covers e.1 name) with
    ⟨hnil, hnone⟩ | ⟨e, he, hsome, hlongest⟩
  · exact .inr ⟨fun e he => by simpa using List.filter_eq_nil_iff.mp hnil e he, hnone⟩
  · obtain ⟨hmem, hcovers⟩ := List.mem_filter.mp he
    exact .inl ⟨e, ⟨hmem, hcovers, fun e' he' hcovers' =>
      hlongest e' (List.mem_filter.mpr ⟨he', hcovers'⟩)⟩, hsome⟩

/-- If no scope is in a table twice, a name has at most one longest entry. -/
theorem Longest.eq
    {e e' : String × Nat}
    (hnodup : (table.map Prod.fst).Nodup)
    (h : Longest table name e)
    (h' : Longest table name e') :
    e = e' := by
  have hsize : e.1.utf8ByteSize = e'.1.utf8ByteSize :=
    le_antisymm (h'.longest e h.mem h.covers) (h.longest e' h'.mem h'.covers)
  have hscope : e.1 = e'.1 :=
    Scope.eq_of_covers_of_size h.covers h'.covers hsize
  exact List.inj_on_of_nodup_map hnodup h.mem h'.mem hscope

/-- The language of a name is that of its longest entry, or 0 if it has none. -/
theorem languageOf_eq
    (l : Languages)
    (name : String) :
    (∃ e, Longest l.embedded name e ∧ l.languageOf name = e.2) ∨
      ((∀ e ∈ l.embedded, Scope.covers e.1 name = false) ∧ l.languageOf name = 0) := by
  unfold languageOf
  rcases longest_or_none l.embedded name with ⟨e, he, hsome⟩ | ⟨hcovers, hnone⟩
  · exact .inl ⟨e, he, by simp [hsome]⟩
  · exact .inr ⟨hcovers, by simp [hnone]⟩

theorem Longest.of_perm
    {table' : List (String × Nat)}
    {e : String × Nat}
    (h : Longest table name e)
    (hperm : table.Perm table') :
    Longest table' name e :=
  ⟨hperm.mem_iff.mp h.mem, h.covers, fun e' he' => h.longest e' (hperm.mem_iff.mpr he')⟩

/-- The order of a table makes no difference. -/
theorem languageOf_of_perm
    {l : Languages}
    {embedded : List (String × Nat)}
    (hnodup : (l.embedded.map Prod.fst).Nodup)
    (hperm : embedded.Perm l.embedded) :
    ({ l with embedded := embedded } : Languages).languageOf name = l.languageOf name := by
  rcases languageOf_eq l name with ⟨e, he, hlanguage⟩ | ⟨hnone, hlanguage⟩
  · rcases languageOf_eq { l with embedded := embedded } name with
      ⟨e', he', hlanguage'⟩ | ⟨hnone, -⟩
    · rw [hlanguage', hlanguage, he.eq hnodup (he'.of_perm hperm)]
    · exact absurd he.covers (by simp [hnone e (hperm.mem_iff.mpr he.mem)])
  · rcases languageOf_eq { l with embedded := embedded } name with ⟨e', he', -⟩ | ⟨-, hlanguage'⟩
    · exact absurd he'.covers (by simp [hnone e' (hperm.mem_iff.mp he'.mem)])
    · rw [hlanguage', hlanguage]

/-- What a name says, looked up among the answers that have been kept, and kept for the next
time. -/
def consult
    (l : Languages)
    (kept : List (String × Attributes))
    (name : String) : Attributes × List (String × Attributes) :=
  match kept.lookup name with
  | some a => (a, kept)
  | none => (l.attributesOf name, (name, l.attributesOf name) :: kept)

/-- What some names say, asked for one after the other. -/
def answers
    (l : Languages)
    (kept : List (String × Attributes)) : List String → List Attributes
  | [] => []
  | name :: names => (l.consult kept name).1 :: l.answers (l.consult kept name).2 names

/-- The answers that have been kept are right. -/
def Kept
    (l : Languages)
    (kept : List (String × Attributes)) : Prop :=
  ∀ name a, kept.lookup name = some a → a = l.attributesOf name

/-- A right answer is given, and the answers kept stay right. -/
theorem Kept.consult
    {l : Languages}
    {kept : List (String × Attributes)}
    (h : l.Kept kept)
    (name : String) :
    (l.consult kept name).1 = l.attributesOf name ∧ l.Kept (l.consult kept name).2 := by
  unfold Languages.consult
  split
  · rename_i a hfound
    exact ⟨h name a hfound, h⟩
  · refine ⟨rfl, fun other a hlookup => ?_⟩
    rw [List.lookup_cons] at hlookup
    split at hlookup
    · rename_i hsame
      rw [beq_iff_eq.mp hsame]
      exact (Option.some.inj hlookup).symm
    · exact h other a hlookup

theorem Kept.answers
    {l : Languages}
    {kept : List (String × Attributes)}
    (h : l.Kept kept)
    (names : List String) :
    l.answers kept names = names.map l.attributesOf := by
  induction names generalizing kept with
  | nil =>
      rfl
  | cons name names ih =>
      obtain ⟨hanswer, hkept⟩ := h.consult name
      rw [Languages.answers, hanswer, ih hkept, List.map_cons]

/-- The language of a name is that of the longest embedded scope which is the name or ends before a
dot of it, and there is only one such scope; without such a scope it is 0. A table in any other
order gives the same answers, in whatever order and however often names are asked for. -/
theorem language_of_longest
    (l : Languages)
    (hnodup : (l.embedded.map Prod.fst).Nodup)
    (name : String) :
    ((∃! e, Longest l.embedded name e) ∧
        (∀ e, Longest l.embedded name e → (l.attributesOf name).language = e.2) ∨
      (∀ e ∈ l.embedded, Scope.covers e.1 name = false) ∧ (l.attributesOf name).language = 0) ∧
      (∀ embedded : List (String × Nat), embedded.Perm l.embedded → ∀ names,
        ({ l with embedded := embedded } : Languages).answers [] names =
          names.map l.attributesOf) ∧
      ∀ scope, Scope.covers scope name = true ↔
        name = scope ∨ ∃ rest, name = scope ++ "." ++ rest := by
  refine ⟨?_, fun embedded hperm names => ?_, fun scope => Scope.covers_iff_append⟩
  · rcases languageOf_eq l name with ⟨e, he, hlanguage⟩ | hnone
    · refine .inl ⟨⟨e, he, fun e' he' => he'.eq hnodup he⟩, fun e' he' => ?_⟩
      rw [he'.eq hnodup he]
      exact hlanguage
    · exact .inr hnone
  · have hnothing : Kept { l with embedded := embedded } [] := fun name a h => by cases h
    rw [hnothing.answers]
    refine List.map_congr_left fun name _ => ?_
    unfold attributesOf
    rw [languageOf_of_perm hnodup hperm]

/-- The languages of a page with scripts, and of templates inside its scripts. -/
def pageLanguages : Languages where
  initial := 1
  embedded := [("source.js", 2), ("text", 4), ("source.js.embedded", 3), ("source", 5)]

/-- Three nested scopes cover the name of a template inside a script. -/
theorem language_of_longest_template :
    (pageLanguages.embedded.map Prod.fst).Nodup ∧
      (∃! e, Longest pageLanguages.embedded "source.js.embedded.html" e) ∧
      (pageLanguages.attributesOf "source.js.embedded.html").language = 3 ∧
      ({ pageLanguages with embedded := pageLanguages.embedded.reverse } : Languages).answers []
        ["source.jsx", "sources", "source.jsx"] =
          ["source.jsx", "sources", "source.jsx"].map pageLanguages.attributesOf := by
  have hnodup : (pageLanguages.embedded.map Prod.fst).Nodup := by
    decide
  have hlongest : Longest pageLanguages.embedded "source.js.embedded.html"
      ("source.js.embedded", 3) :=
    ⟨by decide, by decide +kernel, by decide +kernel⟩
  obtain ⟨hlanguage, hanswers, -⟩ :=
    language_of_longest pageLanguages hnodup "source.js.embedded.html"
  rcases hlanguage with ⟨hunique, hlanguage⟩ | ⟨hnone, -⟩
  · exact ⟨hnodup, hunique, hlanguage _ hlongest,
      hanswers _ (List.reverse_perm _) ["source.jsx", "sources", "source.jsx"]⟩
  · exact absurd hlongest.covers (by simp [hnone _ hlongest.mem])

end Languages
end LineScopes
