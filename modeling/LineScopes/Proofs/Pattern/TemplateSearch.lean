import LineScopes.Pattern.Template
import LineScopes.Proofs.Pattern.Reading

/-!
# The search for references

A template refers to a group with a dollar sign and a number, or with a number and a word between
braces. Of a text without digits of other scripts, the search for a reference finds the leftmost
one: its place, its digits and its word.

**Main definitions.** `CaseChange`, `GroupReference`, `GroupReference.Opens`,
`NameTemplate.NoneBefore`.

**Main statements.** `matchAt?_eq_some_iff`: where a reference starts. `eq_of_opens`: at most one
starts there. `find?_of_opens`, `find?_eq_none`: what the search finds.
-/

namespace LineScopes

/-- How the text of a group is inserted. -/
inductive CaseChange where
  | keep
  | down
  | up
deriving DecidableEq, Repr

namespace CaseChange

/-- The text in the case. -/
def apply : CaseChange → String → String
  | keep, s => s
  | down, s => Unicode.lower s
  | up, s => Unicode.upper s

/-- The word that asks for the case. -/
def word? : CaseChange → Option String
  | keep => none
  | down => some "downcase"
  | up => some "upcase"

theorem word?_injective :
    word?.Injective := by
  intro a b h
  cases a <;> cases b <;> simp_all [word?]

theorem exists_word?_iff
    {word : String} :
    (∃ change : CaseChange, change.word? = some word) ↔ word = "downcase" ∨ word = "upcase" := by
  constructor
  · rintro ⟨change, h⟩
    cases change <;> simp_all [word?]
  · rintro (rfl | rfl)
    · exact ⟨down, rfl⟩
    · exact ⟨up, rfl⟩

@[simp] theorem changeCase_word?
    (change : CaseChange)
    (s : String) :
    NameTemplate.changeCase change.word? s = change.apply s := by
  cases change <;> rfl

end CaseChange

/-- A reference to a group. -/
structure GroupReference where
  digits : List Char
  change : CaseChange
deriving DecidableEq, Repr

namespace GroupReference

/-- The characters of a reference: `$1`, or `${1:/upcase}` with the word for its case. -/
def written (r : GroupReference) : List Char :=
  match r.change.word? with
  | none => '$' :: r.digits
  | some word => "$\x7b".toList ++ (r.digits ++ (":/".toList ++ (word.toList ++ "\x7d".toList)))

/-- A text starts with the reference. Without braces, all digits that follow belong to it. -/
structure Opens
    (r : GroupReference)
    (cs rest : List Char) : Prop where
  eq_append : cs = r.written ++ rest
  ne_nil : r.digits ≠ []
  isDigit : ∀ d ∈ r.digits, d.isDigit = true
  noDigit : r.change = .keep → PatternPart.NoDigit rest

/-- What stands in the place of a reference: the text of the group without leading dots, nothing
if the group has no text, or the reference itself if there is no such group. -/
def inserted
    (line : String)
    (groups : Groups)
    (r : GroupReference) : String :=
  match groups[Text.Decimal.value r.digits]? with
  | none => String.ofList r.written
  | some group =>
    let captured := (group.bind fun s => Text.slice? line s.first s.last).getD ""
    r.change.apply (String.ofList (captured.toList.dropWhile (· == '.')))

/-- The match that the search for a reference gives. -/
def found
    (offset : Nat)
    (r : GroupReference) : ReferenceMatch :=
  let span : Span := ⟨offset, offset + (String.ofList r.written).utf8ByteSize⟩
  let number := String.ofList r.digits
  match r.change.word? with
  | none => ⟨span, some number, none, none⟩
  | some word => ⟨span, none, some number, some word⟩

@[simp] theorem span_found
    (offset : Nat)
    (r : GroupReference) :
    (r.found offset).span =
      ⟨offset, offset + (String.ofList r.written).utf8ByteSize⟩ := by
  unfold found
  cases r.change <;> rfl

@[simp] theorem request_found
    (offset : Nat)
    (r : GroupReference) :
    (r.found offset).request = (String.ofList r.digits, r.change.word?) := by
  unfold found ReferenceMatch.request
  cases r.change <;> rfl

theorem found_injective
    (offset : Nat) :
    (found offset).Injective := by
  intro r s h
  have hrequest := congrArg ReferenceMatch.request h
  rw [request_found, request_found, Prod.mk.injEq] at hrequest
  obtain ⟨hdigits, hword⟩ := hrequest
  cases r
  cases s
  cases String.ofList_injective hdigits
  cases CaseChange.word?_injective hword
  rfl

theorem found_bare
    (offset : Nat)
    (digits : List Char) :
    found offset ⟨digits, .keep⟩ =
      ⟨⟨offset, offset + (1 + (String.ofList digits).utf8ByteSize)⟩,
        some (String.ofList digits), none, none⟩ := by
  have hsize : (String.ofList ('$' :: digits)).utf8ByteSize =
      1 + (String.ofList digits).utf8ByteSize := by
    rw [String.ofList_cons, String.utf8ByteSize_append]
    rfl
  simp only [found, written, CaseChange.word?, hsize]

theorem found_braced
    {change : CaseChange}
    {word : String}
    (h : change.word? = some word)
    (offset : Nat)
    (digits : List Char) :
    found offset ⟨digits, change⟩ =
      ⟨⟨offset, offset + (2 + (String.ofList digits).utf8ByteSize + 2 + word.utf8ByteSize + 1)⟩,
        none, some (String.ofList digits), some word⟩ := by
  have hsize : (String.ofList ("$\x7b".toList ++
      (digits ++ (":/".toList ++ (word.toList ++ "\x7d".toList))))).utf8ByteSize =
      2 + (String.ofList digits).utf8ByteSize + 2 + word.utf8ByteSize + 1 := by
    simp only [String.ofList_append, String.ofList_toList, String.utf8ByteSize_append]
    show 2 + (_ + (2 + (_ + 1))) = _
    omega
  simp only [found, written, h, hsize]

end GroupReference

namespace NameTemplate

open GroupReference

/-- No reference starts within the first part of a text. -/
def NoneBefore (before after : List Char) : Prop :=
  ∀ cs r rest, cs <:+ before → cs ≠ [] → ¬ Opens r (cs ++ after) rest

/-- A text has no digits of other scripts. -/
def AsciiDigits (cs : List Char) : Prop :=
  ∀ c ∈ cs, Unicode.isDigit c = true → c.isDigit = true

instance : DecidablePred AsciiDigits :=
  List.decidableBAll fun c => Unicode.isDigit c = true → c.isDigit = true

section Search

variable {cs digits rest rest' before : List Char} {c : Char} {m : ReferenceMatch}
  {r s : GroupReference} (offset : Nat)

theorem AsciiDigits.tail
    (h : AsciiDigits (c :: cs)) :
    AsciiDigits cs :=
  fun d hd => h d (List.mem_cons_of_mem c hd)

theorem AsciiDigits.of_append
    (h : AsciiDigits (before ++ cs)) :
    AsciiDigits cs :=
  fun c hc => h c (List.mem_append_right before hc)

theorem AsciiDigits.behind
    (h : AsciiDigits cs)
    (hr : r.Opens cs rest) :
    AsciiDigits rest := by
  rw [hr.eq_append] at h
  exact h.of_append

/-- Then the search sees ASCII digits only. -/
theorem AsciiDigits.isDigit_eq
    (h : AsciiDigits cs)
    (hc : c ∈ cs) :
    Unicode.isDigit c = c.isDigit := by
  rw [Bool.eq_iff_iff]
  exact ⟨h c hc, fun hdigit => by simp [Unicode.isDigit, hdigit]⟩

theorem AsciiDigits.takeWhile_eq
    (h : AsciiDigits cs) :
    cs.takeWhile Unicode.isDigit = cs.takeWhile Char.isDigit := by
  induction cs with
  | nil =>
      rfl
  | cons c cs ih =>
      rw [List.takeWhile_cons, List.takeWhile_cons, h.isDigit_eq List.mem_cons_self, ih h.tail]

theorem AsciiDigits.dropWhile_eq
    (h : AsciiDigits cs) :
    cs.dropWhile Unicode.isDigit = cs.dropWhile Char.isDigit := by
  induction cs with
  | nil =>
      rfl
  | cons c cs ih =>
      rw [List.dropWhile_cons, List.dropWhile_cons, h.isDigit_eq List.mem_cons_self, ih h.tail]

theorem digits?_eq_some_iff_of_ascii
    (h : AsciiDigits cs) :
    digits? cs = some (digits, rest) ↔
      cs = digits ++ rest ∧ digits ≠ [] ∧ (∀ d ∈ digits, d.isDigit = true) ∧
        PatternPart.NoDigit rest := by
  rw [digits?_eq_some_iff, h.takeWhile_eq, h.dropWhile_eq]
  constructor
  · rintro ⟨hne, rfl, rfl⟩
    exact ⟨List.takeWhile_append_dropWhile.symm, hne, fun d hd => List.mem_takeWhile_imp hd,
      PatternPart.noDigit_dropWhile cs⟩
  · rintro ⟨rfl, hne, hdigits, hrest⟩
    exact ⟨hne, (PatternPart.takeWhile_digits hdigits hrest).symm,
      (PatternPart.dropWhile_digits hdigits hrest).symm⟩

theorem bareAt?_eq_some_iff
    (h : AsciiDigits cs) :
    bareAt? offset cs = some (m, rest) ↔
      ∃ r : GroupReference, r.change.word? = none ∧ r.Opens cs rest ∧ m = r.found offset := by
  simp only [bareAt?, Option.bind_eq_some_iff, dropList_eq_some_iff, Option.map_eq_some_iff,
    Prod.exists, Prod.mk.injEq]
  constructor
  · rintro ⟨_, rfl, digits, rest, hdigits, rfl, rfl⟩
    obtain ⟨rfl, hne, hall, hrest⟩ := (digits?_eq_some_iff_of_ascii h.of_append).mp hdigits
    exact ⟨⟨digits, .keep⟩, rfl, ⟨rfl, hne, hall, fun _ => hrest⟩,
      (found_bare offset digits).symm⟩
  · rintro ⟨⟨digits, change⟩, hword, ⟨rfl, hne, hall, hrest⟩, rfl⟩
    obtain rfl : change = .keep := CaseChange.word?_injective hword
    have hwritten : written ⟨digits, .keep⟩ ++ rest = ['$'] ++ (digits ++ rest) := rfl
    rw [hwritten] at h ⊢
    refine ⟨digits ++ rest, rfl, digits, rest, ?_, (found_bare offset digits).symm, rfl⟩
    exact (digits?_eq_some_iff_of_ascii h.of_append).mpr ⟨rfl, hne, hall, hrest rfl⟩

theorem bracedAt?_eq_some_iff
    (h : AsciiDigits cs) :
    bracedAt? offset cs = some (m, rest) ↔
      ∃ (r : GroupReference) (word : String),
        r.change.word? = some word ∧ r.Opens cs rest ∧ m = r.found offset := by
  simp only [bracedAt?, Option.bind_eq_some_iff, dropList_eq_some_iff, Option.map_eq_some_iff,
    command?_eq_some_iff, ← CaseChange.exists_word?_iff, Prod.exists, Prod.mk.injEq]
  constructor
  · rintro ⟨_, rfl, digits, _, hdigits, _, rfl, word, _, ⟨⟨change, hword⟩, rfl⟩, rest, rfl, rfl,
      rfl⟩
    obtain ⟨rfl, hne, hall, -⟩ := (digits?_eq_some_iff_of_ascii h.of_append).mp hdigits
    refine ⟨⟨digits, change⟩, word, hword, ⟨?_, hne, hall, ?_⟩,
      (found_braced hword offset digits).symm⟩
    · simp [written, hword]
    · rintro rfl
      cases hword
  · rintro ⟨⟨digits, change⟩, word, hword, ⟨rfl, hne, hall, -⟩, rfl⟩
    have hwritten : written ⟨digits, change⟩ ++ rest =
        ['$', '\x7b'] ++ (digits ++ ([':', '/'] ++ (word.toList ++ (['\x7d'] ++ rest)))) := by
      simp [written, hword]
    rw [hwritten] at h ⊢
    refine ⟨_, rfl, digits, _, ?_, _, rfl, word, _, ⟨⟨change, hword⟩, rfl⟩, rest, rfl,
      (found_braced hword offset digits).symm, rfl⟩
    exact (digits?_eq_some_iff_of_ascii h.of_append).mpr
      ⟨rfl, hne, hall, PatternPart.noDigit_cons (by decide) _⟩

/-- A text that starts with a reference without braces starts with no other. -/
theorem word?_eq_none_of_opens
    (hword : r.change.word? = none)
    (hr : r.Opens cs rest)
    (hs : s.Opens cs rest') :
    s.change.word? = none := by
  by_contra hsome
  obtain ⟨word, hsome⟩ := Option.ne_none_iff_exists'.mp hsome
  obtain ⟨d, ds, hdigits⟩ := List.exists_cons_of_ne_nil hr.ne_nil
  have hd := hr.isDigit d (hdigits ▸ List.mem_cons_self)
  have hcs := hr.eq_append.symm.trans hs.eq_append
  obtain ⟨rfl, -⟩ : d = '\x7b' ∧ _ := by
    simpa [written, hword, hsome, hdigits] using hcs
  exact absurd hd (by decide)

/-- A reference is found exactly at the start of a text that starts with it. -/
theorem matchAt?_eq_some_iff
    (h : AsciiDigits cs) :
    matchAt? offset cs = some (m, rest) ↔
      ∃ r : GroupReference, r.Opens cs rest ∧ m = r.found offset := by
  unfold matchAt?
  split
  · rename_i found hbare
    rw [← hbare, bareAt?_eq_some_iff offset h]
    obtain ⟨s, hword, hs, -⟩ := (bareAt?_eq_some_iff offset h).mp hbare
    constructor
    · rintro ⟨r, -, hr⟩
      exact ⟨r, hr⟩
    · -- braces are no digits, so the other way of writing is excluded
      rintro ⟨r, hr⟩
      exact ⟨r, word?_eq_none_of_opens hword hs hr.1, hr⟩
  · rename_i hbare
    rw [bracedAt?_eq_some_iff offset h]
    constructor
    · rintro ⟨r, -, -, hr⟩
      exact ⟨r, hr⟩
    · rintro ⟨r, hr, rfl⟩
      cases hword : r.change.word? with
      | none =>
          have hsome := (bareAt?_eq_some_iff offset h).mpr ⟨r, hword, hr, rfl⟩
          exact absurd (hbare.symm.trans hsome) (by simp)
      | some word =>
          exact ⟨r, word, hword, hr, rfl⟩

theorem matchAt?_eq_none
    (h : AsciiDigits cs)
    (hnone : ∀ (r : GroupReference) (rest : List Char), ¬ r.Opens cs rest) :
    matchAt? offset cs = none := by
  rw [Option.eq_none_iff_forall_ne_some]
  rintro ⟨m, rest⟩ hsome
  obtain ⟨r, hr, -⟩ := (matchAt?_eq_some_iff offset h).mp hsome
  exact hnone r rest hr

/-- A text starts with at most one reference. -/
theorem eq_of_opens
    (h : AsciiDigits cs)
    (hr : r.Opens cs rest)
    (hs : s.Opens cs rest') :
    r = s ∧ rest = rest' := by
  have hmatch := (matchAt?_eq_some_iff 0 h).mpr ⟨r, hr, rfl⟩
  rw [(matchAt?_eq_some_iff 0 h).mpr ⟨s, hs, rfl⟩] at hmatch
  simp only [Option.some.injEq, Prod.mk.injEq] at hmatch
  exact ⟨(found_injective 0 hmatch.1).symm, hmatch.2.symm⟩

theorem noneBefore_cons_iff :
    NoneBefore (c :: before) cs ↔
      (∀ (r : GroupReference) (rest : List Char), ¬ r.Opens (c :: (before ++ cs)) rest) ∧
        NoneBefore before cs := by
  constructor
  · intro h
    refine ⟨fun r rest => h _ r rest List.suffix_rfl (List.cons_ne_nil c before), ?_⟩
    exact fun b r rest hb => h b r rest (hb.trans (List.suffix_cons c before))
  · rintro ⟨hhere, hlater⟩ b r rest hb hne
    rcases List.suffix_cons_iff.mp hb with rfl | hb
    · exact hhere r rest
    · exact hlater b r rest hb hne

theorem find?_of_matchAt?
    (h : matchAt? offset cs = some (m, rest)) :
    find? offset cs = some (m, rest) := by
  cases cs with
  | nil =>
      cases h
  | cons c cs =>
      rw [find?, h]

/-- The search finds the leftmost reference. -/
theorem find?_of_opens
    (h : AsciiDigits (before ++ cs))
    (hbefore : NoneBefore before cs)
    (hr : r.Opens cs rest) :
    find? offset (before ++ cs) =
      some (r.found (offset + (String.ofList before).utf8ByteSize), rest) := by
  induction before generalizing offset with
  | nil =>
      exact find?_of_matchAt? offset ((matchAt?_eq_some_iff offset h).mpr ⟨r, hr, rfl⟩)
  | cons c before ih =>
      obtain ⟨hhere, hlater⟩ := noneBefore_cons_iff.mp hbefore
      rw [List.cons_append] at h ⊢
      rw [find?, matchAt?_eq_none offset h hhere]
      dsimp only
      rw [ih _ h.tail hlater, String.ofList_cons, String.utf8ByteSize_append,
        String.utf8ByteSize_singleton, Nat.add_assoc]

theorem find?_eq_none
    (h : AsciiDigits cs)
    (hnone : NoneBefore cs []) :
    find? offset cs = none := by
  induction cs generalizing offset with
  | nil =>
      rfl
  | cons c cs ih =>
      obtain ⟨hhere, hlater⟩ := noneBefore_cons_iff.mp hnone
      rw [List.append_nil] at hhere
      rw [find?, matchAt?_eq_none offset h hhere]
      exact ih _ h.tail hlater

end Search

end NameTemplate

end LineScopes
