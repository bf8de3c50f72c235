import LineScopes.Text.Decimal
import LineScopes.Text.Quoted
import LineScopes.Text.Span
import LineScopes.Text.Split
import LineScopes.Unicode.Case

/-!
# Name templates

A scope name may refer to captured groups: `$1` stands for the text of group 1, and the forms
with braces also change its case. The references are searched from left to right, each one behind
the one before. What stands between two of them is copied, and the text of the group is inserted
without its leading dots.

**Main definitions.** `NameTemplate`, `ReferenceMatch`, `NameTemplate.find?`,
`NameTemplate.references`, `NameTemplate.resolve`.

**Main statements.** `digits?_eq_some_iff`, `dropList_eq_some_iff`, `command?_eq_some_iff`: what the
parts of a reference are.
-/

namespace LineScopes

/-- A scope name that may refer to captured groups. -/
structure NameTemplate where
  text : String
deriving DecidableEq, Repr, Inhabited

/-- Where a reference was found, and the texts of the groups of the pattern it was found with. -/
structure ReferenceMatch where
  span : Span
  /-- The number behind a dollar sign. -/
  bare : Option String
  /-- The number between braces. -/
  braced : Option String
  /-- What to do with the text, between braces. -/
  command : Option String
deriving DecidableEq, Repr

/-- The number of the reference and its command, whichever way it is written. -/
def ReferenceMatch.request (m : ReferenceMatch) : String × Option String :=
  match m.bare with
  | some index => (index, none)
  | none => (m.braced.getD "", m.command)

namespace NameTemplate

/-- The template of a name; an empty name is no name. -/
def ofName? (name : Option String) : Option NameTemplate :=
  match name with
  | some t => if t = "" then none else some ⟨t⟩
  | none => none

section Pattern

/-- The digits at the start of a text, at least one and as many as there are, with the rest. -/
def digits? (cs : List Char) : Option (List Char × List Char) :=
  match cs.takeWhile Unicode.isDigit with
  | [] => none
  | digits => some (digits, cs.dropWhile Unicode.isDigit)

/-- The rest behind a given list. -/
def dropList : (expected cs : List Char) → Option (List Char)
  | [], cs => some cs
  | _ :: _, [] => none
  | e :: es, c :: cs => if e = c then dropList es cs else none

/-- A command at the start of a text, with the rest. -/
def command? (cs : List Char) : Option (String × List Char) :=
  match dropList "downcase".toList cs with
  | some rest => some ("downcase", rest)
  | none => (dropList "upcase".toList cs).map ("upcase", ·)

/-- A dollar sign with a number at the start of a text, with the rest. -/
def bareAt?
    (offset : Nat)
    (cs : List Char) : Option (ReferenceMatch × List Char) :=
  (dropList ['$'] cs).bind fun cs =>
    (digits? cs).map fun (digits, rest) =>
      let number := String.ofList digits
      (⟨⟨offset, offset + (1 + number.utf8ByteSize)⟩, some number, none, none⟩, rest)

/-- A number and a command between braces at the start of a text, with the rest. -/
def bracedAt?
    (offset : Nat)
    (cs : List Char) : Option (ReferenceMatch × List Char) :=
  (dropList ['$', '\x7b'] cs).bind fun cs =>
    (digits? cs).bind fun (digits, cs) =>
      (dropList [':', '/'] cs).bind fun cs =>
        (command? cs).bind fun (command, cs) =>
          (dropList ['\x7d'] cs).map fun rest =>
            let number := String.ofList digits
            let size := 2 + number.utf8ByteSize + 2 + command.utf8ByteSize + 1
            (⟨⟨offset, offset + size⟩, none, some number, some command⟩, rest)

/-- A reference at the start of a text, with the rest. The text has the given offset. -/
def matchAt?
    (offset : Nat)
    (cs : List Char) : Option (ReferenceMatch × List Char) :=
  match bareAt? offset cs with
  | some found => some found
  | none => bracedAt? offset cs

/-- The first reference of a text, with the rest behind it. -/
def find? (offset : Nat) : List Char → Option (ReferenceMatch × List Char)
  | [] => none
  | c :: cs =>
    match matchAt? offset (c :: cs) with
    | some found => some found
    | none => find? (offset + c.utf8Size) cs

theorem digits?_eq_some_iff
    {cs digits rest : List Char} :
    digits? cs = some (digits, rest) ↔
      digits ≠ [] ∧ digits = cs.takeWhile Unicode.isDigit ∧
        rest = cs.dropWhile Unicode.isDigit := by
  unfold digits?
  split
  · rename_i hnil
    rw [hnil]
    constructor
    · rintro ⟨⟩
    · rintro ⟨hne, rfl, -⟩
      exact absurd rfl hne
  · rename_i ds hds
    simp only [Option.some.injEq, Prod.mk.injEq]
    constructor
    · rintro ⟨rfl, rfl⟩
      exact ⟨hds, rfl, rfl⟩
    · rintro ⟨-, rfl, rfl⟩
      exact ⟨rfl, rfl⟩

theorem dropList_eq_some_iff
    {expected cs rest : List Char} :
    dropList expected cs = some rest ↔ cs = expected ++ rest := by
  fun_induction dropList expected cs with
  | case1 cs => simp
  | case2 => simp
  | case3 e es cs ih => simp [ih]
  | case4 e es c cs hne => simp [Ne.symm hne]

theorem command?_eq_some_iff
    {cs rest : List Char}
    {command : String} :
    command? cs = some (command, rest) ↔
      (command = "downcase" ∨ command = "upcase") ∧ cs = command.toList ++ rest := by
  unfold command?
  split
  · rename_i after hdown
    rw [dropList_eq_some_iff] at hdown
    subst hdown
    simp only [Option.some.injEq, Prod.mk.injEq]
    constructor
    · rintro ⟨rfl, rfl⟩
      exact ⟨.inl rfl, rfl⟩
    · rintro ⟨rfl | rfl, h⟩
      · exact ⟨rfl, List.append_cancel_left h⟩
      · simp at h
  · rename_i hdown
    simp only [Option.map_eq_some_iff, dropList_eq_some_iff, Prod.mk.injEq]
    constructor
    · rintro ⟨_, rfl, rfl, rfl⟩
      exact ⟨.inr rfl, rfl⟩
    · rintro ⟨rfl | rfl, rfl⟩
      · have hsome := dropList_eq_some_iff.mpr (Eq.refl ("downcase".toList ++ rest))
        exact absurd (hdown.symm.trans hsome) (by simp)
      · exact ⟨rest, rfl, rfl, rfl⟩

theorem length_of_digits?
    {cs digits rest : List Char}
    (h : digits? cs = some (digits, rest)) :
    rest.length ≤ cs.length := by
  obtain ⟨-, -, rfl⟩ := digits?_eq_some_iff.mp h
  exact (List.dropWhile_sublist Unicode.isDigit).length_le

theorem length_of_bareAt?
    {offset : Nat}
    {cs rest : List Char}
    {m : ReferenceMatch}
    (h : bareAt? offset cs = some (m, rest)) :
    rest.length < cs.length := by
  simp only [bareAt?, Option.bind_eq_some_iff, dropList_eq_some_iff, Option.map_eq_some_iff,
    Prod.exists, Prod.mk.injEq] at h
  obtain ⟨behind, rfl, digits, rest, hdigits, -, rfl⟩ := h
  have hle := length_of_digits? hdigits
  simp only [List.length_append, List.length_cons, List.length_nil]
  omega

theorem length_of_bracedAt?
    {offset : Nat}
    {cs rest : List Char}
    {m : ReferenceMatch}
    (h : bracedAt? offset cs = some (m, rest)) :
    rest.length < cs.length := by
  simp only [bracedAt?, Option.bind_eq_some_iff, dropList_eq_some_iff, Option.map_eq_some_iff,
    command?_eq_some_iff, Prod.exists, Prod.mk.injEq] at h
  obtain ⟨_, rfl, digits, _, hdigits, _, rfl, command, _, ⟨-, rfl⟩, _, rfl, -, rfl⟩ := h
  have hle := length_of_digits? hdigits
  simp only [List.length_append, List.length_cons, List.length_nil] at hle ⊢
  omega

theorem length_of_find?
    {offset : Nat}
    {cs rest : List Char}
    {m : ReferenceMatch}
    (h : find? offset cs = some (m, rest)) :
    rest.length < cs.length := by
  fun_induction find? offset cs with
  | case1 => simp at h
  | case2 offset c cs found hfound =>
    simp only [Option.some.injEq] at h
    subst h
    unfold matchAt? at hfound
    split at hfound
    · rename_i hbare
      exact length_of_bareAt? (hbare.trans hfound)
    · exact length_of_bracedAt? hfound
  | case3 offset c cs hnone ih =>
    have := ih h
    simp only [List.length_cons]
    omega

end Pattern

/-- The references of a text from left to right; each search starts behind the last match. -/
def references
    (offset : Nat)
    (cs : List Char) : List ReferenceMatch :=
  match _h : find? offset cs with
  | some (m, rest) => m :: references m.span.last rest
  | none => []
termination_by cs.length
decreasing_by exact length_of_find? _h

theorem references_of_find?
    {offset : Nat}
    {cs rest : List Char}
    {m : ReferenceMatch}
    (h : find? offset cs = some (m, rest)) :
    references offset cs = m :: references m.span.last rest := by
  rw [references]
  split
  · rename_i hfound
    obtain ⟨rfl, rfl⟩ := Prod.mk.inj (Option.some.inj (h.symm.trans hfound))
    rfl
  · rename_i hnone
    exact absurd (h.symm.trans hnone) (by simp)

theorem references_of_find?_eq_none
    {offset : Nat}
    {cs : List Char}
    (h : find? offset cs = none) :
    references offset cs = [] := by
  rw [references]
  split
  · rename_i hfound
    exact absurd (h.symm.trans hfound) (by simp)
  · rfl

/-- Whether the name refers to groups. -/
def refers (t : NameTemplate) : Bool :=
  (find? 0 t.text.toList).isSome

/-- A text in the case that a command asks for. -/
def changeCase
    (command : Option String)
    (s : String) : String :=
  match command with
  | some "downcase" => Unicode.lower s
  | some "upcase" => Unicode.upper s
  | _ => s

/-- The text inserted for a reference. A reference to a group that the match does not have stays
as it was written. -/
def inserted
    (t : NameTemplate)
    (line : String)
    (groups : Groups)
    (m : ReferenceMatch) : String :=
  match (Text.Decimal.index? m.request.1).bind (groups[·]?) with
  | none => Text.slice t.text m.span.first m.span.last
  | some group =>
    let captured := (group.bind fun s => Text.slice? line s.first s.last).getD ""
    changeCase m.request.2 (Text.trimStart (· == '.') captured)

/-- A name that is being written: what has been written, and where the part of the template starts
that has not been copied. -/
structure Expansion where
  out : String
  last : Nat

/-- Copies the template up to a reference and inserts the text for it. -/
def Expansion.insert
    (t : NameTemplate)
    (line : String)
    (groups : Groups)
    (e : Expansion)
    (m : ReferenceMatch) : Expansion where
  out := e.out ++ Text.slice t.text e.last m.span.first ++ t.inserted line groups m
  last := m.span.last

/-- The name, with what is left of the template. -/
def Expansion.finish
    (t : NameTemplate)
    (e : Expansion) : String :=
  e.out ++ Text.sliceFrom t.text e.last

/-- The name for a match. A template without references is the name itself. -/
def resolve
    (t : NameTemplate)
    (line : String)
    (groups : Groups) : String :=
  if t.refers then
    ((references 0 t.text.toList).foldl (Expansion.insert t line groups) ⟨"", 0⟩).finish t
  else
    t.text

/-- The form shown in descriptions. -/
def describe (t : NameTemplate) : String :=
  Text.quote t.text

end NameTemplate

end LineScopes
