/-!
# Byte offsets into a text

All positions in a line are UTF-8 byte offsets. This module says which offsets lie between
characters and cuts texts at them.

**Main definitions.** `IsBoundary`, `slice?`, `charAt?`, `charBefore?`.
-/

namespace LineScopes
namespace Text

/-- `n` is the offset of a character of `s`, or the end of `s`. -/
abbrev IsBoundary
    (s : String)
    (n : Nat) : Prop :=
  String.Pos.Raw.IsValid s ⟨n⟩

/-- The text between two offsets, if both are boundaries in this order. -/
def slice?
    (s : String)
    (first last : Nat) : Option String :=
  if h : IsBoundary s first ∧ IsBoundary s last ∧ first ≤ last then
    some (s.extract (s.pos ⟨first⟩ h.1) (s.pos ⟨last⟩ h.2.1))
  else
    none

/-- The text between two offsets, empty when they do not delimit one. -/
def slice
    (s : String)
    (first last : Nat) : String :=
  (slice? s first last).getD ""

/-- The text from an offset on. -/
def sliceFrom
    (s : String)
    (first : Nat) : String :=
  slice s first s.utf8ByteSize

/-- The character that starts at an offset. -/
def charAt?
    (s : String)
    (n : Nat) : Option Char :=
  if h : IsBoundary s n then (s.pos ⟨n⟩ h).get? else none

/-- The character that ends at an offset. -/
def charBefore?
    (s : String)
    (n : Nat) : Option Char :=
  if h : IsBoundary s n then (s.pos ⟨n⟩ h).prev?.bind (·.get?) else none

/-- The offset after the character at `n`; one more than `n` at the end of the text. -/
def nextOffset
    (s : String)
    (n : Nat) : Nat :=
  n + ((charAt? s n).map Char.utf8Size).getD 1

theorem isBoundary_zero
    (s : String) :
    IsBoundary s 0 :=
  String.Pos.Raw.isValid_zero

theorem isBoundary_utf8ByteSize
    (s : String) :
    IsBoundary s s.utf8ByteSize :=
  String.Pos.Raw.isValid_rawEndPos

theorem IsBoundary.le_utf8ByteSize
    {s : String}
    {n : Nat}
    (h : IsBoundary s n) :
    n ≤ s.utf8ByteSize :=
  String.Pos.Raw.IsValid.le_rawEndPos h

theorem lt_nextOffset
    (s : String)
    (n : Nat) :
    n < nextOffset s n := by
  unfold nextOffset
  cases charAt? s n with
  | none => simp
  | some c => simp [Char.utf8Size_pos]

end Text
end LineScopes
