import LineScopes.Style.FontStyle

/-!
# Packed metadata

The attributes of a token are packed into one word of 32 bits: from the high end the background
and foreground colors (9 bits each), the font style (4), the token type (2) and the language (8).

**Main definitions.** `Metadata`, `Metadata.fields`, `Fields.pack`, `Metadata.update`.

**Main statements.** `fields_pack` and `pack_fields`: packing loses nothing and a word holds
nothing else.
-/

namespace LineScopes

/-- What kind of text a token holds. -/
inductive TokenType where
  | other
  | comment
  | string
  | regex
deriving DecidableEq, Repr, Inhabited

namespace TokenType

/-- The two bits of a token type. -/
def toBits : TokenType → BitVec 2
  | other => 0
  | comment => 1
  | string => 2
  | regex => 3

/-- The token type with the given bits. -/
def ofBits (b : BitVec 2) : TokenType :=
  if b = 1 then comment
  else if b = 2 then string
  else if b = 3 then regex
  else other

@[simp] theorem ofBits_toBits
    (t : TokenType) :
    ofBits t.toBits = t := by
  cases t <;> decide

@[simp] theorem toBits_ofBits
    (b : BitVec 2) :
    (ofBits b).toBits = b := by
  revert b
  decide

end TokenType

/-- The attributes of a token, packed. -/
abbrev Metadata := BitVec 32

/-- The attributes of a token, one by one. -/
structure Fields where
  language : BitVec 8
  type : TokenType
  font : FontStyle
  foreground : BitVec 9
  background : BitVec 9
deriving DecidableEq, Repr

/-- Packs the attributes into one word. -/
def Fields.pack (f : Fields) : Metadata :=
  f.background ++ f.foreground ++ f.font.bits ++ f.type.toBits ++ f.language

/-- Which field a bit of a packed word belongs to. -/
theorem Fields.getLsbD_pack
    (f : Fields)
    (i : Nat) :
    f.pack.getLsbD i =
      if i < 8 then f.language.getLsbD i
      else if i < 10 then f.type.toBits.getLsbD (i - 8)
      else if i < 14 then f.font.bits.getLsbD (i - 10)
      else if i < 23 then f.foreground.getLsbD (i - 14)
      else f.background.getLsbD (i - 23) := by
  have h : f.pack.getLsbD i =
      BitVec.getLsbD (w := 9 + 9 + 4 + 2 + 8)
        (f.background ++ f.foreground ++ f.font.bits ++ f.type.toBits ++ f.language) i := rfl
  rw [h, BitVec.getLsbD_append, BitVec.getLsbD_append, BitVec.getLsbD_append,
    BitVec.getLsbD_append]
  have h₁ : i - 8 - 2 = i - 10 := by omega
  have h₂ : i - 10 - 4 = i - 14 := by omega
  have h₃ : i - 14 - 9 = i - 23 := by omega
  rw [h₁, h₂, h₃]
  have h₄ : i - 8 < 2 ↔ i < 10 := by omega
  have h₅ : i - 10 < 4 ↔ i < 14 := by omega
  have h₆ : i - 14 < 9 ↔ i < 23 := by omega
  simp only [h₄, h₅, h₆]

/-- New values for some attributes. A number 0 and `none` keep the present value. -/
structure Attributes where
  language : Nat := 0
  type : Option TokenType := none
  font : Option FontStyle := none
  foreground : Nat := 0
  background : Nat := 0
deriving DecidableEq, Repr

namespace Metadata

/-- The attributes packed in a word. -/
def fields (m : Metadata) : Fields where
  language := m.extractLsb' 0 8
  type := .ofBits (m.extractLsb' 8 2)
  font := ⟨m.extractLsb' 10 4⟩
  foreground := m.extractLsb' 14 9
  background := m.extractLsb' 23 9

@[simp] theorem fields_pack
    (f : Fields) :
    fields f.pack = f := by
  rcases f with ⟨language, type, ⟨font⟩, foreground, background⟩
  simp only [fields, Fields.mk.injEq, FontStyle.mk.injEq]
  refine ⟨?_, ?_, ?_, ?_, ?_⟩
  · ext i hi
    simp [Fields.getLsbD_pack, hi]
  · refine (congrArg TokenType.ofBits ?_).trans (TokenType.ofBits_toBits type)
    ext i hi
    have h : 8 + i < 10 := by omega
    have h₁ : ¬ 8 + i < 8 := by omega
    simp [Fields.getLsbD_pack, h, h₁, BitVec.getLsbD_eq_getElem hi]
  · ext i hi
    have h : 10 + i < 14 := by omega
    have h₁ : ¬ 10 + i < 8 := by omega
    have h₂ : ¬ 10 + i < 10 := by omega
    simp [Fields.getLsbD_pack, h, h₁, h₂, BitVec.getLsbD_eq_getElem hi]
  · ext i hi
    have h : 14 + i < 23 := by omega
    have h₁ : ¬ 14 + i < 8 := by omega
    have h₂ : ¬ 14 + i < 10 := by omega
    have h₃ : ¬ 14 + i < 14 := by omega
    simp [Fields.getLsbD_pack, h, h₁, h₂, h₃, BitVec.getLsbD_eq_getElem hi]
  · ext i hi
    have h₁ : ¬ 23 + i < 8 := by omega
    have h₂ : ¬ 23 + i < 10 := by omega
    have h₃ : ¬ 23 + i < 14 := by omega
    have h₄ : ¬ 23 + i < 23 := by omega
    simp [Fields.getLsbD_pack, h₁, h₂, h₃, h₄, BitVec.getLsbD_eq_getElem hi]

@[simp] theorem pack_fields
    (m : Metadata) :
    (fields m).pack = m := by
  ext i hi
  rw [← BitVec.getLsbD_eq_getElem, Fields.getLsbD_pack]
  simp only [fields, TokenType.toBits_ofBits, BitVec.getLsbD_extractLsb']
  rw [← BitVec.getLsbD_eq_getElem hi]
  have h₁ : i < 8 ∨ (8 ≤ i ∧ i < 10) ∨ (10 ≤ i ∧ i < 14) ∨ (14 ≤ i ∧ i < 23) ∨ 23 ≤ i := by omega
  rcases h₁ with h | ⟨h, h'⟩ | ⟨h, h'⟩ | ⟨h, h'⟩ | h
  · simp [h]
  · have h₂ : ¬ i < 8 := by omega
    have h₃ : i - 8 < 2 := by omega
    simp [h₂, h', h₃, Nat.add_sub_cancel' h]
  · have h₂ : ¬ i < 8 := by omega
    have h₃ : ¬ i < 10 := by omega
    have h₄ : i - 10 < 4 := by omega
    simp [h₂, h₃, h', h₄, Nat.add_sub_cancel' h]
  · have h₂ : ¬ i < 8 := by omega
    have h₃ : ¬ i < 10 := by omega
    have h₄ : ¬ i < 14 := by omega
    have h₅ : i - 14 < 9 := by omega
    simp [h₂, h₃, h₄, h', h₅, Nat.add_sub_cancel' h]
  · have h₂ : ¬ i < 8 := by omega
    have h₃ : ¬ i < 10 := by omega
    have h₄ : ¬ i < 14 := by omega
    have h₅ : ¬ i < 23 := by omega
    have h₆ : i - 23 < 9 := by omega
    simp [h₂, h₃, h₄, h₅, h₆, Nat.add_sub_cancel' h]

/-- The present value for 0, and the lowest bits of the number otherwise. -/
def replaced {w : Nat} (present : BitVec w) (n : Nat) : BitVec w :=
  if n = 0 then present else BitVec.ofNat w n

/-- Replaces the attributes that are given. -/
def update
    (m : Metadata)
    (a : Attributes) : Metadata :=
  let f := m.fields
  Fields.pack {
    language := replaced f.language a.language
    type := a.type.getD f.type
    font := a.font.getD f.font
    foreground := replaced f.foreground a.foreground
    background := replaced f.background a.background }

/-- The 32 binary digits of a word. -/
def binaryDigits (m : Metadata) : String :=
  String.ofList ((List.range 32).map fun i => if m.getMsbD i then '1' else '0')

end Metadata

end LineScopes
