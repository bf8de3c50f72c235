import LineScopes.Style.Metadata
import Mathlib.Data.List.Induction
import Mathlib.Data.List.ReduceOption

/-!
# Updates of packed metadata

An update takes a word of metadata apart, replaces the fields that are given and packs the word
again. However many updates follow one another, the fields never touch each other: in the end each
one holds the last number given for it, cut to its width.

**Main definitions.** `Metadata.Slot` with `read` and `write`: a field as the bits under a mask.
`lastGiven`, `Attributes.number?`.

**Main statements.** `update_eq_writes`: an update in masks and shifts. `number_update`: what one
update does to one field. `number_foldl_update`: any number of updates.
-/

namespace LineScopes

/-- The last value of a list that is given. -/
def lastGiven
    {α : Type}
    (values : List (Option α)) : Option α :=
  values.reduceOption.getLast?

@[simp] theorem lastGiven_concat
    {α : Type}
    (values : List (Option α))
    (value : Option α) :
    lastGiven (values ++ [value]) = value.or (lastGiven values) := by
  cases value with
  | none =>
      simp [lastGiven, List.reduceOption_append]
  | some v =>
      simp [lastGiven, List.reduceOption_append]

namespace Metadata

/-- The fields of a word. -/
inductive Slot where
  | language
  | type
  | font
  | foreground
  | background

namespace Slot

/-- The lowest bit of a field. -/
def offset : Slot → Nat
  | language => 0
  | type => 8
  | font => 10
  | foreground => 14
  | background => 23

/-- The number of bits of a field. -/
def width : Slot → Nat
  | language => 8
  | type => 2
  | font => 4
  | foreground => 9
  | background => 9

/-- The bits of a field. -/
def mask : Slot → BitVec 32
  | language => 0b0000_0000_0000_0000_0000_0000_1111_1111
  | type => 0b0000_0000_0000_0000_0000_0011_0000_0000
  | font => 0b0000_0000_0000_0000_0011_1100_0000_0000
  | foreground => 0b0000_0000_0111_1111_1100_0000_0000_0000
  | background => 0b1111_1111_1000_0000_0000_0000_0000_0000

/-- The number in a field. -/
def read
    (p : Slot)
    (m : Metadata) : BitVec 32 :=
  (m &&& p.mask) >>> p.offset

/-- The word with a number in one field; what does not fit is cut off. -/
def write
    (p : Slot)
    (n : BitVec 32) : Metadata :=
  (n <<< p.offset) &&& p.mask

/-- The lowest bits of a number, as many as the field has. -/
def cut
    (p : Slot)
    (n : BitVec 32) : BitVec 32 :=
  (n.setWidth p.width).setWidth 32

theorem offset_add_width_le
    (p : Slot) :
    p.offset + p.width ≤ 32 := by
  cases p <;> decide

theorem getLsbD_mask
    (p : Slot)
    (i : Nat) :
    p.mask.getLsbD i = decide (p.offset ≤ i ∧ i < p.offset + p.width) := by
  by_cases hi : i < 32
  · revert i
    cases p <;> decide
  · have hle := p.offset_add_width_le
    have hout : ¬ i < p.offset + p.width := by omega
    rw [BitVec.getLsbD_of_ge _ _ (by omega)]
    simp [hout]

theorem getLsbD_read
    (p : Slot)
    (m : Metadata)
    (i : Nat) :
    (p.read m).getLsbD i = (decide (i < p.width) && m.getLsbD (p.offset + i)) := by
  unfold read
  rw [BitVec.getLsbD_ushiftRight, BitVec.getLsbD_and, getLsbD_mask]
  simp [Bool.and_comm]

theorem getLsbD_write
    (p : Slot)
    (n : BitVec 32)
    (i : Nat) :
    (p.write n).getLsbD i =
      (decide (p.offset ≤ i ∧ i < p.offset + p.width) && n.getLsbD (i - p.offset)) := by
  unfold write
  rw [BitVec.getLsbD_and, BitVec.getLsbD_shiftLeft, getLsbD_mask]
  by_cases h : p.offset ≤ i ∧ i < p.offset + p.width
  · have hle := p.offset_add_width_le
    have hi : i < 32 := by omega
    have hoffset : ¬ i < p.offset := by omega
    simp [h, hi, hoffset]
  · simp [h]

/-- Cutting a number before it is written changes nothing. -/
theorem write_cut
    (p : Slot)
    (n : BitVec 32) :
    p.write (p.cut n) = p.write n := by
  apply BitVec.eq_of_getLsbD_eq
  intro i hi
  rw [getLsbD_write, getLsbD_write]
  by_cases h : p.offset ≤ i ∧ i < p.offset + p.width
  · have hwidth : i - p.offset < p.width := by omega
    have hin : i - p.offset < 32 := by omega
    simp [cut, hwidth, hin]
  · simp [h]

end Slot
end Metadata

open Metadata (Slot)

/-- A field as a number. -/
def Fields.number
    (f : Fields) : Slot → BitVec 32
  | .language => f.language.setWidth 32
  | .type => f.type.toBits.setWidth 32
  | .font => f.font.bits.setWidth 32
  | .foreground => f.foreground.setWidth 32
  | .background => f.background.setWidth 32

/-- The number that is given for a field; 0 is none. -/
def Attributes.number?
    (a : Attributes) : Slot → Option (BitVec 32)
  | .language => if a.language = 0 then none else some (BitVec.ofNat 32 a.language)
  | .type => a.type.map fun t => t.toBits.setWidth 32
  | .font => a.font.map fun f => f.bits.setWidth 32
  | .foreground => if a.foreground = 0 then none else some (BitVec.ofNat 32 a.foreground)
  | .background => if a.background = 0 then none else some (BitVec.ofNat 32 a.background)

namespace Metadata

/-- The fields of a word are read by mask and shift. -/
theorem read_eq_number
    (p : Slot)
    (m : Metadata) :
    p.read m = m.fields.number p := by
  apply BitVec.eq_of_getLsbD_eq
  intro i hi
  rw [Slot.getLsbD_read]
  cases p <;> simp [Fields.number, fields, hi, Slot.offset, Slot.width] <;> rfl

/-- Fields are packed by shift and mask. -/
theorem pack_eq_writes
    (f : Fields) :
    f.pack = Slot.language.write (f.number .language) ||| Slot.type.write (f.number .type) |||
      Slot.font.write (f.number .font) ||| Slot.foreground.write (f.number .foreground) |||
      Slot.background.write (f.number .background) := by
  apply BitVec.eq_of_getLsbD_eq
  intro i hi
  simp only [Fields.getLsbD_pack, BitVec.getLsbD_or, Slot.getLsbD_write, Fields.number,
    BitVec.getLsbD_setWidth, Slot.offset, Slot.width]
  split_ifs <;> grind

/-- A number that is given replaces the present one. -/
theorem setWidth_replaced
    {w : Nat}
    (hw : w ≤ 32)
    (present : BitVec w)
    (n : Nat) :
    (replaced present n).setWidth 32 =
      ((if n = 0 then none else some (BitVec.ofNat 32 n)).map fun k =>
        (k.setWidth w).setWidth 32).getD (present.setWidth 32) := by
  unfold replaced
  split
  · rfl
  · simp [BitVec.setWidth_ofNat_of_le hw]

/-- After an update each field holds the number given for it, or what it held before. -/
theorem number_update
    (m : Metadata)
    (a : Attributes)
    (p : Slot) :
    (m.update a).fields.number p = ((a.number? p).map p.cut).getD (m.fields.number p) := by
  unfold update
  rw [fields_pack]
  cases p with
  | language =>
      exact setWidth_replaced (by decide) m.fields.language a.language
  | type =>
      cases htype : a.type <;>
        simp [Fields.number, Attributes.number?, htype, Slot.cut, Slot.width]
  | font =>
      cases hfont : a.font <;>
        simp [Fields.number, Attributes.number?, hfont, Slot.cut, Slot.width]
  | foreground =>
      exact setWidth_replaced (by decide) m.fields.foreground a.foreground
  | background =>
      exact setWidth_replaced (by decide) m.fields.background a.background

/-- The number that an update writes in a field. -/
def chosen
    (m : Metadata)
    (a : Attributes)
    (p : Slot) : BitVec 32 :=
  (a.number? p).getD (p.read m)

theorem write_chosen
    (m : Metadata)
    (a : Attributes)
    (p : Slot) :
    p.write (m.chosen a p) = p.write ((m.update a).fields.number p) := by
  rw [number_update, chosen, read_eq_number]
  cases a.number? p with
  | none =>
      rfl
  | some n =>
      exact (p.write_cut n).symm

/-- An update writes a number in each field, the given one or the present one. -/
theorem update_eq_writes
    (m : Metadata)
    (a : Attributes) :
    m.update a = Slot.language.write (m.chosen a .language) |||
      Slot.type.write (m.chosen a .type) ||| Slot.font.write (m.chosen a .font) |||
      Slot.foreground.write (m.chosen a .foreground) |||
      Slot.background.write (m.chosen a .background) := by
  simp only [write_chosen]
  rw [← pack_eq_writes, pack_fields]

/-- After some updates each field holds the last number given for it. -/
theorem number_updates
    (m : Metadata)
    (updates : List Attributes)
    (p : Slot) :
    (updates.foldl update m).fields.number p =
      ((lastGiven (updates.map (·.number? p))).map p.cut).getD (m.fields.number p) := by
  induction updates using List.reverseRecOn with
  | nil =>
      rfl
  | append_singleton updates a ih =>
      rw [List.foldl_append, List.foldl_cons, List.foldl_nil, number_update, ih, List.map_append,
        List.map_cons, List.map_nil, lastGiven_concat]
      cases a.number? p <;> rfl

/-- The numbers in its fields determine a word. -/
theorem eq_of_number_eq
    {m m' : Metadata}
    (h : ∀ p, m.fields.number p = m'.fields.number p) :
    m = m' := by
  rw [← pack_fields m, ← pack_fields m', pack_eq_writes, pack_eq_writes]
  simp only [h]

/-- Packed metadata is five fields that do not touch each other: the fields are read by mask and
shift, and they determine the word; an update writes one number in each of them by shift and mask;
and after any updates each field holds the last number given for it, cut to its width, or what it
held at the start. So the last numbers given are all that matters. -/
theorem number_foldl_update
    (m : Metadata)
    (updates : List Attributes) :
    (∀ p, (updates.foldl update m).fields.number p =
      ((lastGiven (updates.map (·.number? p))).map p.cut).getD (m.fields.number p)) ∧
      (∀ (w : Metadata) p, w.fields.number p = (w &&& p.mask) >>> p.offset) ∧
      (∀ w w' : Metadata, (∀ p, w.fields.number p = w'.fields.number p) ↔ w = w') ∧
      (∀ (w : Metadata) a, w.update a = Slot.language.write (w.chosen a .language) |||
        Slot.type.write (w.chosen a .type) ||| Slot.font.write (w.chosen a .font) |||
        Slot.foreground.write (w.chosen a .foreground) |||
        Slot.background.write (w.chosen a .background)) ∧
      ∀ updates' : List Attributes,
        (∀ p, (lastGiven (updates.map (·.number? p))).map p.cut =
          (lastGiven (updates'.map (·.number? p))).map p.cut) →
        updates.foldl update m = updates'.foldl update m := by
  refine ⟨number_updates m updates, fun w p => (read_eq_number p w).symm, fun w w' => ?_,
    update_eq_writes, fun updates' h => ?_⟩
  · constructor
    · exact eq_of_number_eq
    · rintro rfl p
      rfl
  · apply eq_of_number_eq
    intro p
    rw [number_updates, number_updates, h]

/-- A language and colors that do not fit, a color given twice, and a font that is taken away: the
same word as one update with the last values makes. -/
theorem number_foldl_update_wide :
    let updates : List Attributes := [
      { language := 258, font := some .bold, foreground := 513 },
      { type := some .comment, foreground := 1027, background := 512 },
      { font := some .empty }]
    let m : Metadata := Fields.pack ⟨9, .string, .italic, 7, 8⟩
    (updates.foldl update m).fields = ⟨2, .comment, .empty, 3, 0⟩ ∧
      updates.foldl update m = m.update {
        language := 2, type := some .comment, font := some .empty, foreground := 3,
        background := 1024 } := by
  intro updates m
  refine ⟨by decide +kernel, (number_foldl_update m updates).2.2.2.2 [_] ?_⟩
  intro p
  cases p <;> decide +kernel

end Metadata
end LineScopes
