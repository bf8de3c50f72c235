/-!
# Reading decimal indices

Group numbers are written with ASCII digits and an optional plus sign. A number that does not fit
a machine word is no index.

**Main definitions.** `value`, `index?`.

**Main statements.** `index?_ofList`: digits are read as the number they write.
-/

namespace LineScopes
namespace Text
namespace Decimal

/-- The number written by a list of ASCII digits. -/
def value (digits : List Char) : Nat :=
  digits.foldl (fun n c => 10 * n + (c.toNat - '0'.toNat)) 0

/-- Indices are below this bound. -/
def indexBound : Nat := UInt64.size

/-- Reads at least one digit, after an optional plus sign. -/
def index? (s : String) : Option Nat :=
  let digits :=
    match s.toList with
    | '+' :: rest => rest
    | cs => cs
  if digits ≠ [] && digits.all Char.isDigit && value digits < indexBound then
    some (value digits)
  else
    none

/-- Without a sign, digits are read as the number they write. -/
theorem index?_ofList
    {digits : List Char}
    (hne : digits ≠ [])
    (hdigits : ∀ d ∈ digits, d.isDigit = true) :
    index? (String.ofList digits) =
      if value digits < indexBound then some (value digits) else none := by
  have hall : digits.all Char.isDigit = true := List.all_eq_true.mpr hdigits
  obtain ⟨d, ds, rfl⟩ := List.exists_cons_of_ne_nil hne
  have hsign : d ≠ '+' := by
    rintro rfl
    exact absurd (hdigits '+' List.mem_cons_self) (by decide)
  unfold index?
  rw [String.toList_ofList]
  simp [hsign, hall]

end Decimal
end Text
end LineScopes
