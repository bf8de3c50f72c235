/-!
# Anchors in force

A pattern may refer to the start of the document (`\A`) and to the place where the scan of a
region began (`\G`). Both match only where they are allowed.

**Main definitions.** `Anchors`, `Anchors.ofScan`, `Anchors.withG`.
-/

namespace LineScopes

/-- Which anchors can match in a scan. -/
structure Anchors where
  allowA : Bool
  allowG : Bool
deriving DecidableEq, Repr, Inhabited

namespace Anchors

/-- The anchors for a scan at `pos`. -/
def ofScan
    (firstLine : Bool)
    (anchor : Option Nat)
    (pos : Nat) : Anchors :=
  ⟨firstLine, anchor == some pos⟩

/-- The same anchors with `\G` allowed. -/
def withG (a : Anchors) : Anchors :=
  { a with allowG := true }

/-- All settings, from none to both. -/
def every : List Anchors :=
  [⟨false, false⟩, ⟨true, false⟩, ⟨false, true⟩, ⟨true, true⟩]

/-- The form shown in descriptions. -/
def describe (a : Anchors) : String :=
  "allow_A=" ++ toString a.allowA ++ ", allow_G=" ++ toString a.allowG

end Anchors

end LineScopes
