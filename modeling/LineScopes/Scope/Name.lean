/-!
# Matching scope names

A scope name is a dotted label such as `constant.numeric.hex`. A pattern `constant.numeric`
covers it, because it ends at a dot of the name.

**Main definitions.** `Scope.covers`, `Scope.embeds`, `Scope.dottedParts`.

**Main statements.** `embeds_eq_walks`: the test of the lengths changes nothing.
-/

namespace LineScopes
namespace Scope

/-- Whether the pattern is the name itself or a leading part of it that ends before a dot. -/
def covers
    (pattern name : String) : Bool :=
  name == pattern || (pattern.toList ++ ['.']).isPrefixOf name.toList

/-- Looks for a scope for every identifier, each one further inward than the one before. Scopes are
given outermost first; an empty scope is never covered. -/
def walks : (identifiers scopes : List String) → Bool
  | [], _ => true
  | _ :: _, [] => false
  | i :: is, s :: ss =>
    if s ≠ "" && covers i s then walks is ss else walks (i :: is) ss

/-- Whether every identifier covers a scope, in order. There have to be enough scopes. -/
def embeds (identifiers scopes : List String) : Bool :=
  if scopes.length < identifiers.length then false else walks identifiers scopes

theorem length_le_of_walks
    {identifiers scopes : List String}
    (h : walks identifiers scopes = true) :
    identifiers.length ≤ scopes.length := by
  fun_induction walks identifiers scopes with
  | case1 => exact Nat.zero_le _
  | case2 => cases h
  | case3 i is s ss hmeets ih => exact Nat.succ_le_succ (ih h)
  | case4 i is s ss hmeets ih => exact Nat.le_succ_of_le (ih h)

/-- Counting the scopes first makes no difference. -/
theorem embeds_eq_walks
    (identifiers scopes : List String) :
    embeds identifiers scopes = walks identifiers scopes := by
  unfold embeds
  split
  · rename_i hfew
    symm
    rw [Bool.eq_false_iff]
    exact fun h => Nat.not_lt.mpr (length_le_of_walks h) hfew
  · rfl

/-- Cuts a character list at its dots; an empty last piece is dropped. -/
def dottedChars : List Char → List (List Char)
  | [] => []
  | c :: rest =>
    if c = '.' then
      [] :: dottedChars rest
    else
      match dottedChars rest with
      | [] => [[c]]
      | piece :: pieces => (c :: piece) :: pieces

/-- The dotted parts of a name. A dot at the end starts no further part, and the empty name has
no part. -/
def dottedParts
    (name : String) : List String :=
  (dottedChars name.toList).map String.ofList

end Scope
end LineScopes
