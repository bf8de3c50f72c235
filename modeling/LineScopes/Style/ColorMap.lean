import LineScopes.Error
import LineScopes.Unicode.Case

/-!
# Color maps

Colors are written in packed metadata by number. Number 0 means "not set". A growing map gives a
new number to every new color, and a fixed map knows only the colors it was made of.

**Main definitions.** `ColorMap`, `ColorMap.id`, `ColorMap.colors`, `ColorMap.color?`.
-/

namespace LineScopes

/-- How colors are numbered. -/
inductive ColorMap where
  /-- The colors met so far in uppercase; the first one has number 1. -/
  | growing (seen : List String)
  /-- Fixed colors; the position of a color is its number. -/
  | fixed (colors : List String)
deriving DecidableEq, Repr

namespace ColorMap

/-- The map that has not met any color. -/
def empty : ColorMap :=
  .growing []

/-- Whether the map knows only the colors it was made of. -/
def isFixed : ColorMap → Bool
  | growing _ => false
  | fixed _ => true

/-- The last position of a list whose element satisfies `p`. -/
def lastIndex? (p : String → Bool) : List String → Option Nat
  | [] => none
  | c :: rest =>
    match lastIndex? p rest with
    | some i => some (i + 1)
    | none => if p c then some 0 else none

/-- The number of a color, with the map that knows it. In a fixed map position 0 is no number. -/
def id
    (m : ColorMap)
    (color : String) : Except Error (Nat × ColorMap) :=
  let wanted := Unicode.upper color
  match m with
  | growing seen =>
    match seen.findIdx? (· == wanted) with
    | some i => .ok (i + 1, m)
    | none => .ok (seen.length + 1, .growing (seen ++ [wanted]))
  | fixed colors =>
    match lastIndex? (fun c => Unicode.upper c == wanted) colors with
    | some (i + 1) => .ok (i + 1, m)
    | _ => .error (.missingColor wanted)

/-- The number of a color that may be absent: an absent color is not set. -/
def id?
    (m : ColorMap)
    (color : Option String) : Except Error (Nat × ColorMap) :=
  match color with
  | none => .ok (0, m)
  | some c => m.id c

/-- The color of every number. Number 0 has no color in a growing map. -/
def colors : ColorMap → List String
  | growing seen => "" :: seen
  | fixed colors => colors

/-- The color of a number other than 0. -/
def color?
    (m : ColorMap)
    (n : Nat) : Option String :=
  if n = 0 then none else m.colors[n]?

end ColorMap

end LineScopes
