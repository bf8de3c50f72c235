import LineScopes.Text.Split

/-!
# References to rules

**Main definitions.** `Reference`, `Reference.ofText`.
-/

namespace LineScopes

/-- What an include refers to. -/
inductive Reference where
  /-- The root patterns of the grammar the include is written in. -/
  | self
  /-- The root patterns of the grammar being compiled. -/
  | base
  /-- A named rule of the surrounding repositories. -/
  | named (name : String)
  /-- The root patterns of another grammar. -/
  | whole (scope : String)
  /-- A named rule of another grammar. -/
  | part (scope name : String)
deriving DecidableEq, Repr

/-- Reads a reference. The first `#` separates a scope from a name. -/
def Reference.ofText (s : String) : Reference :=
  if s = "$self" then .self
  else if s = "$base" then .base
  else
    match Text.splitOnce? '#' s with
    | none => .whole s
    | some (scope, name) => if scope = "" then .named name else .part scope name

end LineScopes
