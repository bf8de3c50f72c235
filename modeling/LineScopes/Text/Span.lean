import LineScopes.Text.Offset

/-!
# Spans of captured groups

**Main definitions.** `Span`, `Groups`, `Groups.text?`.
-/

namespace LineScopes

/-- The part of a text between two byte offsets. -/
structure Span where
  first : Nat
  last : Nat
deriving DecidableEq, Repr, Inhabited

/-- The spans of the groups of a match, the whole match being group 0. A group that did not take
part has no span. -/
abbrev Groups := List (Option Span)

namespace Groups

/-- The span of a group, if there is such a group and it took part. -/
def span?
    (g : Groups)
    (n : Nat) : Option Span :=
  g[n]?.join

/-- The text of a group that took part, if its span lies between characters of the line. -/
def text?
    (g : Groups)
    (line : String)
    (n : Nat) : Option String :=
  (g.span? n).bind fun s => Text.slice? line s.first s.last

end Groups

end LineScopes
