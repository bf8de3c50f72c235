import LineScopes.Error
import LineScopes.Text.Span

/-!
# Regular expression engines

The tokenizer works with any engine: something that turns a list of patterns into a scanner, and
a scanner finds the earliest match of any of them. What the tokenizer relies on is `Lawful`.

**Main definitions.** `Found`, `Scanner`, `Engine`, `Scanner.Lawful`, `Engine.Lawful`.
-/

namespace LineScopes

/-- A match: which pattern of the list matched, and the spans of its groups. -/
structure Found where
  index : Nat
  groups : Groups
deriving DecidableEq, Repr, Inhabited

namespace Found

/-- Where the match starts. -/
def first (m : Found) : Nat :=
  ((m.groups.span? 0).map Span.first).getD 0

/-- Where the match ends. -/
def last (m : Found) : Nat :=
  ((m.groups.span? 0).map Span.last).getD 0

end Found

/-- Finds the match that starts earliest at or after an offset of a text. Of several at the same
place the first pattern wins. -/
abbrev Scanner := (text : String) → (start : Nat) → Option Found

/-- Compiles lists of patterns. -/
structure Engine where
  /-- The name shown in descriptions. -/
  name : String
  compile : List String → Except Error Scanner

/-- Whether a span delimits a part of a text. -/
def Span.Within
    (s : Span)
    (text : String) : Prop :=
  Text.IsBoundary text s.first ∧ Text.IsBoundary text s.last ∧ s.first ≤ s.last

/-- What the tokenizer relies on: a match starts at or after the offset of the scan, and every span
delimits a part of the text. -/
def Scanner.Lawful (scan : Scanner) : Prop :=
  ∀ text start found,
    Text.IsBoundary text start →
    scan text start = some found →
      start ≤ found.first ∧
      ∀ n s, found.groups.span? n = some s → s.Within text

/-- Every scanner of the engine is lawful. -/
def Engine.Lawful (e : Engine) : Prop :=
  ∀ patterns scan, e.compile patterns = .ok scan → scan.Lawful

end LineScopes
