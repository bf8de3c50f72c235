import LineScopes.Style.FontStyle
import LineScopes.Theme.Document
import LineScopes.Text.Split
import LineScopes.Unicode.Classes

/-!
# Theme rules

A theme document is flattened into one rule for every selector. Rules are brought into an order
in which a rule comes before all rules for scopes inside its own.

**Main definitions.** `ThemeRule`, `ThemeDocument.rules`, `ThemeRule.compare`, `ThemeRule.sort`.
-/

namespace LineScopes

/-- The style of one selector. -/
structure ThemeRule where
  /-- The innermost name of the selector. -/
  scope : String
  /-- The other names, innermost first; `none` if there are none. -/
  parents : Option (List String)
  /-- The position of the entry in the document. -/
  index : Nat
  /-- Without a value the font style is not set; the empty style takes flags away. -/
  font : Option FontStyle
  foreground : Option String
  background : Option String
deriving DecidableEq, Repr

/-- Whether a text is a number sign with 3, 4, 6 or 8 hexadecimal digits. -/
def isHexColor (s : String) : Bool :=
  match s.toList with
  | '#' :: digits =>
    [3, 4, 6, 8].contains digits.length && digits.all Unicode.isHexDigit
  | _ => false

/-- The selectors of an entry. An absent scope counts as one empty selector. -/
def ThemeEntry.selectors (e : ThemeEntry) : List String :=
  match e.scope with
  | none => [""]
  | some (.several texts) => texts
  | some (.single text) => Text.splitAt ',' (Text.trimBoth (· == ',') text)

/-- The rule of one selector of an entry. -/
def ThemeRule.ofSelector
    (style : EntryStyle)
    (index : Nat)
    (selector : String) : ThemeRule :=
  let names := (Text.splitAt ' ' (Text.trimBoth Unicode.isSpace selector)).reverse
  { scope := names.headD ""
    parents := if names.tail.isEmpty then none else some names.tail
    index := index
    font := style.fontStyle.map FontStyle.ofWords
    foreground := style.foreground.filter isHexColor
    background := style.background.filter isHexColor }

/-- The rules of an entry. -/
def ThemeEntry.rules
    (e : ThemeEntry)
    (index : Nat) : List ThemeRule :=
  match e.style with
  | none => []
  | some style => e.selectors.map (ThemeRule.ofSelector style index)

/-- The rules of a document, in the order they are written. -/
def ThemeDocument.rules (d : ThemeDocument) : List ThemeRule :=
  (d.entries.mapIdx fun index e => e.rules index).flatten

/-- Lists of names are ordered by length, then name by name. Nothing comes before any list. -/
def compareNames : Option (List String) → Option (List String) → Ordering
  | none, none => .eq
  | none, some _ => .lt
  | some _, none => .gt
  | some a, some b => (compare a.length b.length).then (compareEach a b)
where
  /-- Compares name by name as far as both lists go. -/
  compareEach : List String → List String → Ordering
    | x :: xs, y :: ys => (compare x y).then (compareEach xs ys)
    | _, _ => .eq

namespace ThemeRule

/-- Rules are ordered by scope, then by parents, then by their place in the document. -/
def compare (a b : ThemeRule) : Ordering :=
  (Ord.compare a.scope b.scope).then
    ((compareNames a.parents b.parents).then (Ord.compare a.index b.index))

/-- The rules in order; rules that are equal keep their places. -/
def sort (rules : List ThemeRule) : List ThemeRule :=
  rules.mergeSort fun a b => (compare a b).isLE

end ThemeRule

end LineScopes
