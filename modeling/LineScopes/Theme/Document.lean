/-!
# Theme documents

A theme document lists entries; an entry gives a style to the scopes its selectors name.

**Main definitions.** `ThemeDocument`, `ThemeEntry`, `EntryStyle`, `EntryScope`.
-/

namespace LineScopes

/-- The style part of an entry, as written. -/
structure EntryStyle where
  fontStyle : Option String := none
  foreground : Option String := none
  background : Option String := none
deriving DecidableEq, Repr, Inhabited

/-- The scopes of an entry, as written. -/
inductive EntryScope where
  /-- Selectors separated by commas. -/
  | single (text : String)
  /-- One selector each. -/
  | several (texts : List String)
deriving DecidableEq, Repr

/-- An entry of a theme. An entry without a style is ignored. -/
structure ThemeEntry where
  name : Option String := none
  scope : Option EntryScope := none
  style : Option EntryStyle := none
deriving DecidableEq, Repr, Inhabited

/-- A theme as written. -/
structure ThemeDocument where
  name : Option String := none
  entries : List ThemeEntry := []
deriving DecidableEq, Repr, Inhabited

end LineScopes
