import LineScopes.Json.Reader
import LineScopes.Json.Record
import LineScopes.Theme.Document

/-!
# Reading theme documents

**Main definitions.** `ThemeDocument.ofJson`, `ThemeDocument.parse`.
-/

namespace LineScopes

open Json (Field record optional orDefault readText readList)

/-- Reads the scopes of an entry: a text or a list of texts. -/
def EntryScope.ofJson : Json → Except Error EntryScope
  | .string (some t) => .ok (.single t)
  | .array items => .several <$> items.mapM readText
  | _ => .error .badDocument

/-- Reads the style of an entry. -/
def EntryStyle.ofJson (j : Json) : Except Error EntryStyle := do
  let fields ← record [⟨"fontStyle", []⟩, ⟨"foreground", []⟩, ⟨"background", []⟩] j
  return {
    fontStyle := ← optional readText (fields.lookup "fontStyle")
    foreground := ← optional readText (fields.lookup "foreground")
    background := ← optional readText (fields.lookup "background") }

/-- Reads an entry. -/
def ThemeEntry.ofJson (j : Json) : Except Error ThemeEntry := do
  let fields ← record [⟨"name", []⟩, ⟨"scope", []⟩, ⟨"settings", []⟩] j
  return {
    name := ← optional readText (fields.lookup "name")
    scope := ← optional EntryScope.ofJson (fields.lookup "scope")
    style := ← optional EntryStyle.ofJson (fields.lookup "settings") }

/-- Reads a theme. Its entries are called `settings` or `tokenColors`. -/
def ThemeDocument.ofJson (j : Json) : Except Error ThemeDocument := do
  let fields ← record [⟨"name", []⟩, ⟨"settings", ["tokenColors"]⟩] j
  return {
    name := ← optional readText (fields.lookup "name")
    entries := ← orDefault (readList ThemeEntry.ofJson) [] (fields.lookup "settings") }

/-- Reads the text of a theme document. -/
def ThemeDocument.parse (s : String) : Except Error ThemeDocument :=
  match Json.parse s with
  | some j => ofJson j
  | none => .error .badDocument

end LineScopes
