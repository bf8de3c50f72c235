import LineScopes.Unicode.Classes
import LineScopes.Unicode.CaseTable

/-!
# Case mapping of texts

Full lowercase and uppercase mappings. A character may become several, and a capital sigma
becomes the final form `ς` at the end of a word.

**Main definitions.** `lower`, `upper`.
-/

namespace LineScopes
namespace Unicode

/-- Whether a run moves a code point. -/
def CaseRun.covers
    (r : CaseRun)
    (n : Nat) : Bool :=
  r.first ≤ n && n ≤ r.last && (n - r.first) % r.step == 0

/-- Moves a character by the first run that covers it. -/
def mapByRuns
    (runs : Array CaseRun)
    (c : Char) : Char :=
  match runs.find? (·.covers c.toNat) with
  | some r => Char.ofNat (Int.toNat (Int.ofNat c.toNat + r.shift))
  | none => c

/-- The lowercase form of a character outside any word. -/
def lowerChar (c : Char) : List Char :=
  if c.toNat < 0x80 then [c.toLower]
  else if c == 'İ' then ['i', Char.ofNat 0x307]
  else [mapByRuns lowerRuns c]

/-- The uppercase form of a character. -/
def upperChar (c : Char) : List Char :=
  if c.toNat < 0x80 then [c.toUpper]
  else
    match upperExpansions.lookup c.toNat with
    | some codes => codes.map Char.ofNat
    | none => [mapByRuns upperRuns c]

/-- Whether the first character that is not ignored has a case. -/
def casedAhead (cs : List Char) : Bool :=
  match cs.dropWhile caseIgnorable.contains with
  | [] => false
  | c :: _ => isCased c

/-- Lowercases a text; `before` holds the characters already passed, the last one first. -/
def lowerFrom (before : List Char) : List Char → List Char
  | [] => []
  | c :: rest =>
    let mapped :=
      if c == 'Σ' then
        if casedAhead before && !casedAhead rest then ['ς'] else ['σ']
      else
        lowerChar c
    mapped ++ lowerFrom (c :: before) rest

/-- The lowercase form of a text. -/
def lower (s : String) : String :=
  String.ofList (lowerFrom [] s.toList)

/-- The uppercase form of a text. -/
def upper (s : String) : String :=
  String.ofList (s.toList.flatMap upperChar)

end Unicode
end LineScopes
