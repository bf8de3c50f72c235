import LineScopes.Error
import LineScopes.Json.Value

/-!
# Records in documents

A record is written as an object, or as an array of its fields in their declared order. Fields
may be missing. In an object, unknown fields are skipped unread and a declared field may occur
once only.

**Main definitions.** `Json.record`, `Json.optional`, `Json.orDefault`, `Json.lastByKey`.
-/

namespace LineScopes
namespace Json

/-- A field of a record: its name and the other names it may be written with. -/
structure Field where
  name : String
  aliases : List String := []
deriving Repr

/-- The declared name of a written key. -/
def declaredName
    (shape : List Field)
    (key : String) : Option String :=
  (shape.find? fun f => f.name == key || f.aliases.contains key).map Field.name

/-- Collects the declared members of an object; a repeated one is refused. -/
def collect (shape : List Field) :
    List (Option String × Json) → Except Error (List (String × Json))
  | [] => .ok []
  | (none, _) :: _ => .error .badDocument
  | (some key, j) :: rest => do
    let others ← collect shape rest
    match declaredName shape key with
    | none => return others
    | some name =>
      if (others.lookup name).isSome then throw .badDocument
      return (name, j) :: others

/-- The fields of a record by their declared names. -/
def record
    (shape : List Field) : Json → Except Error (List (String × Json))
  | .object members => collect shape members
  | .array items =>
    if items.length ≤ shape.length then .ok ((shape.map Field.name).zip items)
    else .error .badDocument
  | _ => .error .badDocument

/-- Reads a field that may be missing or null. -/
def optional {α : Type}
    (read : Json → Except Error α) : Option Json → Except Error (Option α)
  | none => .ok none
  | some .null => .ok none
  | some j => some <$> read j

/-- Reads a field that may be missing, but not null. -/
def orDefault {α : Type}
    (read : Json → Except Error α)
    (default : α) : Option Json → Except Error α
  | none => .ok default
  | some j => read j

/-- Reads a text. -/
def readText : Json → Except Error String
  | .string (some t) => .ok t
  | _ => .error .badDocument

/-- Reads a list, item by item. -/
def readList {α : Type}
    (read : Json → Except Error α) : Json → Except Error (List α)
  | .array items => items.mapM read
  | _ => .error .badDocument

/-- Reads the members of an object, in the order they are written. -/
def readMembers {α : Type}
    (read : Json → Except Error α) : Json → Except Error (List (String × α))
  | .object members => members.mapM fun (key, j) =>
    match key with
    | some k => do return (k, ← read j)
    | none => throw .badDocument
  | _ => .error .badDocument

/-- Puts a value under a key, in the place of an older value of this key. -/
def putByKey {α : Type}
    (entries : List (String × α))
    (entry : String × α) : List (String × α) :=
  if entries.any (·.1 == entry.1) then
    entries.map fun e => if e.1 = entry.1 then entry else e
  else
    entries ++ [entry]

/-- One entry for every key: its first place and its last value. -/
def lastByKey {α : Type}
    (entries : List (String × α)) : List (String × α) :=
  entries.foldl putByKey []

end Json
end LineScopes
