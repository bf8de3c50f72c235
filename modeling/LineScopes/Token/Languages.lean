import LineScopes.Scope.Name
import LineScopes.Style.Metadata
import LineScopes.Unicode.Classes

/-!
# What a scope name says

Independently of any theme, a scope name tells the language of a text, by a table of embedded
languages, and its kind, by the words it contains.

**Main definitions.** `Languages`, `Languages.languageOf`, `TokenType.ofScope?`.
-/

namespace LineScopes

/-- The languages of a grammar. -/
structure Languages where
  /-- The language of text whose scopes say nothing. -/
  initial : Nat := 0
  /-- The languages of embedded scopes. -/
  embedded : List (String × Nat) := []
deriving Repr, Inhabited

namespace Languages

/-- The longer one of two scopes with their languages. -/
def longer
    (best : Option (String × Nat))
    (entry : String × Nat) : Option (String × Nat) :=
  match best with
  | none => some entry
  | some b => if b.1.utf8ByteSize ≤ entry.1.utf8ByteSize then some entry else some b

/-- The language of the longest embedded scope that covers the name, or 0. -/
def languageOf
    (l : Languages)
    (name : String) : Nat :=
  let covering := l.embedded.filter fun entry => Scope.covers entry.1 name
  ((covering.foldl longer none).map Prod.snd).getD 0

end Languages

namespace TokenType

/-- The words that tell the kind of a text. -/
def words : List (String × TokenType) :=
  [("comment", comment), ("string", string), ("regex", regex), ("meta.embedded", other)]

/-- The kind told by a word at the start of a list, if no further letter follows. -/
def wordAt? (cs : List Char) : Option TokenType :=
  words.findSome? fun (word, type) =>
    (word.toList.isPrefixOf? cs).bind fun rest =>
      if rest.head?.any Unicode.isWord then none else some type

/-- The kind told by the first such word. No letter may stand right before it. -/
def firstWord? : (inWord : Bool) → List Char → Option TokenType
  | _, [] => none
  | inWord, c :: rest =>
    match if inWord then none else wordAt? (c :: rest) with
    | some type => some type
    | none => firstWord? (Unicode.isWord c) rest

/-- The kind of text a scope name tells. -/
def ofScope? (name : String) : Option TokenType :=
  firstWord? false name.toList

end TokenType

/-- The language and the kind of text that a scope name tells. -/
def Languages.attributesOf
    (l : Languages)
    (name : String) : Attributes :=
  { language := l.languageOf name, type := TokenType.ofScope? name }

end LineScopes
