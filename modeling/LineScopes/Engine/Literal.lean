import LineScopes.Engine

/-!
# An engine for plain texts

Here a pattern is a text that is searched for as it is written. This engine shows what patterns
the tokenizer hands to an engine. It refuses patterns with a doubled exclamation mark, so that
refusals can be provoked.

**Main definitions.** `Literal.search`, `literalEngine`.
-/

namespace LineScopes
namespace Literal

/-- The first pattern that a text starts with, with its place in the list. -/
def firstAt? (cs : List Char) : (patterns : List (List Char)) → (index : Nat) →
    Option (Nat × List Char)
  | [], _ => none
  | p :: rest, index =>
    if p.isPrefixOf cs then some (index, p) else firstAt? cs rest (index + 1)

/-- The number of bytes of some characters. -/
def byteLength : List Char → Nat
  | [] => 0
  | c :: rest => c.utf8Size + byteLength rest

/-- The first occurrence of a pattern in the characters from offset `n` on. -/
def searchFrom
    (patterns : List (List Char)) : (n : Nat) → List Char → Option Found
  | n, cs =>
    match firstAt? cs patterns 0 with
    | some (index, p) => some ⟨index, [some ⟨n, n + byteLength p⟩]⟩
    | none =>
      match cs with
      | [] => none
      | c :: rest => searchFrom patterns (n + c.utf8Size) rest

/-- Finds the first occurrence of a pattern at or after an offset. -/
def search (patterns : List (List Char)) : Scanner := fun text start =>
  match Text.slice? text start text.utf8ByteSize with
  | some rest => searchFrom patterns start rest.toList
  | none => none

/-- Whether a pattern is refused. -/
def refused : List Char → Bool
  | '!' :: '!' :: _ => true
  | _ :: rest => refused rest
  | [] => false

/-- Compiles a list of patterns. -/
def compile (patterns : List String) : Except Error Scanner :=
  match patterns.find? fun p => refused p.toList with
  | some p => .error (.badPattern p)
  | none => .ok (search (patterns.map String.toList))

end Literal

/-- The engine for plain texts. -/
def literalEngine : Engine where
  name := "LiteralEngine"
  compile := Literal.compile

end LineScopes
