import LineScopes.Engine
import LineScopes.Regex.Matcher
import LineScopes.Regex.Parser

/-!
# The regular expression engine

A list of patterns is searched place by place: at each place the patterns are tried in order.

**Main definitions.** `Regex.search`, `Regex.compile`, `regexEngine`.
-/

namespace LineScopes
namespace Regex

/-- The first pattern that matches at an offset, with its place in the list. -/
def firstMatch
    (text : String)
    (searchStart n : Nat) : (patterns : List ParsedPattern) → (index : Nat) → Option Found
  | [], _ => none
  | p :: rest, index =>
    match matchAt p.regex p.groups text searchStart n with
    | some groups => some ⟨index, groups⟩
    | none => firstMatch text searchStart n rest (index + 1)

/-- Tries the places from `n` on. -/
def searchFrom
    (patterns : List ParsedPattern)
    (text : String)
    (searchStart : Nat) : (bound : Nat) → (n : Nat) → Option Found
  | 0, n => firstMatch text searchStart n patterns 0
  | bound + 1, n =>
    match firstMatch text searchStart n patterns 0 with
    | some found => some found
    | none =>
      match Text.charAt? text n with
      | some c => searchFrom patterns text searchStart bound (n + c.utf8Size)
      | none => none

/-- The earliest match at or after an offset; beyond the end of the text there is none. -/
def search (patterns : List ParsedPattern) : Scanner := fun text start =>
  if patterns.isEmpty || start > text.utf8ByteSize then none
  else searchFrom patterns text start (text.utf8ByteSize - start) start

/-- The pattern named in the error for a list that cannot be compiled: the first that is invalid
or, without the option that numbers all groups, refers by number beside names. -/
def culprit (patterns : List String) : String :=
  match patterns.find? fun p =>
      match parse p with
      | none => true
      | some q => q.mixesNumbersAndNames with
  | some p => p
  | none => "|".intercalate patterns

/-- Compiles a list of patterns. -/
def compile (patterns : List String) : Except Error Scanner :=
  match patterns.mapM parse with
  | some parsed => .ok (search parsed)
  | none => .error (.badPattern (culprit patterns))

/-- The form of a scanner shown in descriptions. -/
def describeScanner (patterns : List String) : String :=
  "OnigScanner(" ++ toString patterns.length ++ " patterns)" ++
    String.join (patterns.mapIdx fun i p => "\n  " ++ toString i ++ ": " ++ p)

end Regex

/-- The engine grammars are written for. -/
def regexEngine : Engine where
  name := "OnigEngine"
  compile := Regex.compile

end LineScopes
