import LineScopes.Regex.CharClass

/-!
# Regular expression trees

**Main definitions.** `Regex`, `Regex.Assertion`, `Regex.Greed`.
-/

namespace LineScopes

namespace Regex

/-- Conditions on a place in the text. -/
inductive Assertion where
  /-- At the start of the text, or behind a newline that is not its last character. -/
  | lineStart
  /-- At the end of the text or before a newline. -/
  | lineEnd
  | textStart
  | textEnd
  /-- At the end of the text or before a newline that ends it. -/
  | lastLineEnd
  /-- Where the search began. -/
  | searchStart
  | wordBoundary
  | noWordBoundary
deriving DecidableEq, Repr

/-- Which number of repetitions is tried first. -/
inductive Greed where
  /-- As many as possible. -/
  | greedy
  /-- As few as possible. -/
  | lazy
  /-- As many as possible, never fewer later. -/
  | possessive
deriving DecidableEq, Repr

end Regex

/-- A regular expression. A flag says whether letters match in any case. -/
inductive Regex where
  | empty
  | char (c : Char) (anyCase : Bool)
  | set (members : Regex.CharClass) (anyCase : Bool)
  /-- Any character; a newline only if the flag says so. -/
  | any (newline : Bool)
  | assert (a : Regex.Assertion)
  | seq (first second : Regex)
  | alt (first second : Regex)
  | group (number : Nat) (body : Regex)
  /-- The text of the first of these groups that took part. -/
  | backReference (numbers : List Nat) (anyCase : Bool)
  | loop (min : Nat) (max : Option Nat) (greed : Regex.Greed) (body : Regex)
  /-- The first match of the body and no other. -/
  | atomic (body : Regex)
  | lookahead (negated : Bool) (body : Regex)
  | lookbehind (negated : Bool) (body : Regex)
  /-- The match starts here. -/
  | keep
deriving Repr, Inhabited

namespace Regex

/-- The test of an expression that always takes one character. -/
def single? : Regex → Option (Char → Bool)
  | char c false => some (· == c)
  | char c true => some (sameLetter c)
  | set s false => some s.contains
  | set s true => some s.containsAnyCase
  | any true => some fun _ => true
  | any false => some (· != '\n')
  | _ => none

end Regex

end LineScopes
