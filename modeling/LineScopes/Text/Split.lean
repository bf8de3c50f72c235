/-!
# Cutting texts at separators

Texts are cut with the separators removed and every piece kept, also an empty one.

**Main definitions.** `splitAt`, `splitOnce?`, `trimBoth`.
-/

namespace LineScopes
namespace Text

/-- The pieces of a character list between the separators. -/
def splitChars
    (sep : Char) : List Char → List (List Char)
  | [] => [[]]
  | c :: rest =>
    if c = sep then
      [] :: splitChars sep rest
    else
      match splitChars sep rest with
      | [] => [[c]]
      | piece :: pieces => (c :: piece) :: pieces

/-- The pieces of a text between the separators: one more than there are separators. -/
def splitAt
    (sep : Char)
    (s : String) : List String :=
  (splitChars sep s.toList).map String.ofList

/-- The text before and after the first separator. -/
def splitOnce?
    (sep : Char)
    (s : String) : Option (String × String) :=
  let cs := s.toList
  match cs.dropWhile (· ≠ sep) with
  | [] => none
  | _ :: rest => some (String.ofList (cs.takeWhile (· ≠ sep)), String.ofList rest)

/-- Removes from both ends the characters that satisfy `p`. -/
def trimBoth
    (p : Char → Bool)
    (s : String) : String :=
  String.ofList ((s.toList.dropWhile p).reverse.dropWhile p).reverse

/-- Removes from the start the characters that satisfy `p`. -/
def trimStart
    (p : Char → Bool)
    (s : String) : String :=
  String.ofList (s.toList.dropWhile p)

theorem splitChars_ne_nil
    (sep : Char)
    (cs : List Char) :
    splitChars sep cs ≠ [] := by
  cases cs with
  | nil => simp [splitChars]
  | cons c rest =>
    unfold splitChars
    split
    · simp
    · split <;> simp

end Text
end LineScopes
