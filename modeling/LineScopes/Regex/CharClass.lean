import LineScopes.Unicode.Case

/-!
# Character classes of regular expressions

A bracket expression denotes a set of characters: single characters, ranges, named kinds, unions,
intersections and complements.

**Main definitions.** `CharKind`, `CharClass`, `CharClass.contains`, `sameLetter`.
-/

namespace LineScopes
namespace Regex

/-- The kinds of characters that have a name. -/
inductive CharKind where
  | word
  | digit
  | space
  | hexDigit
  | alphabetic
  | alphanumeric
  | blank
  | control
  | graph
  | lower
  | print
  | punctuation
  | upper
  | ascii
  | letter
  | lowercaseLetter
  | uppercaseLetter
  | titlecaseLetter
  | mark
  | number
  | separator
deriving DecidableEq, Repr

open Unicode in
/-- Whether a character is of a kind. -/
def CharKind.contains : CharKind → Char → Bool
  | word, c => isWord c
  | digit, c => isDigit c
  | space, c => isSpace c
  | hexDigit, c => isHexDigit c
  | alphabetic, c => isAlphabetic c
  | alphanumeric, c => isAlphabetic c || isDigit c
  | blank, c => c == '\t' || (isSpace c && Unicode.separator.contains c && c.toNat < 0x2028) ||
      c.toNat == 0x202f || c.toNat == 0x205f || c.toNat == 0x3000
  | control, c => isControl c
  | graph, c => !(isSpace c || isControl c || unassigned.contains c)
  | lower, c => isLower c
  | print, c => !(isControl c || unassigned.contains c)
  | punctuation, c => Unicode.punctuation.contains c || "$+<=>^`|~".toList.contains c
  | upper, c => isUpper c
  | ascii, c => c.toNat < 0x80
  | letter, c => c.isAlpha || Unicode.letter.contains c
  | lowercaseLetter, c => c.isLower || Unicode.lowercaseLetter.contains c
  | uppercaseLetter, c => c.isUpper || Unicode.uppercaseLetter.contains c
  | titlecaseLetter, c => Unicode.titlecaseLetter.contains c
  | mark, c => Unicode.mark.contains c
  | number, c => Unicode.number.contains c
  | separator, c => Unicode.separator.contains c

/-- A set of characters as written between brackets. -/
inductive CharClass where
  | empty
  | single (c : Char)
  | range (first last : Char)
  | kind (k : CharKind)
  | union (a b : CharClass)
  | inter (a b : CharClass)
  | compl (a : CharClass)
deriving Repr, Inhabited

/-- Whether a character belongs to a class. -/
def CharClass.contains : CharClass → Char → Bool
  | empty, _ => false
  | single d, c => c == d
  | range first last, c => first ≤ c && c ≤ last
  | kind k, c => k.contains c
  | union a b, c => a.contains c || b.contains c
  | inter a b, c => a.contains c && b.contains c
  | compl a, c => !a.contains c

/-- The lowercase form of a character if it is a single character. -/
def lowerForm (c : Char) : Char :=
  match Unicode.lowerChar c with
  | [d] => d
  | _ => c

/-- The uppercase form of a character if it is a single character. -/
def upperForm (c : Char) : Char :=
  match Unicode.upperChar c with
  | [d] => d
  | _ => c

/-- Whether two characters differ in case only. -/
def sameLetter (c d : Char) : Bool :=
  c == d || lowerForm c == lowerForm d || upperForm c == upperForm d

/-- Whether a class contains a character in one of its cases. The complement is taken last. -/
def CharClass.containsAnyCase : CharClass → Char → Bool
  | compl a, c => !containsAnyCase a c
  | a, c => a.contains c || a.contains (lowerForm c) || a.contains (upperForm c)

end Regex
end LineScopes
