import LineScopes.Unicode.Letters
import LineScopes.Unicode.Alphabetic
import LineScopes.Unicode.Categories
import LineScopes.Unicode.Casing

/-!
# Classes of characters

The character classes that selectors, patterns and quoted texts are defined with. Every class
looks at ASCII characters first, because most lines hold nothing else.

**Main definitions.** `isWord`, `isDigit`, `isSpace`, `isAlphanumeric`, `isPrintable`.
-/

namespace LineScopes
namespace Unicode

/-- White space in the sense of the White_Space property. -/
def isSpace (c : Char) : Bool :=
  c == ' ' || ('\t' ≤ c && c ≤ '\r') || (c.toNat > 0x7f && whiteSpace.contains c)

/-- A decimal digit of any script. -/
def isDigit (c : Char) : Bool :=
  c.isDigit || (c.toNat > 0x7f && decimalDigit.contains c)

/-- A character with the Alphabetic property. -/
def isAlphabetic (c : Char) : Bool :=
  c.isAlpha || (c.toNat > 0x7f && alphabetic.contains c)

/-- A character of a word: alphabetic, a mark, a decimal digit or connector punctuation. -/
def isWord (c : Char) : Bool :=
  c.isAlphanum || c == '_' ||
    (c.toNat > 0x7f &&
      (alphabetic.contains c || mark.contains c || decimalDigit.contains c ||
        connector.contains c))

/-- An alphabetic character or a number of any kind. -/
def isAlphanumeric (c : Char) : Bool :=
  c.isAlphanum || (c.toNat > 0x7f && (alphabetic.contains c || number.contains c))

/-- A character with the Uppercase property. -/
def isUpper (c : Char) : Bool :=
  c.isUpper || (c.toNat > 0x7f && (uppercaseLetter.contains c || otherUppercase.contains c))

/-- A character with the Lowercase property. -/
def isLower (c : Char) : Bool :=
  c.isLower || (c.toNat > 0x7f && (lowercaseLetter.contains c || otherLowercase.contains c))

/-- A character that has an upper, lower or title case. -/
def isCased (c : Char) : Bool :=
  isUpper c || isLower c || titlecaseLetter.contains c

/-- A C0 or C1 control character. -/
def isControl (c : Char) : Bool :=
  c.toNat < 0x20 || (0x7f ≤ c.toNat && c.toNat < 0xa0)

/-- A hexadecimal digit of ASCII. -/
def isHexDigit (c : Char) : Bool :=
  c.isDigit || ('a' ≤ c && c ≤ 'f') || ('A' ≤ c && c ≤ 'F')

/-- A character with a visible form or the ASCII space: no control, format, private use,
unassigned or separator character. -/
def isPrintable (c : Char) : Bool :=
  (0x20 ≤ c.toNat && c.toNat < 0x7f) ||
    (c.toNat ≥ 0xa0 &&
      !(formatControl.contains c || privateUse.contains c || unassigned.contains c ||
        separator.contains c))

/-- A character that attaches to the one before it. -/
def attaches (c : Char) : Bool :=
  c.toNat > 0x7f && graphemeExtend.contains c

end Unicode
end LineScopes
