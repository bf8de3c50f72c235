import LineScopes.Pattern.Anchors
import LineScopes.Text.Decimal
import LineScopes.Text.Span
import LineScopes.Unicode.Classes

/-!
# Pattern sources

A pattern of a grammar is prepared before an engine sees it. It is read in single characters and
escape pairs, a backslash with the character behind it.

* `\z` becomes an end that does not count the newline added to every line.
* `\A` and `\G` are disabled where they must not match: the letter becomes a character that is
  never met.
* `\1`, `\2`, … in the end pattern of a region become the texts captured by its begin pattern.

**Main definitions.** `PatternSource`, `PatternSource.ofPattern`, `PatternSource.variant`,
`PatternSource.resolve`.
-/

namespace LineScopes

/-- A prepared pattern. -/
structure PatternSource where
  text : String
deriving DecidableEq, Repr, Inhabited

namespace PatternSource

/-- What `\z` stands for: the end of the line, not before and not after a newline. -/
def lineEnd : String :=
  "$(?!\\n)(?<!\\n)"

/-- The letter of an anchor that is not allowed; it is no character of any text. -/
def disabled : Char :=
  '\uffff'

/-- Replaces the pairs `\z`. -/
def replaceEnd : List Char → List Char
  | [] => []
  | ['\\'] => ['\\']
  | '\\' :: c :: rest =>
    if c = 'z' then lineEnd.toList ++ replaceEnd rest else '\\' :: c :: replaceEnd rest
  | c :: rest => c :: replaceEnd rest

/-- Prepares a pattern. -/
def ofPattern (pattern : String) : PatternSource :=
  ⟨String.ofList (replaceEnd pattern.toList)⟩

/-- Whether there is a pair `\A` or `\G`. -/
def anchored : List Char → Bool
  | [] => false
  | ['\\'] => false
  | '\\' :: c :: rest => c == 'A' || c == 'G' || anchored rest
  | _ :: rest => anchored rest

/-- Whether the pattern has anchors. -/
def hasAnchor (p : PatternSource) : Bool :=
  anchored p.text.toList

/-- Whether a backslash stands right before an ASCII digit. -/
def refersBack : List Char → Bool
  | '\\' :: d :: rest => d.isDigit || refersBack (d :: rest)
  | _ :: rest => refersBack rest
  | [] => false

/-- Whether the pattern refers to captured groups. -/
def hasBackReferences (p : PatternSource) : Bool :=
  refersBack p.text.toList

/-- The letter of an escape pair under the given anchors. -/
def anchorLetter
    (a : Anchors)
    (c : Char) : Char :=
  if c = 'A' && !a.allowA then disabled
  else if c = 'G' && !a.allowG then disabled
  else c

/-- Disables the anchors that are not allowed. -/
def disableAnchors
    (a : Anchors) : List Char → List Char
  | [] => []
  | ['\\'] => ['\\']
  | '\\' :: c :: rest => '\\' :: anchorLetter a c :: disableAnchors a rest
  | c :: rest => c :: disableAnchors a rest

/-- The text given to an engine when the given anchors are in force. -/
def variant
    (p : PatternSource)
    (a : Anchors) : String :=
  if p.hasAnchor then String.ofList (disableAnchors a p.text.toList) else p.text

/-- Whether a character has a meaning in patterns, blanks included. -/
def isSpecial (c : Char) : Bool :=
  "-\\\x7b\x7d*+?|^$.,[]()#".toList.contains c || Unicode.isSpace c

/-- Escapes every character that has a meaning in patterns. -/
def escapeChars (cs : List Char) : List Char :=
  cs.flatMap fun c => if isSpecial c then ['\\', c] else [c]

/-- The escaped text of the group with the given number; nothing for a group without text. -/
def groupText
    (line : String)
    (groups : Groups)
    (digits : List Char) : List Char :=
  match groups.text? line (Text.Decimal.value digits) with
  | some t => escapeChars t.toList
  | none => []

/-- Replaces every backslash with digits behind it by the text for these digits. -/
def replaceReferences
    (group : List Char → List Char) : List Char → List Char
  | [] => []
  | c :: rest =>
    if c = '\\' && !(rest.takeWhile Char.isDigit).isEmpty then
      group (rest.takeWhile Char.isDigit) ++
        replaceReferences group (rest.dropWhile Char.isDigit)
    else
      c :: replaceReferences group rest
termination_by cs => cs.length
decreasing_by
  · have := (List.dropWhile_sublist Char.isDigit (l := rest)).length_le
    simp
    omega
  · simp

/-- The pattern with every reference replaced by the escaped text of its group. -/
def resolve
    (p : PatternSource)
    (line : String)
    (groups : Groups) : String :=
  String.ofList (replaceReferences (groupText line groups) p.text.toList)

end PatternSource

end LineScopes
