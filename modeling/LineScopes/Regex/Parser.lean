import LineScopes.Regex.Tree

/-!
# Reading regular expressions

The dialect of grammar patterns: groups with and without names, look-around, atomic groups,
options, bracket expressions with set operations, lazy and possessive repetition, and references
to groups by number or name. Groups are numbered in the order of their opening parentheses.

**Main definitions.** `Flags`, `ParseState`, `ParsedPattern`, `Regex.parse`.
-/

namespace LineScopes
namespace Regex

/-- The options in force. -/
structure Flags where
  anyCase : Bool := false
  /-- Blanks and comments are skipped. -/
  extended : Bool := false
  /-- A dot takes newlines. -/
  dotAll : Bool := false
deriving Repr

/-- What has been read of a pattern. -/
structure ParseState where
  rest : List Char
  /-- How many groups have been opened. -/
  groups : Nat := 0
  /-- The numbers of the groups with a name, the last one first. -/
  names : List (String × Nat) := []
  /-- The largest group number referred to. -/
  referred : Nat := 0
  /-- Whether a group is referred to by number. -/
  byNumber : Bool := false
deriving Repr

/-- A reading step, which fails on an invalid pattern. -/
abbrev Parse := StateT ParseState Option

/-- The rest of the pattern. -/
def remaining : Parse (List Char) := do
  return (← get).rest

/-- Goes on with another rest. -/
def continueWith (cs : List Char) : Parse Unit :=
  modify fun st => { st with rest := cs }

/-- The pattern is invalid. -/
def invalid {α : Type} : Parse α :=
  fun _ => none

/-- Takes one character. -/
def nextChar : Parse Char := do
  match ← remaining with
  | c :: rest =>
    continueWith rest
    return c
  | [] => invalid

/-- Takes a character that is required. -/
def require (c : Char) : Parse Unit := do
  if (← nextChar) != c then invalid

/-- The rest behind a comment group, past its closing sign. -/
def afterComment : List Char → Option (List Char)
  | [] => none
  | ')' :: rest => some rest
  | '\\' :: _ :: rest => afterComment rest
  | _ :: rest => afterComment rest

/-- The rest behind comments and, in extended patterns, blanks. -/
def skipIgnored (extended : Bool) : (bound : Nat) → List Char → Option (List Char)
  | 0, cs => some cs
  | bound + 1, cs =>
    match cs with
    | '(' :: '?' :: '#' :: rest => (afterComment rest).bind (skipIgnored extended bound)
    | '#' :: rest =>
      if extended then
        skipIgnored extended bound ((rest.dropWhile (· != '\n')).drop 1)
      else
        some cs
    | c :: rest =>
      if extended && [' ', '\t', '\n', '\r', '\x0c'].contains c then
        skipIgnored extended bound rest
      else
        some cs
    | [] => some []

/-- Skips what stands between two parts of a pattern. -/
def skip (flags : Flags) : Parse Unit := do
  let cs ← remaining
  match skipIgnored flags.extended cs.length cs with
  | some rest => continueWith rest
  | none => invalid

/-- The value of a hexadecimal digit. -/
def hexValue (c : Char) : Nat :=
  if c.isDigit then c.toNat - '0'.toNat
  else if 'a' ≤ c && c ≤ 'f' then c.toNat - 'a'.toNat + 10
  else c.toNat - 'A'.toNat + 10

/-- The number written by digits of a base. -/
def numeral (base : Nat) (ds : List Char) : Nat :=
  ds.foldl (fun n c => base * n + hexValue c) 0

/-- Whether a character is an octal digit. -/
def isOctal (c : Char) : Bool :=
  '0' ≤ c && c ≤ '7'

/-- Takes up to `bound` characters that pass a test. -/
def takeUpTo (bound : Nat) (test : Char → Bool) : Parse (List Char) := do
  let cs ← remaining
  let ds := (cs.take bound).takeWhile test
  continueWith (cs.drop ds.length)
  return ds

/-- The character with a code point, if there is one. -/
def charOfCode (n : Nat) : Parse Char :=
  if n.isValidChar then return Char.ofNat n else invalid

/-- Reads the bytes of a character written by two-digit escapes, the first of them given. -/
def charOfBytes (lead : Nat) : Parse Char := do
  if lead < 0x80 then
    charOfCode lead
  else
    let count :=
      if lead < 0xc2 then 0
      else if lead < 0xe0 then 1
      else if lead < 0xf0 then 2
      else if lead < 0xf5 then 3
      else 0
    if count = 0 then invalid
    let mut code := lead % (1 <<< (6 - count))
    for _ in List.range count do
      require '\\'
      require 'x'
      let b := numeral 16 (← takeUpTo 2 Unicode.isHexDigit)
      if b < 0x80 || 0xc0 ≤ b then invalid
      code := code * 0x40 + (b - 0x80)
    charOfCode code

/-- The character of a hexadecimal escape, behind its letter. Braces without a number in them make
no escape: then the letter stands for itself. -/
def hexEscape : Parse Char := do
  match ← remaining with
  | '\x7b' :: rest =>
    let ds := rest.takeWhile Unicode.isHexDigit
    match ds, rest.dropWhile Unicode.isHexDigit with
    | _ :: _, '\x7d' :: after =>
      if ds.length > 8 then invalid
      continueWith after
      charOfCode (numeral 16 ds)
    | _, _ => return 'x'
  | _ => charOfBytes (numeral 16 (← takeUpTo 2 Unicode.isHexDigit))

/-- The character of an escape that stands for one character, its letter given. -/
def escapedChar (c : Char) : Parse Char := do
  match c with
  | 'n' => return '\n'
  | 't' => return '\t'
  | 'r' => return '\r'
  | 'f' => return '\x0c'
  | 'a' => return '\x07'
  | 'e' => return '\x1b'
  | 'v' => return '\x0b'
  | 'x' => hexEscape
  | 'u' =>
    let ds ← takeUpTo 4 Unicode.isHexDigit
    if ds.length < 4 then invalid
    charOfCode (numeral 16 ds)
  | '0' => charOfCode (numeral 8 (← takeUpTo 2 isOctal))
  | c => return c

/-- The kind of characters a property name stands for. Case, blanks, hyphens and low lines do not
count. -/
def kindOfProperty (name : String) : Option CharKind :=
  let plain := name.toList.filter fun c => !(c == ' ' || c == '-' || c == '_')
  match (String.ofList plain).toLower with
  | "alnum" => some .alphanumeric
  | "alpha" => some .alphabetic
  | "alphabetic" => some .alphabetic
  | "ascii" => some .ascii
  | "blank" => some .blank
  | "cntrl" => some .control
  | "digit" => some .digit
  | "graph" => some .graph
  | "lower" => some .lower
  | "lowercase" => some .lower
  | "print" => some .print
  | "punct" => some .punctuation
  | "space" => some .space
  | "whitespace" => some .space
  | "upper" => some .upper
  | "uppercase" => some .upper
  | "xdigit" => some .hexDigit
  | "word" => some .word
  | "l" => some .letter
  | "letter" => some .letter
  | "ll" => some .lowercaseLetter
  | "lowercaseletter" => some .lowercaseLetter
  | "lu" => some .uppercaseLetter
  | "uppercaseletter" => some .uppercaseLetter
  | "lt" => some .titlecaseLetter
  | "titlecaseletter" => some .titlecaseLetter
  | "m" => some .mark
  | "mark" => some .mark
  | "n" => some .number
  | "number" => some .number
  | "nd" => some .digit
  | "decimalnumber" => some .digit
  | "z" => some .separator
  | "separator" => some .separator
  | _ => none

/-- The kinds of characters with a name between `[:` and `:]`. -/
def kindOfBracketName : String → Option CharKind
  | "alnum" => some .alphanumeric
  | "alpha" => some .alphabetic
  | "blank" => some .blank
  | "cntrl" => some .control
  | "digit" => some .digit
  | "graph" => some .graph
  | "lower" => some .lower
  | "print" => some .print
  | "punct" => some .punctuation
  | "space" => some .space
  | "upper" => some .upper
  | "xdigit" => some .hexDigit
  | "ascii" => some .ascii
  | "word" => some .word
  | _ => none

/-- The complement of a class if a flag says so. -/
def CharClass.complIf (negated : Bool) (s : CharClass) : CharClass :=
  if negated then .compl s else s

/-- A property in braces, behind its letter. -/
def property (negated : Bool) : Parse CharClass := do
  require '\x7b'
  let cs ← remaining
  let (inverted, cs) := match cs with
    | '^' :: rest => (true, rest)
    | cs => (false, cs)
  let name := cs.takeWhile (· != '\x7d')
  match cs.dropWhile (· != '\x7d'), kindOfProperty (String.ofList name) with
  | _ :: rest, some k =>
    continueWith rest
    return (CharClass.kind k).complIf (negated != inverted)
  | _, _ => invalid

/-- The class an escape letter stands for. -/
def escapedClass? (c : Char) : Option (Parse CharClass) :=
  match c with
  | 'w' => some (return .kind .word)
  | 'W' => some (return .compl (.kind .word))
  | 'd' => some (return .kind .digit)
  | 'D' => some (return .compl (.kind .digit))
  | 's' => some (return .kind .space)
  | 'S' => some (return .compl (.kind .space))
  | 'h' => some (return .kind .hexDigit)
  | 'H' => some (return .compl (.kind .hexDigit))
  | 'p' => some (property false)
  | 'P' => some (property true)
  | _ => none

/-- An element of a bracket expression. -/
inductive Member where
  | char (c : Char)
  | set (s : CharClass)

/-- The class of an element. -/
def Member.toClass : Member → CharClass
  | char c => .single c
  | set s => s

/-- An escape in a bracket expression, behind its backslash. -/
def bracketEscape : Parse Member := do
  let c ← nextChar
  match escapedClass? c with
  | some s => return .set (← s)
  | none =>
    if c == 'b' then
      return .char '\x08'
    else if isOctal c then
      let ds ← takeUpTo 2 isOctal
      return .char (← charOfCode (numeral 8 (c :: ds)))
    else
      return .char (← escapedChar c)

/-- A named kind such as `[:alpha:]`, behind its opening bracket, if there is one. -/
def bracketName : Parse (Option CharClass) := do
  match ← remaining with
  | ':' :: rest =>
    let (negated, rest) := match rest with
      | '^' :: r => (true, r)
      | r => (false, r)
    let name := rest.takeWhile Char.isAlpha
    match rest.dropWhile Char.isAlpha with
    | ':' :: ']' :: after =>
      match kindOfBracketName (String.ofList name) with
      | some k =>
        continueWith after
        return some ((CharClass.kind k).complIf negated)
      | none => invalid
    | _ => return none
  | _ => return none

/-- Whether a closing bracket stands somewhere without a backslash before it. -/
def closesLater : List Char → Bool
  | [] => false
  | ']' :: _ => true
  | '\\' :: _ :: rest => closesLater rest
  | _ :: rest => closesLater rest

mutual

/-- A bracket expression behind its opening bracket. -/
def bracket : (bound : Nat) → Parse CharClass
  | 0 => invalid
  | bound + 1 => do
    let negated := (← remaining).head? == some '^'
    if negated then continueWith ((← remaining).drop 1)
    let s ← match ← remaining with
      | ']' :: rest =>
        if closesLater rest then
          continueWith rest
          bracketItems bound (.single ']') none (some ']')
        else
          invalid
      | _ => bracketItems bound .empty none none
    return s.complIf negated

/-- The elements of a bracket expression up to its closing bracket. `here` is the union so far,
`before` what it is intersected with, and `last` the character just read if a range may start
with it. -/
def bracketItems :
    (bound : Nat) → (here : CharClass) → (before : Option CharClass) → (last : Option Char) →
      Parse CharClass
  | 0, _, _, _ => invalid
  | bound + 1, here, before, last => do
    let close := fun s : CharClass =>
      match before with
      | some b => .inter b s
      | none => s
    match ← remaining with
    | [] => invalid
    | ']' :: rest =>
      continueWith rest
      return close here
    | '&' :: '&' :: rest =>
      continueWith rest
      bracketItems bound .empty (some (close here)) none
    | '-' :: rest =>
      continueWith rest
      match last, rest with
      | some first, c :: _ =>
        if c == ']' || rest.take 2 == ['&', '&'] then
          bracketItems bound (.union here (.single '-')) before none
        else
          match ← bracketMember bound with
          | .char c =>
            if first ≤ c then
              bracketItems bound (.union here (.range first c)) before none
            else
              invalid
          | .set _ => invalid
      | _, _ => bracketItems bound (.union here (.single '-')) before (some '-')
    | _ =>
      let m ← bracketMember bound
      let next := match m with
        | .char c => some c
        | .set _ => none
      bracketItems bound (.union here m.toClass) before next

/-- One element of a bracket expression. -/
def bracketMember : (bound : Nat) → Parse Member
  | 0 => invalid
  | bound + 1 => do
    match ← nextChar with
    | '\\' => bracketEscape
    | '[' =>
      match ← bracketName with
      | some s => return .set s
      | none => return .set (← bracket bound)
    | c => return .char c

end

/-- The largest number of repetitions that can be written. -/
def repeatLimit : Nat := 100000

/-- The bounds of a repetition in braces, behind the opening brace: lower and upper bound and
whether a single number was written. Anything else is no repetition. -/
def interval? (cs : List Char) : Option (Nat × Option Nat × Bool × List Char) :=
  let low := cs.takeWhile Char.isDigit
  match cs.dropWhile Char.isDigit with
  | '\x7d' :: rest => if low = [] then none else some (numeral 10 low, numeral 10 low, true, rest)
  | ',' :: more =>
    let high := more.takeWhile Char.isDigit
    match more.dropWhile Char.isDigit with
    | '\x7d' :: rest =>
      if low = [] && high = [] then none
      else
        some (numeral 10 low, if high = [] then none else some (numeral 10 high), false, rest)
    | _ => none
  | _ => none

/-- A repetition sign with what follows it. -/
structure Repetition where
  min : Nat
  max : Option Nat
  greed : Greed
  rest : List Char

/-- The greed written behind a sign, with the rest. -/
def greedMark : List Char → Greed × List Char
  | '?' :: rest => (.lazy, rest)
  | '+' :: rest => (.possessive, rest)
  | rest => (.greedy, rest)

/-- The repetition at the start of a list, if there is one. In braces, a mark of possession is a
sign of its own, a single number takes no mark, and bounds in the wrong order are exchanged and
make the repetition possessive. -/
def repetition? : List Char → Option Repetition
  | '*' :: rest => let (g, r) := greedMark rest; some ⟨0, none, g, r⟩
  | '+' :: rest => let (g, r) := greedMark rest; some ⟨1, none, g, r⟩
  | '?' :: rest => let (g, r) := greedMark rest; some ⟨0, some 1, g, r⟩
  | '\x7b' :: cs =>
    match interval? cs with
    | none => none
    | some (low, high, fixed, rest) =>
      if fixed then
        some ⟨low, high, .greedy, rest⟩
      else if high.any (· < low) then
        some ⟨high.getD 0, some low, .possessive, rest⟩
      else
        match rest with
        | '?' :: r => some ⟨low, high, .lazy, r⟩
        | _ => some ⟨low, high, .greedy, rest⟩
  | _ => none

/-- Applies the repetitions behind an expression. -/
def repeated (flags : Flags) : (bound : Nat) → Regex → Parse Regex
  | 0, r => return r
  | bound + 1, r => do
    skip flags
    match repetition? (← remaining) with
    | none => return r
    | some q =>
      if q.min > repeatLimit || q.max.any (· > repeatLimit) then invalid
      continueWith q.rest
      repeated flags bound (.loop q.min q.max q.greed r)

/-- The name of a group up to its closing sign. -/
def groupName (close : Char) : Parse String := do
  let cs ← remaining
  let name := cs.takeWhile (· != close)
  match name, cs.dropWhile (· != close) with
  | c :: _, _ :: rest =>
    if c.isDigit || !name.all Unicode.isWord then invalid
    continueWith rest
    return String.ofList name
  | _, _ => invalid

/-- Opens a group and gives its number. -/
def openGroup (name : Option String) : Parse Nat := do
  let number := (← get).groups + 1
  modify fun st => { st with
    groups := number
    names := match name with
      | some n => (n, number) :: st.names
      | none => st.names }
  return number

/-- A reference to a group by number. -/
def referTo (flags : Flags) (number : Nat) : Parse Regex := do
  modify fun st => { st with referred := max st.referred number, byNumber := true }
  return .backReference [number] flags.anyCase

/-- A reference by name or number between signs, behind its letter. -/
def namedReference (flags : Flags) : Parse Regex := do
  let close ← match ← nextChar with
    | '<' => pure '>'
    | '\'' => pure '\''
    | _ => invalid
  let cs ← remaining
  let name := cs.takeWhile (· != close)
  match cs.dropWhile (· != close) with
  | [] => invalid
  | _ :: rest =>
    continueWith rest
    match name with
    | [] => invalid
    | '-' :: ds =>
      let back := numeral 10 ds
      let here := (← get).groups
      if ds = [] || !ds.all Char.isDigit || back = 0 || back > here then invalid
      referTo flags (here + 1 - back)
    | _ =>
      if name.all Char.isDigit then
        let n := numeral 10 name
        if n = 0 then invalid
        referTo flags n
      else
        let numbers := ((← get).names.filter (·.1 == String.ofList name)).map Prod.snd
        if numbers.isEmpty then invalid
        return .backReference numbers flags.anyCase

/-- An escape that starts with a digit other than zero: a reference if there are as many groups
or the number has one digit, and an octal code otherwise. -/
def digitEscape (flags : Flags) (c : Char) : Parse Regex := do
  let more := (← remaining).takeWhile Char.isDigit
  let number := numeral 10 (c :: more)
  if number ≤ (← get).groups || number ≤ 9 then
    continueWith ((← remaining).drop more.length)
    referTo flags number
  else if c == '8' || c == '9' then
    return .char c flags.anyCase
  else
    let ds ← takeUpTo 2 isOctal
    return .char (← charOfCode (numeral 8 (c :: ds))) flags.anyCase

/-- An escape behind its backslash. A kind of characters is the same in any case. -/
def escape (flags : Flags) : Parse Regex := do
  let c ← nextChar
  match escapedClass? c with
  | some s => return .set (← s) false
  | none =>
    match c with
    | 'A' => return .assert .textStart
    | 'Z' => return .assert .lastLineEnd
    | 'z' => return .assert .textEnd
    | 'G' => return .assert .searchStart
    | 'b' => return .assert .wordBoundary
    | 'B' => return .assert .noWordBoundary
    | 'K' => return .keep
    | 'k' => namedReference flags
    | c =>
      if c.isDigit && c != '0' then digitEscape flags c
      else return .char (← escapedChar c) flags.anyCase

/-- Option letters up to `)` or `:`, with this sign. -/
def optionLetters : (bound : Nat) → (on : Bool) → Flags → Parse (Flags × Char)
  | 0, _, _ => invalid
  | bound + 1, on, flags => do
    match ← nextChar with
    | 'i' => optionLetters bound on { flags with anyCase := on }
    | 'x' => optionLetters bound on { flags with extended := on }
    | 'm' => optionLetters bound on { flags with dotAll := on }
    | '-' => optionLetters bound false flags
    | ')' => return (flags, ')')
    | ':' => return (flags, ':')
    | _ => invalid

mutual

/-- Branches up to the end of the group or pattern. -/
def parseBranches : (bound : Nat) → Flags → Parse Regex
  | 0, _ => invalid
  | bound + 1, flags => do
    let first ← parseBranch bound flags
    match ← remaining with
    | '|' :: rest =>
      continueWith rest
      return .alt first (← parseBranches bound flags)
    | _ => return first

/-- One branch. Options that stand alone hold up to the end of the group, for the branches
behind them too. -/
def parseBranch : (bound : Nat) → Flags → Parse Regex
  | 0, _ => invalid
  | bound + 1, flags => do
    skip flags
    match ← remaining with
    | [] => return .empty
    | '|' :: _ => return .empty
    | ')' :: _ => return .empty
    | '(' :: '?' :: c :: rest =>
      if c.isAlpha || c == '-' then
        continueWith (c :: rest)
        let (inner, sign) ← optionLetters (rest.length + 2) true flags
        if sign == ')' then
          parseBranches bound inner
        else
          let body ← parseBranches bound inner
          require ')'
          let r ← repeated flags rest.length body
          return .seq r (← parseBranch bound flags)
      else
        continueWith ('?' :: c :: rest)
        let r ← repeated flags (rest.length + 2) (← parseGroup bound flags)
        return .seq r (← parseBranch bound flags)
    | '(' :: rest =>
      continueWith rest
      let r ← repeated flags rest.length (← parseGroup bound flags)
      return .seq r (← parseBranch bound flags)
    | _ =>
      let r ← parseAtom bound flags
      let r ← repeated flags (← remaining).length r
      return .seq r (← parseBranch bound flags)

/-- A group behind its opening parenthesis. -/
def parseGroup : (bound : Nat) → Flags → Parse Regex
  | 0, _ => invalid
  | bound + 1, flags => do
    let close := fun body : Parse Regex => do
      let r ← body
      require ')'
      return r
    match ← remaining with
    | '?' :: ':' :: rest =>
      continueWith rest
      close (parseBranches bound flags)
    | '?' :: '=' :: rest =>
      continueWith rest
      return .lookahead false (← close (parseBranches bound flags))
    | '?' :: '!' :: rest =>
      continueWith rest
      return .lookahead true (← close (parseBranches bound flags))
    | '?' :: '>' :: rest =>
      continueWith rest
      return .atomic (← close (parseBranches bound flags))
    | '?' :: '<' :: '=' :: rest =>
      continueWith rest
      return .lookbehind false (← close (parseBranches bound flags))
    | '?' :: '<' :: '!' :: rest =>
      continueWith rest
      return .lookbehind true (← close (parseBranches bound flags))
    | '?' :: '<' :: rest =>
      continueWith rest
      let number ← openGroup (some (← groupName '>'))
      return .group number (← close (parseBranches bound flags))
    | '?' :: '\'' :: rest =>
      continueWith rest
      let number ← openGroup (some (← groupName '\''))
      return .group number (← close (parseBranches bound flags))
    | '?' :: _ => invalid
    | _ =>
      let number ← openGroup none
      return .group number (← close (parseBranches bound flags))

/-- An expression that is no group. -/
def parseAtom : (bound : Nat) → Flags → Parse Regex
  | 0, _ => invalid
  | bound + 1, flags => do
    let cs ← remaining
    match cs with
    | '\x7b' :: _ =>
      if (repetition? cs).isSome then invalid
    | _ => pure ()
    match ← nextChar with
    | '.' => return .any flags.dotAll
    | '^' => return .assert .lineStart
    | '$' => return .assert .lineEnd
    | '[' => return .set (← bracket (2 * cs.length + bound)) flags.anyCase
    | '\\' => escape flags
    | '*' => invalid
    | '+' => invalid
    | '?' => invalid
    | c => return .char c flags.anyCase

end

end Regex

/-- A pattern that has been read. -/
structure ParsedPattern where
  regex : Regex
  /-- How many groups it has. -/
  groups : Nat
  /-- Whether it refers by number to groups although some have names. -/
  mixesNumbersAndNames : Bool
deriving Repr

namespace Regex

/-- Reads a pattern. -/
def parse (pattern : String) : Option ParsedPattern := do
  let cs := pattern.toList
  let (r, st) ← (parseBranches (8 * cs.length + 8) {}).run { rest := cs }
  if st.rest ≠ [] || st.referred > st.groups then none
  else
    return {
      regex := r
      groups := st.groups
      mixesNumbersAndNames := st.byNumber && !st.names.isEmpty }

end Regex
end LineScopes
