import LineScopes.Json.Value
import LineScopes.Unicode.Classes

/-!
# Reading document values

A strict reader for JSON texts: no comments, no trailing commas, no control characters inside
strings, no leading zeros. Every reader takes a character list and gives back a shorter rest.

**Main definitions.** `Json.skipBlanks`, `Json.readNumber`, `Json.stringBody`, `Json.value`,
`Json.parse`.
-/

namespace LineScopes
namespace Json

/-- The characters allowed between tokens. -/
def isBlank (c : Char) : Bool :=
  c == ' ' || c == '\n' || c == '\t' || c == '\r'

/-- The rest behind leading blanks. -/
def skipBlanks (cs : List Char) : List Char :=
  cs.dropWhile isBlank

/-- The number written by ASCII digits. -/
def digitsValue (ds : List Char) : Nat :=
  ds.foldl (fun n c => 10 * n + (c.toNat - '0'.toNat)) 0

/-- The integer part of a number: a single zero, or digits that do not start with zero. -/
def integerPart (cs : List Char) : Option (List Char × List Char) :=
  let ds := cs.takeWhile Char.isDigit
  match ds with
  | [] => none
  | ['0'] => some (ds, cs.dropWhile Char.isDigit)
  | '0' :: _ => none
  | _ => some (ds, cs.dropWhile Char.isDigit)

/-- The digits behind a point, if there is one. -/
def fractionPart : List Char → Option (List Char × List Char)
  | '.' :: rest =>
    match rest.takeWhile Char.isDigit with
    | [] => none
    | ds => some (ds, rest.dropWhile Char.isDigit)
  | cs => some ([], cs)

/-- The exponent, if there is one. -/
def exponentPart (cs : List Char) : Option (Int × List Char) :=
  match cs with
  | e :: rest =>
    if e == 'e' || e == 'E' then
      let (negative, rest) :=
        match rest with
        | '-' :: r => (true, r)
        | '+' :: r => (false, r)
        | r => (false, r)
      match rest.takeWhile Char.isDigit with
      | [] => none
      | ds =>
        let size := Int.ofNat (digitsValue ds)
        some (if negative then -size else size, rest.dropWhile Char.isDigit)
    else
      some (0, cs)
  | [] => some (0, [])

/-- A number without its sign. -/
def unsigned
    (negative : Bool)
    (cs : List Char) : Option (Number × List Char) := do
  let (whole, rest) ← integerPart cs
  let (part, rest) ← fractionPart rest
  let (exponent, rest) ← exponentPart rest
  return (⟨negative, digitsValue (whole ++ part), exponent - part.length⟩, rest)

/-- A number. -/
def readNumber : List Char → Option (Number × List Char)
  | '-' :: rest => unsigned true rest
  | cs => unsigned false cs

/-- The value of a hexadecimal digit. -/
def hexValue? (c : Char) : Option Nat :=
  if c.isDigit then some (c.toNat - '0'.toNat)
  else if 'a' ≤ c && c ≤ 'f' then some (c.toNat - 'a'.toNat + 10)
  else if 'A' ≤ c && c ≤ 'F' then some (c.toNat - 'A'.toNat + 10)
  else none

/-- The 16-bit unit written by four hexadecimal digits. -/
def unit? (a b c d : Char) : Option Nat := do
  return (((← hexValue? a) * 16 + (← hexValue? b)) * 16 + (← hexValue? c)) * 16 + (← hexValue? d)

/-- What an element of a string stands for. -/
inductive Element where
  | char (c : Char)
  /-- A 16-bit unit written by an escape. -/
  | unit (n : Nat)

/-- The character of an escape with one letter. -/
def simpleEscape? : Char → Option Char
  | '"' => some '"'
  | '\\' => some '\\'
  | '/' => some '/'
  | 'b' => some '\x08'
  | 'f' => some '\x0c'
  | 'n' => some '\n'
  | 'r' => some '\r'
  | 't' => some '\t'
  | _ => none

/-- The elements of a string up to its closing quote. -/
def stringBody : List Char → Option (List Element × List Char)
  | [] => none
  | '"' :: rest => some ([], rest)
  | '\\' :: 'u' :: a :: b :: c :: d :: rest => do
    let n ← unit? a b c d
    let (elements, rest) ← stringBody rest
    return (.unit n :: elements, rest)
  | '\\' :: e :: rest => do
    let c ← simpleEscape? e
    let (elements, rest) ← stringBody rest
    return (.char c :: elements, rest)
  | c :: rest =>
    if c.toNat < 0x20 then none
    else do
      let (elements, rest) ← stringBody rest
      return (.char c :: elements, rest)

/-- Joins surrogate pairs; a surrogate on its own stands for no character. -/
def joinUnits : List Element → Option (List Char)
  | [] => some []
  | .char c :: rest => (joinUnits rest).map (c :: ·)
  | .unit h :: .unit l :: rest =>
    if 0xd800 ≤ h && h < 0xdc00 && 0xdc00 ≤ l && l < 0xe000 then
      (joinUnits rest).map (Char.ofNat (0x10000 + (h - 0xd800) * 0x400 + (l - 0xdc00)) :: ·)
    else if 0xd800 ≤ h && h < 0xe000 then none
    else (joinUnits (.unit l :: rest)).map (Char.ofNat h :: ·)
  | .unit n :: rest =>
    if 0xd800 ≤ n && n < 0xe000 then none
    else (joinUnits rest).map (Char.ofNat n :: ·)

/-- The text behind an opening quote. -/
def text (cs : List Char) : Option (Option String × List Char) := do
  let (elements, rest) ← stringBody cs
  return ((joinUnits elements).map String.ofList, rest)

/-- The rest behind a sign, with blanks before it skipped. -/
def expect (sign : Char) (cs : List Char) : Option (List Char) :=
  match skipBlanks cs with
  | c :: rest => if c = sign then some rest else none
  | [] => none

mutual

/-- A value, after blanks. The bound is met by any value with at most as many characters. -/
def value : (bound : Nat) → List Char → Option (Json × List Char)
  | 0, _ => none
  | bound + 1, cs =>
    match skipBlanks cs with
    | 'n' :: 'u' :: 'l' :: 'l' :: rest => some (.null, rest)
    | 't' :: 'r' :: 'u' :: 'e' :: rest => some (.bool true, rest)
    | 'f' :: 'a' :: 'l' :: 's' :: 'e' :: rest => some (.bool false, rest)
    | '"' :: rest => do
      let (t, rest) ← text rest
      return (.string t, rest)
    | '[' :: rest =>
      match expect ']' rest with
      | some rest => some (.array [], rest)
      | none => do
        let (items, rest) ← elements bound rest
        return (.array items, rest)
    | '\x7b' :: rest =>
      match expect '\x7d' rest with
      | some rest => some (.object [], rest)
      | none => do
        let (members, rest) ← members bound rest
        return (.object members, rest)
    | rest => do
      let (n, rest) ← readNumber rest
      return (.number n, rest)

/-- The values of an array, at least one, up to its closing sign. -/
def elements : (bound : Nat) → List Char → Option (List Json × List Char)
  | 0, _ => none
  | bound + 1, cs => do
    let (item, rest) ← value bound cs
    match expect ',' rest with
    | some rest => do
      let (items, rest) ← elements bound rest
      return (item :: items, rest)
    | none => do
      let rest ← expect ']' rest
      return ([item], rest)

/-- The members of an object, at least one, up to its closing sign. -/
def members : (bound : Nat) → List Char → Option (List (Option String × Json) × List Char)
  | 0, _ => none
  | bound + 1, cs => do
    let rest ← expect '"' cs
    let (key, rest) ← text rest
    let rest ← expect ':' rest
    let (item, rest) ← value bound rest
    match expect ',' rest with
    | some rest => do
      let (others, rest) ← members bound rest
      return ((key, item) :: others, rest)
    | none => do
      let rest ← expect '\x7d' rest
      return ([(key, item)], rest)

end

/-- The value of a whole text. -/
def parse (s : String) : Option Json :=
  let cs := s.toList
  match value (2 * cs.length + 2) cs with
  | some (j, rest) => if skipBlanks rest = [] then some j else none
  | none => none

end Json
end LineScopes
