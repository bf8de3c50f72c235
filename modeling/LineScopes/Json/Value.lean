/-!
# Document values

Documents are written in JSON. A value keeps everything later readers may object to: the order
and repetition of keys, escapes that stand for no character, and numbers of any size.

**Main definitions.** `Json`, `Json.Number`, `Json.sound`.
-/

namespace LineScopes

/-- A number as written: an integer scaled by a power of ten. -/
structure Json.Number where
  negative : Bool
  digits : Nat
  exponent : Int
deriving DecidableEq, Repr, Inhabited

/-- A document value. A text is absent when one of its escapes is half a character. -/
inductive Json where
  | null
  | bool (value : Bool)
  | number (value : Json.Number)
  | string (text : Option String)
  | array (items : List Json)
  | object (members : List (Option String × Json))
deriving Repr, Inhabited

namespace Json

namespace Number

/-- The position of the leading digit, relative to the point. -/
def magnitude (n : Number) : Int :=
  (Nat.toDigits 10 n.digits).length + n.exponent

/-- The scaled number as a fraction of two naturals. -/
def fraction (n : Number) : Nat × Nat :=
  if 0 ≤ n.exponent then (n.digits * Nat.pow 10 n.exponent.toNat, 1)
  else (n.digits, Nat.pow 10 (-n.exponent).toNat)

/-- Whether the size of a number rounds to one above all double precision numbers. -/
def isTooLarge (n : Number) : Bool :=
  if n.digits = 0 || n.magnitude < 300 then false
  else if n.magnitude > 320 then true
  else
    let (top, bottom) := n.fraction
    (Nat.pow 2 1024 - Nat.pow 2 970) * bottom ≤ top

/-- Whether a number rounds to zero in double precision. -/
def isZero (n : Number) : Bool :=
  if n.digits = 0 then true
  else if n.magnitude > -300 then false
  else if n.magnitude < -340 then true
  else
    let (top, bottom) := n.fraction
    top * Nat.pow 2 1075 ≤ bottom

end Number

mutual

/-- Whether every text is made of characters, every number has a size in double precision, and
containers are nested at most `depth` deep. -/
def sound (depth : Nat) : Json → Bool
  | null => true
  | bool _ => true
  | number n => !n.isTooLarge
  | string t => t.isSome
  | array items =>
    match depth with
    | 0 => false
    | d + 1 => soundItems d items
  | object members =>
    match depth with
    | 0 => false
    | d + 1 => soundMembers d members

/-- Whether every item of a list is sound. -/
def soundItems (depth : Nat) : List Json → Bool
  | [] => true
  | j :: rest => sound depth j && soundItems depth rest

/-- Whether every key and value of a list is sound. -/
def soundMembers (depth : Nat) : List (Option String × Json) → Bool
  | [] => true
  | (key, j) :: rest => key.isSome && sound depth j && soundMembers depth rest

end

/-- How deep containers may be nested in what is read. -/
def depthLimit : Nat := 127

end Json

end LineScopes
