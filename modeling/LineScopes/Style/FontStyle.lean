import LineScopes.Text.Split

/-!
# Font styles

A font style is a set of four flags. The empty set is a style of its own: it takes inherited
flags away.

**Main definitions.** `FontStyle`, `FontStyle.ofWords`, `FontStyle.names`.
-/

namespace LineScopes

/-- A set of font flags, one bit each. -/
structure FontStyle where
  bits : BitVec 4
deriving DecidableEq, Repr, Inhabited

namespace FontStyle

def empty : FontStyle := ⟨0⟩
def italic : FontStyle := ⟨1⟩
def bold : FontStyle := ⟨2⟩
def underline : FontStyle := ⟨4⟩
def strikethrough : FontStyle := ⟨8⟩

/-- The style with the four lowest bits of a number. -/
def ofNat (n : Nat) : FontStyle :=
  ⟨BitVec.ofNat 4 n⟩

/-- The number whose bits are the flags. -/
def toNat (f : FontStyle) : Nat :=
  f.bits.toNat

/-- Whether no flag is set. -/
def isEmpty (f : FontStyle) : Bool :=
  f.bits == 0

/-- The flags of both styles. -/
def union (f g : FontStyle) : FontStyle :=
  ⟨f.bits ||| g.bits⟩

/-- Whether every flag of `g` is set in `f`. -/
def contains (f g : FontStyle) : Bool :=
  f.bits &&& g.bits == g.bits

/-- The flags with their names, in the order they are written. -/
def named : List (FontStyle × String) :=
  [(italic, "italic"), (bold, "bold"), (underline, "underline"),
    (strikethrough, "strikethrough")]

/-- The style a word stands for; an unknown word sets nothing. -/
def ofWord (word : String) : FontStyle :=
  match named.find? (·.2 == word) with
  | some (f, _) => f
  | none => empty

/-- Reads words separated by single spaces. -/
def ofWords (s : String) : FontStyle :=
  (Text.splitAt ' ' s).foldl (fun f word => f.union (ofWord word)) empty

/-- The names of the flags, or `none`. -/
def names (f : FontStyle) : String :=
  if f.isEmpty then "none"
  else " ".intercalate ((named.filter fun p => f.contains p.1).map Prod.snd)

/-- Styles are ordered by their bits. -/
def compare (f g : FontStyle) : Ordering :=
  Ord.compare f.toNat g.toNat

end FontStyle

end LineScopes
