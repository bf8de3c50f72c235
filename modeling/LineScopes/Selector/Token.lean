import LineScopes.Unicode.Classes

/-!
# Tokens of selectors

A written selector is cut into words and the signs `,` `|` `-` `(` `)`. Everything else only
separates tokens. A priority mark `L:` or `R:` at the start of a word is a token of its own.

**Main definitions.** `Token`, `tokens`.
-/

namespace LineScopes
namespace Selector

/-- A token of a written selector. -/
inductive Token where
  | comma
  | bar
  | minus
  | lparen
  | rparen
  | word (text : String)
deriving DecidableEq, Repr, Inhabited

namespace Token

/-- The characters of a token. -/
def text : Token → String
  | comma => ","
  | bar => "|"
  | minus => "-"
  | lparen => "("
  | rparen => ")"
  | word t => t

/-- Whether a text can name a scope: it starts with a letter, a number, `_`, `.` or `:`. -/
def isName (t : String) : Bool :=
  match t.toList with
  | [] => false
  | c :: _ => Unicode.isAlphanumeric c || c == '_' || c == '.' || c == ':'

/-- The name a token stands for. -/
def name? : Token → Option String
  | word t => if isName t then some t else none
  | _ => none

/-- Whether a token separates alternatives. -/
def isSeparator : Token → Bool
  | comma => true
  | bar => true
  | _ => false

end Token

/-- A character that starts a word. -/
def startsWord (c : Char) : Bool :=
  Unicode.isWord c || c == '.' || c == ':'

/-- A character that continues a word. -/
def continuesWord (c : Char) : Bool :=
  startsWord c || c == '-'

/-- The sign a character stands for on its own. -/
def sign? : Char → Option Token
  | ',' => some .comma
  | '|' => some .bar
  | '-' => some .minus
  | '(' => some .lparen
  | ')' => some .rparen
  | _ => none

/-- The tokens of a character list, from left to right. -/
def scanTokens : List Char → List Token
  | [] => []
  | 'L' :: ':' :: rest => .word "L:" :: scanTokens rest
  | 'R' :: ':' :: rest => .word "R:" :: scanTokens rest
  | c :: rest =>
    if startsWord c then
      .word (String.ofList (c :: rest.takeWhile continuesWord)) ::
        scanTokens (rest.dropWhile continuesWord)
    else
      match sign? c with
      | some t => t :: scanTokens rest
      | none => scanTokens rest
termination_by cs => cs.length
decreasing_by
  all_goals simp
  all_goals
    have := (List.dropWhile_sublist continuesWord (l := rest)).length_le
    omega

/-- The tokens of a written selector. -/
def tokens (s : String) : List Token :=
  scanTokens s.toList

end Selector
end LineScopes
