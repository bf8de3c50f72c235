import LineScopes.Unicode.Classes

/-!
# Quoted texts

Descriptions show a text between double quotes, with the quote, the backslash and everything
without a visible form of its own escaped.

**Main definitions.** `escapeChar`, `quote`.
-/

namespace LineScopes
namespace Text

/-- The code point of a character in lowercase hexadecimal digits. -/
def hexDigits (n : Nat) : String :=
  String.ofList (Nat.toDigits 16 n)

/-- The written form of a character inside quotes. -/
def escapeChar (c : Char) : String :=
  match c with
  | '"' => "\\\""
  | '\\' => "\\\\"
  | '\n' => "\\n"
  | '\r' => "\\r"
  | '\t' => "\\t"
  | '\x00' => "\\0"
  | _ =>
    if Unicode.attaches c || !Unicode.isPrintable c then
      "\\u\x7b" ++ hexDigits c.toNat ++ "\x7d"
    else
      c.toString

/-- A text between double quotes. -/
def quote (s : String) : String :=
  "\"" ++ String.join (s.toList.map escapeChar) ++ "\""

end Text
end LineScopes
