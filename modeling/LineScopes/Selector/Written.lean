import LineScopes.Error
import LineScopes.Selector.Parser

/-!
# Written selectors

**Main definitions.** `parseSelector`.
-/

namespace LineScopes

/-- Reads a selector, with the text in the error. -/
def parseSelector (text : String) : Except Error (List Alternative) :=
  match Selector.parse text with
  | .ok alternatives => .ok alternatives
  | .error fault => .error (.badSelector text fault)

end LineScopes
