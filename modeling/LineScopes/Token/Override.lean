import LineScopes.Selector.Written
import LineScopes.Style.Metadata

/-!
# Token types by selector

Whoever loads a grammar may give a token type to all text whose scopes a selector accepts,
whatever the scope names say.

**Main definitions.** `TokenTypeOverride`, `TokenTypeOverride.ofText`, `TokenTypeOverride.apply`.
-/

namespace LineScopes

/-- Gives a token type to text whose scopes are accepted. -/
structure TokenTypeOverride where
  selector : Selector
  type : TokenType
deriving Repr, Inhabited

namespace TokenTypeOverride

/-- One override for each alternative of a written selector. -/
def ofText
    (text : String)
    (type : TokenType) : Except Error (List TokenTypeOverride) := do
  return (← parseSelector text).map fun a => ⟨a.selector, type⟩

/-- Applies an override. -/
def apply
    (names : List String)
    (m : Metadata)
    (o : TokenTypeOverride) : Metadata :=
  if o.selector.accepts names then m.update { type := some o.type } else m

end TokenTypeOverride

end LineScopes
