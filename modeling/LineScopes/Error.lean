import LineScopes.Selector.Basic

/-!
# Errors

Everything that can go wrong while grammars are read, loaded and compiled, themes are built and
lines are tokenized, with the texts shown to a user.

**Main definitions.** `Error`, `Error.message`.
-/

namespace LineScopes

/-- The causes of failure. -/
inductive Error where
  /-- A grammar or theme document is not of the required form. -/
  | badDocument
  /-- The engine refuses a pattern. -/
  | badPattern (pattern : String)
  /-- No grammar is known for a scope. -/
  | unknownGrammar (scope : String)
  /-- The loader reports a failure. -/
  | loader (message : String)
  /-- A text is not a selector. -/
  | badSelector (selector : String) (fault : Selector.Fault)
  /-- A color is missing from a fixed color map. -/
  | missingColor (color : String)
  /-- A captured group has a number too large for any list of groups. The program panics there. -/
  | groupOverflow
  /-- The scan of a line goes on without end. -/
  | endlessScan
  /-- Scans of groups are nested deeper than was asked for. -/
  | deepScan
deriving DecidableEq, Repr

namespace Error

/-- The text of an error. Explanations given by the document reader and by the engine follow
after the final colon and are not part of it. -/
def message : Error → String
  | badDocument => "JSON parsing error: "
  | badPattern pattern => "invalid regex '" ++ pattern ++ "': "
  | unknownGrammar scope => "no grammar provided for <" ++ scope ++ ">"
  | loader text => "grammar loader error: " ++ text
  | badSelector selector fault =>
    "invalid scope selector '" ++ selector ++ "': " ++ fault.reason
  | missingColor color => "missing color in color map - " ++ color
  | groupOverflow => "capacity overflow"
  | endlessScan => "the scan does not end"
  | deepScan => "scans are nested too deep"

end Error

end LineScopes
