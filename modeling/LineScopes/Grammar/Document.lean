/-!
# Grammar documents

All rules of a grammar are written in one shape; what a rule does is decided by the fields that
are set. A rule is identified by where it stands in its grammar, not by what it says.

**Main definitions.** `RawRule`, `RawGrammar`, `Place`, `RuleAddress`.
-/

namespace LineScopes

/-- A rule as written. -/
structure RawRule where
  /-- A reference to other rules: `#name`, `scope`, `scope#name`, `$self` or `$base`. -/
  reference : Option String := none
  name : Option String := none
  contentName : Option String := none
  matchPattern : Option String := none
  captures : Option (List (String × RawRule)) := none
  beginPattern : Option String := none
  beginCaptures : Option (List (String × RawRule)) := none
  endPattern : Option String := none
  endCaptures : Option (List (String × RawRule)) := none
  whilePattern : Option String := none
  whileCaptures : Option (List (String × RawRule)) := none
  patterns : Option (List RawRule) := none
  repository : Option (List (String × RawRule)) := none
  /-- Whether the nested patterns are tried before the end pattern. -/
  endLast : Bool := false
deriving Repr, Inhabited

/-- Rules by capture key, in the order of the keys. -/
abbrev Captures := List (String × RawRule)

/-- Rules by name. -/
abbrev Repository := List (String × RawRule)

/-- A grammar as written. -/
structure RawGrammar where
  scopeName : String := ""
  name : Option String := none
  patterns : List RawRule := []
  repository : Option Repository := none
  /-- Rules by the selector that says where they are injected, in the order they are written. -/
  injections : Option (List (String × RawRule)) := none
  /-- Where the grammar wants to be injected into others. -/
  injectionSelector : Option String := none
  fileTypes : List String := []
  firstLineMatch : Option String := none
deriving Repr, Inhabited

/-- The four capture lists of a rule. -/
inductive CaptureRole where
  | shared
  | opening
  | closing
  | continuing
deriving DecidableEq, Repr, Hashable

/-- A step from a rule or grammar to a rule inside it. -/
inductive Place where
  | pattern (index : Nat)
  | capture (role : CaptureRole) (key : String)
  | named (name : String)
  | injection (selector : String)
deriving DecidableEq, Repr, Hashable

/-- Where a rule stands: the scope of its grammar and the steps to it, the last step first. -/
structure RuleAddress where
  scope : String
  steps : List Place
deriving DecidableEq, Repr, Hashable

namespace RuleAddress

/-- The address one step further inside. -/
def step
    (a : RuleAddress)
    (p : Place) : RuleAddress :=
  { a with steps := p :: a.steps }

end RuleAddress

end LineScopes
