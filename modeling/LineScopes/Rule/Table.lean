import LineScopes.Pattern.Source
import LineScopes.Pattern.Template

/-!
# Compiled rules

A compiled grammar is a table of rules that refer to each other by number.

**Main definitions.** `RuleId`, `Rule`, `RuleTable`, `Rule.isInert`.
-/

namespace LineScopes

/-- The place of a rule in its table. -/
abbrev RuleId := Nat

/-- The root patterns of the grammar being tokenized. -/
def rootRule : RuleId := 0

/-- A rule for a single match. -/
structure MatchRule where
  name : Option NameTemplate
  pattern : PatternSource
  /-- The rules of the groups, by group number. -/
  captures : List (Option RuleId)
deriving Repr

/-- A rule that only holds other rules. -/
structure GroupRule where
  name : Option NameTemplate
  contentName : Option NameTemplate
  patterns : List RuleId
  /-- Whether some includes could not be resolved. -/
  missing : Bool
deriving Repr

/-- A region that lasts until its end pattern matches. -/
structure RegionRule where
  name : Option NameTemplate
  contentName : Option NameTemplate
  opening : PatternSource
  openingCaptures : List (Option RuleId)
  closing : PatternSource
  closingCaptures : List (Option RuleId)
  /-- Whether the nested patterns are tried before the end pattern. -/
  closingLast : Bool
  patterns : List RuleId
  missing : Bool
deriving Repr

/-- A region that lasts as long as its pattern matches at the start of each line. -/
structure WhileRule where
  name : Option NameTemplate
  contentName : Option NameTemplate
  opening : PatternSource
  openingCaptures : List (Option RuleId)
  continuing : PatternSource
  continuingCaptures : List (Option RuleId)
  patterns : List RuleId
  missing : Bool
deriving Repr

/-- The scopes of a captured group, and the rule that tokenizes its text again. -/
structure CaptureRule where
  name : Option NameTemplate
  contentName : Option NameTemplate
  retokenize : Option RuleId
deriving Repr

/-- A compiled rule. -/
inductive Rule where
  | simple (r : MatchRule)
  | group (r : GroupRule)
  | region (r : RegionRule)
  | lines (r : WhileRule)
  | capture (r : CaptureRule)
  /-- Holds a place while the rule is being compiled. -/
  | pending
deriving Repr, Inhabited

namespace Rule

/-- The name given to the whole match or region. -/
def name : Rule → Option NameTemplate
  | simple r => r.name
  | group r => r.name
  | region r => r.name
  | lines r => r.name
  | capture r => r.name
  | pending => none

/-- The name given to the text between the delimiters of a region. -/
def contentName : Rule → Option NameTemplate
  | simple _ => none
  | group r => r.contentName
  | region r => r.contentName
  | lines r => r.contentName
  | capture r => r.contentName
  | pending => none

/-- The rules held inside. -/
def patterns : Rule → List RuleId
  | group r => r.patterns
  | region r => r.patterns
  | lines r => r.patterns
  | _ => []

/-- Whether some includes could not be resolved. -/
def missing : Rule → Bool
  | group r => r.missing
  | region r => r.missing
  | lines r => r.missing
  | _ => false

/-- Whether nothing is left because no include could be resolved. -/
def isInert (r : Rule) : Bool :=
  r.missing && r.patterns.isEmpty

/-- The name shown in reports. -/
def label (r : Rule) : String :=
  (r.name.map NameTemplate.text).getD "No name"

end Rule

/-- All rules of a compiled grammar. -/
abbrev RuleTable := Array Rule

end LineScopes
