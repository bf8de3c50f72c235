import LineScopes.Engine
import LineScopes.Rule.Table

/-!
# Pattern sets

While a rule is in force, a list of patterns can match: the patterns of the rules inside it, with
groups replaced by what they hold, and its own end pattern. The list is in the order of
preference.

**Main definitions.** `PatternLabel`, `PatternItem`, `flatten`, `ruleItems`, `PatternSet`,
`PatternSet.find`.
-/

namespace LineScopes

/-- What a pattern of a set stands for. -/
inductive PatternLabel where
  /-- The start of a rule. -/
  | rule (id : RuleId)
  /-- The end of the region in force. -/
  | closing
  /-- The continuation of a region on a new line. -/
  | continuing
deriving DecidableEq, Repr

/-- The number shown in descriptions. -/
def PatternLabel.describe : PatternLabel → String
  | rule id => toString id
  | closing => "4294967295"
  | continuing => "4294967294"

/-- A pattern with what it stands for. -/
structure PatternItem where
  label : PatternLabel
  source : PatternSource
deriving DecidableEq, Repr

/-- The patterns that can start a rule. A group stands for the rules it holds, unless it is being
replaced already. -/
def flatten
    (rules : RuleTable) : (bound : Nat) → (path : List RuleId) → RuleId → List PatternItem
  | bound, path, id =>
    match rules[id]? with
    | some (.simple r) => [⟨.rule id, r.pattern⟩]
    | some (.region r) => [⟨.rule id, r.opening⟩]
    | some (.lines r) => [⟨.rule id, r.opening⟩]
    | some (.group r) =>
      if path.contains id then []
      else
        match bound with
        | 0 => []
        | bound + 1 => r.patterns.flatMap (flatten rules bound (id :: path))
    | _ => []

/-- The patterns that can start one of several rules. -/
def flattenAll
    (rules : RuleTable)
    (ids : List RuleId) : List PatternItem :=
  ids.flatMap (flatten rules rules.size [])

/-- The patterns that can match while a rule is in force. The end pattern of a region is the
resolved one if there is one. -/
def ruleItems
    (rules : RuleTable)
    (id : RuleId)
    (resolved : Option String) : List PatternItem :=
  match rules[id]? with
  | some (.region r) =>
    let inner := flattenAll rules r.patterns
    let closing : PatternItem :=
      ⟨.closing, (resolved.map PatternSource.ofPattern).getD r.closing⟩
    if r.closingLast then inner ++ [closing] else closing :: inner
  | some (.lines r) => flattenAll rules r.patterns
  | _ => flatten rules rules.size [] id

/-- The pattern that continues a region on a new line. -/
def continuingItems
    (rules : RuleTable)
    (id : RuleId)
    (resolved : Option String) : List PatternItem :=
  match rules[id]? with
  | some (.lines r) =>
    [⟨.continuing, (resolved.map PatternSource.ofPattern).getD r.continuing⟩]
  | _ => []

/-- A match of a pattern set. -/
structure PatternMatch where
  label : PatternLabel
  first : Nat
  last : Nat
  groups : Groups
deriving DecidableEq, Repr

/-- A list of patterns with its scanners, compiled when first needed. -/
structure PatternSet where
  items : List PatternItem
  neither : Thunk (Except Error Scanner)
  onlyA : Thunk (Except Error Scanner)
  onlyG : Thunk (Except Error Scanner)
  both : Thunk (Except Error Scanner)

namespace PatternSet

/-- The scanner of a list of patterns under some anchors. -/
def compileItems
    (engine : Engine)
    (items : List PatternItem)
    (a : Anchors) : Except Error Scanner :=
  engine.compile (items.map (·.source.variant a))

/-- The set of a list of patterns. -/
def ofItems
    (engine : Engine)
    (items : List PatternItem) : PatternSet where
  items := items
  neither := Thunk.mk fun _ => compileItems engine items ⟨false, false⟩
  onlyA := Thunk.mk fun _ => compileItems engine items ⟨true, false⟩
  onlyG := Thunk.mk fun _ => compileItems engine items ⟨false, true⟩
  both := Thunk.mk fun _ => compileItems engine items ⟨true, true⟩

/-- The scanner for the given anchors. -/
def scanner
    (s : PatternSet)
    (a : Anchors) : Except Error Scanner :=
  match a.allowA, a.allowG with
  | false, false => s.neither.get
  | true, false => s.onlyA.get
  | false, true => s.onlyG.get
  | true, true => s.both.get

/-- The earliest match at or after an offset. -/
def find
    (s : PatternSet)
    (text : String)
    (pos : Nat)
    (a : Anchors) : Except Error (Option PatternMatch) :=
  if s.items.isEmpty then .ok none
  else do
    let scan ← s.scanner a
    return (scan text pos).bind fun found =>
      s.items[found.index]?.map fun item =>
        ⟨item.label, found.first, found.last, found.groups⟩

/-- The form shown in descriptions. -/
def describe (items : List PatternItem) : String :=
  "PatternSet(" ++ toString items.length ++ " rules)" ++
    String.join (items.map fun i => "\n  " ++ i.label.describe ++ ": " ++ i.source.text)

theorem scanner_ofItems
    (engine : Engine)
    (items : List PatternItem)
    (a : Anchors) :
    (ofItems engine items).scanner a = compileItems engine items a := by
  rcases a with ⟨_ | _, _ | _⟩ <;> rfl

end PatternSet

end LineScopes
