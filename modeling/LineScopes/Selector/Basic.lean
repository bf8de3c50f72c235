import LineScopes.Scope.Name

/-!
# Scope selectors

A selector says for which scope paths something applies: a list of names has to occur in order
along the path, and selectors are combined by conjunction, alternation and negation. A written
selector has several alternatives, each with a priority.

**Main definitions.** `Selector`, `Selector.accepts`, `Alternative`, `Selector.Fault`.
-/

namespace LineScopes

/-- How an alternative of a selector competes with the rule in force. -/
inductive Priority where
  /-- Written `L:`; wins ties. -/
  | left
  | normal
  /-- Written `R:`. -/
  | right
deriving DecidableEq, Repr, Inhabited

namespace Priority

/-- The place of a priority in the order of preference. -/
def value : Priority → Int
  | left => -1
  | normal => 0
  | right => 1

/-- The name shown in descriptions. -/
def describe : Priority → String
  | left => "Left"
  | normal => "Normal"
  | right => "Right"

end Priority

/-- A selector expression. -/
inductive Selector where
  /-- Names that occur in this order along the path. -/
  | names (ids : List String)
  | all (parts : List Selector)
  | any (parts : List Selector)
  | not (part : Selector)
deriving Repr, Inhabited, BEq

namespace Selector

mutual

/-- Evaluates a selector, given the test for lists of names. -/
def acceptsWith (test : List String → Bool) : Selector → Bool
  | names ids => test ids
  | all parts => acceptsAll test parts
  | any parts => acceptsAny test parts
  | not part => !acceptsWith test part

/-- Whether every selector of a list accepts. -/
def acceptsAll (test : List String → Bool) : List Selector → Bool
  | [] => true
  | s :: rest => acceptsWith test s && acceptsAll test rest

/-- Whether some selector of a list accepts. -/
def acceptsAny (test : List String → Bool) : List Selector → Bool
  | [] => false
  | s :: rest => acceptsWith test s || acceptsAny test rest

end

/-- Whether a selector accepts the scopes, given outermost first. -/
def accepts
    (s : Selector)
    (scopes : List String) : Bool :=
  s.acceptsWith (Scope.embeds · scopes)

/-- Why a text is not a selector. -/
inductive Fault where
  | danglingNegation
  | unclosedGroup
  | emptyGroup
  | danglingPriority
  | unexpected (token : String)
deriving DecidableEq, Repr

/-- The explanation of a fault. -/
def Fault.reason : Fault → String
  | danglingNegation => "`-` is not followed by an operand"
  | unclosedGroup => "unclosed parenthesis"
  | emptyGroup => "empty group"
  | danglingPriority => "priority prefix is not followed by a selector"
  | unexpected token => "unexpected `" ++ token ++ "`"

theorem acceptsAll_eq_all
    (test : List String → Bool)
    (parts : List Selector) :
    acceptsAll test parts = parts.all (acceptsWith test) := by
  induction parts with
  | nil => simp [acceptsAll]
  | cons s rest ih => simp [acceptsAll, ih]

theorem acceptsAny_eq_any
    (test : List String → Bool)
    (parts : List Selector) :
    acceptsAny test parts = parts.any (acceptsWith test) := by
  induction parts with
  | nil => simp [acceptsAny]
  | cons s rest ih => simp [acceptsAny, ih]

end Selector

/-- One alternative of a written selector. -/
structure Alternative where
  priority : Priority
  selector : Selector
deriving Repr, Inhabited

end LineScopes
