import LineScopes.Rule.PatternSet
import LineScopes.Scan.ScopeList

/-!
# States between lines

The rules that are open at some place of a line form a stack of frames. The stack is never empty:
its lowest frame belongs to the root patterns.

**Main definitions.** `Frame`, `State`, `State.initial`, `State.push`, `State.pop?`,
`State.reset`, `State.equals`, `State.hasSameRuleAs`.
-/

namespace LineScopes

/-- A rule that is open. -/
structure Frame where
  rule : RuleId
  /-- Where the rule was entered, on the line being scanned. -/
  enter : Option Nat
  /-- Where `\G` matched when the rule was entered; it matches there again once the rule is left. -/
  anchor : Option Nat
  /-- Whether the match that opened the rule included the end of its line. -/
  reachesEnd : Bool
  /-- The end or continuation pattern, if captured texts were inserted into it. -/
  closing : Option String
  /-- The patterns that belong to `closing`, once they have been used. -/
  patterns : Option PatternSet
  /-- The scopes of the delimiters. -/
  nameScopes : ScopeList
  /-- The scopes of the text between the delimiters. -/
  contentScopes : ScopeList
  /-- Whether this is the lowest frame before any line. -/
  untouched : Bool

namespace Frame

/-- A frame that has just been entered. -/
def entered
    (rule : RuleId)
    (enter anchor : Option Nat)
    (reachesEnd : Bool)
    (nameScopes contentScopes : ScopeList) : Frame where
  rule := rule
  enter := enter
  anchor := anchor
  reachesEnd := reachesEnd
  closing := none
  patterns := none
  nameScopes := nameScopes
  contentScopes := contentScopes
  untouched := false

/-- The lowest frame of a document. -/
def root (scopes : ScopeList) : Frame :=
  entered rootRule none none false scopes scopes

/-- Replaces the content scopes. -/
def withContentScopes
    (f : Frame)
    (scopes : ScopeList) : Frame :=
  { f with contentScopes := scopes, untouched := f.untouched && scopes.isEmpty }

/-- Replaces the resolved end pattern. -/
def withClosing
    (f : Frame)
    (text : String) : Frame :=
  if f.closing = some text then f
  else { f with closing := some text, patterns := none, untouched := false }

/-- Forgets the places on the line, which mean nothing on the next one. -/
def reset (f : Frame) : Frame :=
  { f with enter := none, anchor := none }

/-- Whether two frames stand for the same open rule. -/
def sameRule (f g : Frame) : Bool :=
  f.rule == g.rule && f.closing == g.closing

@[simp] theorem reset_reset
    (f : Frame) :
    f.reset.reset = f.reset := by
  rfl

end Frame

/-- The open rules, the innermost one on top. -/
structure State where
  top : Frame
  /-- The frames under the top, the highest first. -/
  below : List Frame

namespace State

/-- The state before the first line of a document. -/
def initial : State :=
  ⟨{ Frame.root .empty with untouched := true }, []⟩

/-- The state at the start of the first line. -/
def root (scopes : ScopeList) : State :=
  ⟨.root scopes, []⟩

/-- All frames, the top first. -/
def frames (s : State) : List Frame :=
  s.top :: s.below

/-- The number of frames. -/
def depth (s : State) : Nat :=
  s.below.length + 1

/-- Whether no line has been scanned. -/
def isInitial (s : State) : Bool :=
  s.below.isEmpty && s.top.untouched

/-- Puts a frame on top. -/
def push
    (s : State)
    (f : Frame) : State :=
  ⟨f, s.frames⟩

/-- Removes the top frame; the lowest frame cannot be removed. -/
def pop? (s : State) : Option State :=
  match s.below with
  | [] => none
  | f :: rest => some ⟨f, rest⟩

/-- Removes the top frame unless it is the only one. -/
def pop (s : State) : State :=
  s.pop?.getD s

/-- Changes the top frame. -/
def mapTop
    (s : State)
    (change : Frame → Frame) : State :=
  { s with top := change s.top }

/-- Forgets the places on the line in every frame. -/
def reset (s : State) : State :=
  ⟨s.top.reset, s.below.map Frame.reset⟩

/-- The scope names of the text scanned in this state, outermost first. -/
def scopeNames (s : State) : List String :=
  s.top.contentScopes.names

/-- Whether the frames stand for the same open rules. -/
def sameRules : List Frame → List Frame → Bool
  | [], [] => true
  | f :: fs, g :: gs => f.sameRule g && sameRules fs gs
  | _, _ => false

/-- The comparison of states: their frames stand for the same rules, and text gets the same
scopes. -/
def equals (s t : State) : Bool :=
  sameRules s.frames t.frames && s.top.contentScopes == t.top.contentScopes

/-- Whether a rule is the one on top of `t` and was entered at the same place; only frames that
were entered there are looked at. -/
def hasSameRuleAs (s t : State) : Bool :=
  (s.frames.takeWhile fun f => f.enter == t.top.enter).any fun f => f.rule == t.top.rule

/-- The state and all states below it, each without the top frame of the one before. -/
def suffixes (s : State) : List State :=
  go s.top s.below
where
  /-- The states with the given frames, the first one on top. -/
  go (f : Frame) : List Frame → List State
    | [] => [⟨f, []⟩]
    | g :: rest => ⟨f, g :: rest⟩ :: go g rest

@[simp] theorem pop_push
    (s : State)
    (f : Frame) :
    (s.push f).pop = s := by
  rfl

@[simp] theorem reset_reset
    (s : State) :
    s.reset.reset = s.reset := by
  simp [reset, Function.comp_def]

/-- The scopes of a frame in a description. -/
def describeNames (scopes : ScopeList) : String :=
  "[" ++ ", ".intercalate scopes.names ++ "]"

/-- The form of an optional offset in a description. -/
def describeOffset : Option Nat → String
  | none => "None"
  | some n => "Some(" ++ toString n ++ ")"

/-- The line for a frame in a description. -/
def describeFrame
    (indent : Nat)
    (f : Frame) : String :=
  let name := if f.nameScopes.isEmpty then "" else " name=" ++ describeNames f.nameScopes
  let content :=
    if f.contentScopes.isEmpty then "" else ", content=" ++ describeNames f.contentScopes
  let closing := match f.closing with
    | some text => ", end_rule=\"" ++ text ++ "\""
    | none => ""
  let enter := match f.enter with
    | some n => if f.anchor = some n then "" else ", enter_pos=" ++ toString n
    | none => ""
  String.join (List.replicate indent "  ") ++ "rule=" ++ toString f.rule ++ name ++ content ++
    closing ++ ", anchor_pos=" ++ describeOffset f.anchor ++ enter ++
    ", begin_rule_has_captured_eol=" ++ toString f.reachesEnd ++ "\n"

/-- The form shown in descriptions, the lowest frame first. -/
def describe (s : State) : String :=
  "StateStack:\n" ++ String.join (s.frames.reverse.mapIdx describeFrame)

end State

end LineScopes
