import LineScopes.Selector.Basic
import LineScopes.Selector.Token

/-!
# Reading selectors

**Grammar.** Alternatives are separated by single `,` or `|`, each may be empty or start with a
priority mark. An alternative is a sequence of operands; an operand is a run of names, `-` and an
operand, or a group in parentheses. Inside a group, sequences are separated by any number of `,`
or `|`.

**Main definitions.** `operand`, `sequence`, `groupBody`, `alternatives`, `Selector.parse`.
-/

namespace LineScopes
namespace Selector

open Token

/-- A selector with one part is this part. -/
def allOf : List Selector → Selector
  | [s] => s
  | parts => .all parts

/-- An alternation with one part is this part. -/
def anyOf : List Selector → Selector
  | [s] => s
  | parts => .any parts

/-- The names at the start of a token list. -/
def leadingNames : List Token → List String
  | [] => []
  | t :: rest =>
    match t.name? with
    | some n => n :: leadingNames rest
    | none => []

/-- The tokens after the leading names. -/
def afterNames : List Token → List Token
  | [] => []
  | t :: rest =>
    match t.name? with
    | some _ => afterNames rest
    | none => t :: rest

theorem length_afterNames_le
    (ts : List Token) :
    (afterNames ts).length ≤ ts.length := by
  induction ts with
  | nil => simp [afterNames]
  | cons t rest ih =>
    unfold afterNames
    split
    · exact Nat.le_trans ih (by simp)
    · exact Nat.le_refl _

mutual

/-- Reads one operand, if there is one, and gives the tokens after it. -/
def operand (ts : List Token) :
    Except Fault (Option (Selector × { r : List Token // r.length < ts.length })) :=
  match ts with
  | [] => return none
  | .minus :: rest => do
    match ← operand rest with
    | some (s, ⟨r, hr⟩) => return some (.not s, ⟨r, Nat.lt_succ_of_lt hr⟩)
    | none => throw .danglingNegation
  | .lparen :: rest => do
    match ← groupBody rest with
    | (parts, ⟨.rparen :: r, hr⟩) =>
      match parts with
      | [] => throw .emptyGroup
      | _ => return some (anyOf parts, ⟨r, Nat.lt_succ_of_le (Nat.le_of_succ_le hr)⟩)
    | _ => throw .unclosedGroup
  | t :: rest =>
    match t.name? with
    | none => return none
    | some n =>
      return some (.names (n :: leadingNames rest),
        ⟨afterNames rest, Nat.lt_succ_of_le (length_afterNames_le rest)⟩)
termination_by (ts.length, 0)

/-- Reads operands as long as there are any. -/
def sequence (ts : List Token) :
    Except Fault (List Selector × { r : List Token // r.length ≤ ts.length }) := do
  match ← operand ts with
  | none => return ([], ⟨ts, Nat.le_refl _⟩)
  | some (s, ⟨r, hr⟩) =>
    let (parts, ⟨r', hr'⟩) ← sequence r
    return (s :: parts, ⟨r', by omega⟩)
termination_by (ts.length, 1)

/-- Reads the sequences of a group up to its closing sign. -/
def groupBody (ts : List Token) :
    Except Fault (List Selector × { r : List Token // r.length ≤ ts.length }) := do
  let (parts, ⟨r, hr⟩) ← sequence ts
  let here := if parts.isEmpty then [] else [allOf parts]
  match r, hr with
  | t :: rest, hr =>
    if t.isSeparator then
      have : rest.length < ts.length := hr
      let (others, ⟨r', hr'⟩) ← groupBody rest
      return (here ++ others, ⟨r', by omega⟩)
    else
      return (here, ⟨t :: rest, hr⟩)
  | [], hr => return (here, ⟨[], hr⟩)
termination_by (ts.length, 2)

end

/-- The priority mark a token stands for. -/
def priority? : Token → Option Priority
  | .word "L:" => some .left
  | .word "R:" => some .right
  | _ => none

theorem length_unmarked_le
    (marked : Bool) (t : Token) (rest : List Token) :
    (if marked then rest else t :: rest).length ≤ rest.length + 1 := by
  cases marked with
  | true => exact Nat.le_succ _
  | false => exact Nat.le_refl _

/-- Reads the alternatives of a whole selector. -/
def alternatives (ts : List Token) : Except Fault (List Alternative) := do
  match ts with
  | [] => return []
  | t :: rest =>
    let mark := priority? t
    let body := if mark.isSome then rest else t :: rest
    have hbody : body.length ≤ rest.length + 1 := length_unmarked_le mark.isSome t rest
    let (parts, ⟨r, hr⟩) ← sequence body
    if parts.isEmpty && mark.isSome then
      throw .danglingPriority
    let here :=
      if parts.isEmpty then [] else [{ priority := mark.getD .normal, selector := allOf parts }]
    match r, hr with
    | [], _ => return here
    | sep :: r', hr' =>
      if sep.isSeparator then
        have : r'.length < rest.length + 1 := Nat.lt_of_lt_of_le hr' hbody
        return here ++ (← alternatives r')
      else
        throw (.unexpected sep.text)
termination_by ts.length
decreasing_by exact this

/-- Reads a written selector. -/
def parse (s : String) : Except Fault (List Alternative) :=
  alternatives (tokens s)

end Selector
end LineScopes
