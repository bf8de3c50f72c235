import LineScopes.Theme.Basic
import LineScopes.Token.Languages

/-!
# Scope lists

The scopes of a text are kept together with the metadata of every prefix of their path. The
metadata of a scope starts from that of the scopes around it and takes over what the languages
and the theme say about the new path.

**Main definitions.** `Attribution`, `ScopeList`, `ScopeList.push`, `ScopeList.pushName`.

**Main statements.** `names_foldl_push`: the names pushed stand behind those of the list.
-/

namespace LineScopes

/-- Adds the style of a path, if it has one, to other attributes. -/
def Attributes.withStyle
    (a : Attributes) : Option Style → Attributes
  | none => a
  | some s => { a with font := s.font, foreground := s.foreground, background := s.background }

/-- What decides about the metadata of scopes. -/
structure Attribution where
  languages : Languages
  theme : Theme

namespace Attribution

/-- The metadata of text without scopes. -/
def defaults (a : Attribution) : Metadata :=
  let attributes : Attributes := { language := a.languages.initial }
  Metadata.update 0 (attributes.withStyle (some a.theme.defaults))

/-- The metadata inside a new innermost scope, given the metadata around it. -/
def inside
    (a : Attribution)
    (outer : Metadata)
    (name : String)
    (path : ScopePath) : Metadata :=
  outer.update ((a.languages.attributesOf name).withStyle (a.theme.styleOf path))

end Attribution

/-- Scopes with their metadata, the innermost first. -/
structure ScopeList where
  path : ScopePath
  metadata : List Metadata
deriving Repr, Inhabited

namespace ScopeList

theorem eq_iff
    {l l' : ScopeList} :
    l = l' ↔ l.path = l'.path ∧ l.metadata = l'.metadata := by
  cases l
  cases l'
  simp

instance : DecidableEq ScopeList := fun _ _ =>
  decidable_of_iff _ eq_iff.symm

/-- The list without scopes. -/
def empty : ScopeList :=
  ⟨.empty, []⟩

/-- Whether there is no scope. -/
def isEmpty (l : ScopeList) : Bool :=
  l.path.isEmpty

/-- The scope names, outermost first. -/
def names (l : ScopeList) : List String :=
  l.path.segments

/-- The metadata of text in these scopes, if there are any. -/
def metadata? (l : ScopeList) : Option Metadata :=
  l.metadata.head?

/-- Pushes one scope. -/
def push
    (a : Attribution)
    (l : ScopeList)
    (name : String) : ScopeList :=
  let path := l.path.push name
  ⟨path, a.inside (l.metadata?.getD a.defaults) name path :: l.metadata⟩

/-- Pushes the scopes of a rule name, which are separated by single spaces. -/
def pushName
    (a : Attribution)
    (l : ScopeList) : Option String → ScopeList
  | none => l
  | some name => (Text.splitAt ' ' name).foldl (push a) l

/-- The list around each scope and the list itself, innermost first. -/
def levels (l : ScopeList) : List ScopeList :=
  match l with
  | ⟨⟨name :: outer⟩, m :: rest⟩ => ⟨⟨name :: outer⟩, m :: rest⟩ :: levels ⟨⟨outer⟩, rest⟩
  | _ => []
termination_by l.metadata.length

/-- The form shown in descriptions. -/
def describe (l : ScopeList) : String :=
  l.path.text ++ " (" ++ (l.metadata?.getD 0).binaryDigits ++ ")"

@[simp] theorem names_push
    (a : Attribution)
    (l : ScopeList)
    (name : String) :
    (l.push a name).names = l.names ++ [name] := by
  simp [names, push]

theorem names_foldl_push
    (a : Attribution)
    (l : ScopeList)
    (names : List String) :
    (names.foldl (push a) l).names = l.names ++ names := by
  induction names generalizing l with
  | nil => simp
  | cons name rest ih => simp [ih]

end ScopeList

end LineScopes
