import LineScopes.Scope.Path
import LineScopes.Style.ColorMap
import LineScopes.Theme.Rule
import LineScopes.Theme.Trie

/-!
# Themes

A theme gives styles to scope paths. The innermost name selects a list of candidates, and the
first one whose parent names occur outward along the path decides.

**Main definitions.** `Theme`, `Theme.ofRules`, `Theme.ofDocument`, `Theme.styleOf`,
`parentsMatch`.
-/

namespace LineScopes

/-- A resolved style; colors are numbers of the color map. -/
structure Style where
  font : Option FontStyle
  foreground : Nat
  background : Nat
deriving DecidableEq, Repr, Inhabited

/-- A theme that can be looked up. -/
structure Theme where
  colors : ColorMap
  defaults : Style
  root : Trie
deriving Repr

/-- The default style before colors are numbered. -/
structure DefaultStyle where
  font : FontStyle := .empty
  foreground : String := "#000000"
  background : String := "#ffffff"
deriving DecidableEq, Repr

namespace DefaultStyle

/-- A rule replaces what it sets. -/
def overwrite
    (d : DefaultStyle)
    (r : ThemeRule) : DefaultStyle where
  font := r.font.getD d.font
  foreground := r.foreground.getD d.foreground
  background := r.background.getD d.background

end DefaultStyle

namespace Theme

/-- Numbers the colors of a rule and inserts it, the foreground before the background. -/
def insertRule
    (state : ColorMap × Trie)
    (r : ThemeRule) : Except Error (ColorMap × Trie) := do
  let (foreground, colors) ← state.1.id? r.foreground
  let (background, colors) ← colors.id? r.background
  let style : TrieStyle := ⟨r.font, foreground, background⟩
  return (colors, state.2.insert 0 (Scope.dottedParts r.scope) r.parents style)

/-- Builds a theme. Rules for the empty scope come first in the order and give the defaults. -/
def ofRules
    (rules : List ThemeRule)
    (colorMap : Option (List String)) : Except Error Theme := do
  let sorted := ThemeRule.sort rules
  let isDefault := fun r : ThemeRule => r.scope == ""
  let defaults := (sorted.takeWhile isDefault).foldl DefaultStyle.overwrite {}
  let start : ColorMap := match colorMap with
    | some colors => .fixed colors
    | none => .empty
  let (foreground, colors) ← start.id defaults.foreground
  let (background, colors) ← colors.id defaults.background
  let (colors, root) ← (sorted.dropWhile isDefault).foldlM insertRule (colors, Trie.empty)
  return { colors, root, defaults := ⟨some defaults.font, foreground, background⟩ }

/-- Builds the theme of a document; without a document there are only the defaults. -/
def ofDocument
    (document : Option ThemeDocument)
    (colorMap : Option (List String)) : Except Error Theme :=
  ofRules ((document.map ThemeDocument.rules).getD []) colorMap

/-- The theme that only has the defaults. -/
def plain : Theme where
  colors := .growing ["#000000", "#FFFFFF"]
  defaults := ⟨some .empty, 1, 2⟩
  root := .empty

theorem ofDocument_none :
    ofDocument none none = .ok plain := by
  have black : Unicode.upper "#000000" = "#000000" := by decide +kernel
  have white : Unicode.upper "#ffffff" = "#FFFFFF" := by decide +kernel
  simp [ofDocument, ofRules, ThemeRule.sort, ColorMap.id, ColorMap.empty, black, white, plain,
    bind, Except.bind, pure, Except.pure]

end Theme

/-- Whether the parent names occur in order along the outer scopes, both innermost first. A name
behind `>` has to be met at once; a `>` at the end is never met. -/
def parentsMatch : (outer parents : List String) → Bool
  | _, [] => true
  | _, [">"] => false
  | [], _ => false
  | scope :: outer, ">" :: name :: parents =>
    Scope.covers name scope && parentsMatch outer parents
  | scope :: outer, name :: parents =>
    if Scope.covers name scope then parentsMatch outer parents
    else parentsMatch outer (name :: parents)
termination_by outer => outer.length

namespace Theme

/-- The style of a scope path; the empty path has the default style. -/
def styleOf
    (t : Theme)
    (path : ScopePath) : Option Style :=
  match path.inward with
  | [] => some t.defaults
  | name :: outer =>
    ((t.root.find (Scope.dottedParts name)).find? (parentsMatch outer ·.parents)).map
      fun r => ⟨r.font, r.foreground, r.background⟩

end Theme

end LineScopes
