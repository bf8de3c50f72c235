import LineScopes.Scope.Name
import LineScopes.Style.FontStyle

/-!
# The tree of theme rules

Rules are kept under the dotted parts of their scope. Every node holds one rule without parents
and a list of rules with parents. A new node starts with the rules of the node above it, so that
looking up a name only has to find the deepest node on its way.

**Main definitions.** `TrieRule`, `TrieRule.compare`, `TrieRule.sort`, `Trie`, `Trie.insert`,
`Trie.find`.
-/

namespace LineScopes

/-- A style at a node. Color number 0 means "not set". -/
structure TrieRule where
  /-- How many dotted parts the scope of the rule has. -/
  depth : Nat
  /-- The parent names, innermost first. -/
  parents : List String
  font : Option FontStyle
  foreground : Nat
  background : Nat
deriving DecidableEq, Repr, Inhabited

/-- What an inserted rule sets. -/
structure TrieStyle where
  font : Option FontStyle
  foreground : Nat
  background : Nat
deriving DecidableEq, Repr, Inhabited

/-- A number for "not set" gives way to the other one. -/
def orElseColor (n other : Nat) : Nat :=
  if n = 0 then other else n

namespace TrieRule

/-- Sets what the style sets; the depth never shrinks. -/
def overwrite
    (r : TrieRule)
    (depth : Nat)
    (s : TrieStyle) : TrieRule :=
  { r with
    depth := max r.depth depth
    font := s.font <|> r.font
    foreground := orElseColor s.foreground r.foreground
    background := orElseColor s.background r.background }

/-- Drops one leading mark of a direct parent. -/
def skipMark : List String → List String
  | ">" :: rest => rest
  | names => names

theorem length_skipMark_le
    (names : List String) :
    (skipMark names).length ≤ names.length := by
  unfold skipMark
  split <;> simp

/-- Compares parent names pairwise, innermost first: a longer name wins. A list that ends, also
behind a mark, ends the comparison. -/
def compareLengths (a b : List String) : Ordering :=
  match _h : skipMark a, skipMark b with
  | x :: xs, y :: ys =>
    (Ord.compare y.utf8ByteSize x.utf8ByteSize).then (compareLengths xs ys)
  | _, _ => .eq
termination_by a.length
decreasing_by
  have h := length_skipMark_le a
  rw [_h, List.length_cons] at h
  omega

/-- The order from the most to the least specific rule: deeper scopes first, then longer parent
names, then more parents. -/
def compare (a b : TrieRule) : Ordering :=
  (Ord.compare b.depth a.depth).then
    ((compareLengths a.parents b.parents).then
      (Ord.compare b.parents.length a.parents.length))

/-- Puts a rule behind sorted ones, which are given with the last one first, and lets it pass those
that it comes before. -/
def place (r : TrieRule) : List TrieRule → List TrieRule
  | [] => [r]
  | last :: others =>
    if r.compare last = .lt then last :: place r others else r :: last :: others

/-- Sorts by inserting one rule after the other. A mark can end the comparison of two rules early,
so that a third rule comes before only one of two equal ones; hence the way of sorting is part of
the result. -/
def sort (rules : List TrieRule) : List TrieRule :=
  (rules.foldl (fun sorted r => place r sorted) []).reverse

end TrieRule

/-- A node with its rule without parents, its rules with parents and its children by name. -/
inductive Trie where
  | node (main : TrieRule) (qualified : List TrieRule) (children : List (String × Trie))
deriving Repr, Inhabited

namespace Trie

/-- The rule without parents. -/
def main : Trie → TrieRule
  | node m _ _ => m

/-- The rules with parents. -/
def qualified : Trie → List TrieRule
  | node _ q _ => q

/-- The children by name. -/
def children : Trie → List (String × Trie)
  | node _ _ c => c

/-- The node at the root of an empty tree. -/
def empty : Trie :=
  .node ⟨0, [], none, 0, 0⟩ [] []

/-- Replaces the first entry with the key, or adds one at the end. -/
def setChild (key : String) (t : Trie) : List (String × Trie) → List (String × Trie)
  | [] => [(key, t)]
  | (k, old) :: rest => if k = key then (k, t) :: rest else (k, old) :: setChild key t rest

/-- The child with a name, or a new one that starts with the rules of this node. -/
def childOrNew
    (t : Trie)
    (key : String) : Trie :=
  (t.children.lookup key).getD (.node t.main t.qualified [])

/-- Overwrites the first rule with the given parents, if there is one. -/
def overwriteFirst
    (parents : List String)
    (depth : Nat)
    (s : TrieStyle) : List TrieRule → Option (List TrieRule)
  | [] => none
  | r :: rest =>
    if r.parents = parents then some (r.overwrite depth s :: rest)
    else (overwriteFirst parents depth s rest).map (r :: ·)

/-- Puts a style at this very node. A style with new parents takes what it does not set from the
rule without parents. -/
def insertHere
    (t : Trie)
    (depth : Nat)
    (parents : Option (List String))
    (s : TrieStyle) : Trie :=
  match parents with
  | none => .node (t.main.overwrite depth s) t.qualified t.children
  | some names =>
    match overwriteFirst names depth s t.qualified with
    | some rules => .node t.main rules t.children
    | none =>
      let fresh : TrieRule := {
        depth := depth
        parents := names
        font := s.font <|> t.main.font
        foreground := orElseColor s.foreground t.main.foreground
        background := orElseColor s.background t.main.background }
      .node t.main (t.qualified ++ [fresh]) t.children

/-- Inserts a style under the dotted parts of a scope, starting at the given depth. -/
def insert
    (t : Trie)
    (depth : Nat)
    (parts : List String)
    (parents : Option (List String))
    (s : TrieStyle) : Trie :=
  match parts with
  | [] => t.insertHere depth parents s
  | part :: rest =>
    let child := (t.childOrNew part).insert (depth + 1) rest parents s
    .node t.main t.qualified (setChild part child t.children)

/-- The rules of this node, the most specific first. -/
def rulesHere (t : Trie) : List TrieRule :=
  TrieRule.sort (t.qualified ++ [t.main])

/-- The rules of the deepest node on the way of the dotted parts. -/
def find
    (t : Trie)
    (parts : List String) : List TrieRule :=
  match parts with
  | [] => t.rulesHere
  | part :: rest =>
    match t.children.lookup part with
    | some child => child.find rest
    | none => t.rulesHere

end Trie

end LineScopes
