import LineScopes.Theme.Trie
import Mathlib.Data.List.Infix

/-!
# Inserting into the tree of theme rules

Looking up a name leads to the deepest node on the way of its parts. A style that is inserted for a
leading part of the name is put at that node, provided that the tree has no deeper node on the way
already; a new node starts with the rules of the node above it, so it makes no difference whether
the node was there before. A style that is inserted elsewhere does not change what is found.

**Main definitions.** `Trie.reach`, `Trie.leaf`, `Trie.Has`.

**Main statements.** `leaf_reach_insert_of_isPrefix`, `leaf_reach_insert_of_not_isPrefix`: what is
found after an insertion. `has_insert`: the nodes after an insertion.
-/

namespace LineScopes
namespace Trie

section Children

variable {key k : String} {child : Trie} {children : List (String × Trie)}

theorem lookup_setChild_self :
    (setChild key child children).lookup key = some child := by
  induction children with
  | nil =>
      simp [setChild]
  | cons entry rest ih =>
      obtain ⟨k, old⟩ := entry
      by_cases hk : k = key
      · simp [setChild, hk]
      · have hbeq : (key == k) = false := beq_eq_false_iff_ne.mpr (Ne.symm hk)
        rw [setChild, if_neg hk, List.lookup_cons, hbeq]
        exact ih

theorem lookup_setChild_of_ne
    (h : k ≠ key) :
    (setChild key child children).lookup k = children.lookup k := by
  have hbeq : (k == key) = false := beq_eq_false_iff_ne.mpr h
  induction children with
  | nil =>
      rw [setChild, List.lookup_cons, hbeq]
  | cons entry rest ih =>
      obtain ⟨k', old⟩ := entry
      by_cases hk : k' = key
      · subst hk
        rw [setChild, if_pos rfl, List.lookup_cons, List.lookup_cons, hbeq]
      · rw [setChild, if_neg hk, List.lookup_cons, List.lookup_cons, ih]

end Children

/-- The deepest node on the way of the dotted parts. -/
def reach : Trie → List String → Trie
  | t, [] => t
  | t, part :: rest =>
    match t.children.lookup part with
    | some child => child.reach rest
    | none => t

/-- Whether there is a node at the end of the way of the dotted parts. -/
def Has : Trie → List String → Prop
  | _, [] => True
  | t, part :: rest => ∃ child, t.children.lookup part = some child ∧ child.Has rest

/-- The rules of a node, as a tree of their own. -/
def leaf (t : Trie) : Trie :=
  .node t.main t.qualified []

theorem find_eq
    (t : Trie)
    (parts : List String) :
    t.find parts = (t.reach parts).rulesHere := by
  induction parts generalizing t with
  | nil =>
      rfl
  | cons part rest ih =>
      unfold find reach
      cases t.children.lookup part with
      | none =>
          rfl
      | some child =>
          exact ih child

@[simp] theorem rulesHere_leaf (t : Trie) :
    t.leaf.rulesHere = t.rulesHere := by
  rfl

section Insert

variable {t : Trie} {parents : Option (List String)} {style : TrieStyle}

theorem leaf_insertHere
    (t : Trie)
    (depth : Nat)
    (parents : Option (List String))
    (style : TrieStyle) :
    (t.insertHere depth parents style).leaf = t.leaf.insertHere depth parents style := by
  unfold insertHere
  cases parents with
  | none =>
      rfl
  | some names =>
      dsimp only [leaf, qualified]
      split <;> rfl

theorem children_insertHere
    (t : Trie)
    (depth : Nat)
    (parents : Option (List String))
    (style : TrieStyle) :
    (t.insertHere depth parents style).children = t.children := by
  unfold insertHere
  cases parents with
  | none =>
      rfl
  | some names =>
      dsimp only
      split <;> rfl

/-- The child of a node with a name, or the one that is made for it, is found like the node. -/
theorem leaf_reach_childOrNew
    (t : Trie)
    (part : String)
    (rest : List String) :
    ((t.childOrNew part).reach rest).leaf = (t.reach (part :: rest)).leaf := by
  unfold childOrNew
  rw [reach]
  cases t.children.lookup part with
  | some child =>
      rfl
  | none =>
      cases rest <;> rfl

theorem has_childOrNew
    {part next : String}
    {rest : List String}
    (h : (t.childOrNew part).Has (next :: rest)) :
    t.Has (part :: next :: rest) := by
  unfold childOrNew at h
  cases hchild : t.children.lookup part with
  | some child =>
      rw [hchild] at h
      exact ⟨child, hchild, h⟩
  | none =>
      rw [hchild] at h
      obtain ⟨child, hlookup, -⟩ := h
      cases hlookup

theorem reach_insert_cons
    (depth : Nat)
    (part : String)
    (rest others : List String) :
    (t.insert depth (part :: rest) parents style).reach (part :: others) =
      ((t.childOrNew part).insert (depth + 1) rest parents style).reach others := by
  rw [insert, reach]
  dsimp only [children]
  rw [lookup_setChild_self]

theorem leaf_reach_insert_of_ne
    (depth : Nat)
    {part other : String}
    (h : other ≠ part)
    (rest others : List String) :
    ((t.insert depth (part :: rest) parents style).reach (other :: others)).leaf =
      (t.reach (other :: others)).leaf := by
  rw [insert, reach, reach]
  dsimp only [children]
  rw [lookup_setChild_of_ne h]
  split <;> rfl

/-- A style for a leading part of a name is put at the node that is found, unless there is a deeper
node on the way already. -/
theorem leaf_reach_insert_of_isPrefix
    {parts : List String}
    (h : ∀ next, ¬ t.Has (parts ++ [next]))
    (rest : List String)
    (depth : Nat)
    (parents : Option (List String))
    (style : TrieStyle) :
    ((t.insert depth parts parents style).reach (parts ++ rest)).leaf =
      (t.reach (parts ++ rest)).leaf.insertHere (depth + parts.length) parents style := by
  induction parts generalizing t depth with
  | nil =>
      have hnone : ∀ next, t.children.lookup next = none := by
        intro next
        by_contra hsome
        obtain ⟨child, hchild⟩ := Option.ne_none_iff_exists'.mp hsome
        exact h next ⟨child, hchild, trivial⟩
      have hreach : ∀ u : Trie, u.children = t.children → u.reach rest = u := by
        intro u hu
        cases rest with
        | nil =>
            rfl
        | cons next rest =>
            rw [reach, hu, hnone next]
      rw [List.nil_append, insert, hreach _ (children_insertHere _ _ _ _), hreach t rfl,
        leaf_insertHere]
      rfl
  | cons part parts ih =>
      have hchild : ∀ next, ¬ (t.childOrNew part).Has (parts ++ [next]) := by
        intro next hhas
        refine h next ?_
        cases parts with
        | nil =>
            exact has_childOrNew hhas
        | cons part' parts =>
            exact has_childOrNew hhas
      rw [List.cons_append, reach_insert_cons, ih hchild, leaf_reach_childOrNew,
        List.length_cons, Nat.add_assoc, Nat.add_comm 1]

/-- A style for anything else does not change what is found. -/
theorem leaf_reach_insert_of_not_isPrefix
    (t : Trie)
    {parts others : List String}
    (h : ¬ parts <+: others)
    (depth : Nat)
    (parents : Option (List String))
    (style : TrieStyle) :
    ((t.insert depth parts parents style).reach others).leaf = (t.reach others).leaf := by
  induction parts generalizing t depth others with
  | nil =>
      exact absurd List.nil_prefix h
  | cons part parts ih =>
      cases others with
      | nil =>
          rw [insert]
          rfl
      | cons other others =>
          by_cases hpart : other = part
          · subst hpart
            have hrest : ¬ parts <+: others := by
              rintro ⟨rest, rfl⟩
              exact h ⟨rest, rfl⟩
            rw [reach_insert_cons, ih _ hrest, leaf_reach_childOrNew]
          · exact leaf_reach_insert_of_ne depth hpart parts others

/-- The nodes of a tree are those that were there before, and those on the way of the inserted
parts. -/
theorem has_insert
    {parts others : List String}
    {depth : Nat}
    (h : (t.insert depth parts parents style).Has others) :
    t.Has others ∨ others <+: parts := by
  induction parts generalizing t depth others with
  | nil =>
      left
      cases others with
      | nil =>
          trivial
      | cons other others =>
          obtain ⟨child, hchild, hrest⟩ := h
          rw [insert, children_insertHere] at hchild
          exact ⟨child, hchild, hrest⟩
  | cons part parts ih =>
      cases others with
      | nil =>
          exact .inl trivial
      | cons other others =>
          obtain ⟨child, hchild, hrest⟩ := h
          rw [insert] at hchild
          dsimp only [children] at hchild
          by_cases hpart : other = part
          · subst hpart
            rw [lookup_setChild_self] at hchild
            obtain rfl := Option.some.inj hchild
            rcases ih hrest with hold | hprefix
            · cases others with
              | nil =>
                  exact .inr ⟨parts, rfl⟩
              | cons next others =>
                  exact .inl (has_childOrNew hold)
            · exact .inr (List.cons_prefix_cons.mpr ⟨rfl, hprefix⟩)
          · rw [lookup_setChild_of_ne hpart] at hchild
            exact .inl ⟨child, hchild, hrest⟩

end Insert

end Trie
end LineScopes
