import LineScopes.Proofs.Outcome
import LineScopes.Proofs.Scope.Parts
import LineScopes.Proofs.Style.ColorMap
import LineScopes.Proofs.Theme.Decision
import LineScopes.Proofs.Theme.Order
import LineScopes.Proofs.Theme.Trie

/-!
# Looking up a scope path

The style of a path is that of one group of the rules that apply to its innermost name: of the groups
whose parents occur along the outer scopes, the one for the longest scope, or of several such the one
with the longest parent names.

**Main definitions.** `ThemeRule.applicable`, `Theme.defaultStyle`.

**Main statements.** `leaf_reach_foldl`: what the tree of sorted rules holds for a name.
`exists_steps_of_ofRules`: the steps of building a theme. `exists_ofRules`: a theme that can always be
built. `styleOf_eq_declared`: the style of a path.
-/

namespace LineScopes

namespace ThemeRule

/-- The rules that apply to a name, in order. -/
def applicable
    (rules : List ThemeRule)
    (name : String) : List ThemeRule :=
  (sort rules).filter fun r => r.scope ≠ "" && Scope.covers r.scope name

section Tree

variable (number : String → Nat)

/-- Inserts the style of a rule. -/
def insertInto
    (t : Trie)
    (r : ThemeRule) : Trie :=
  t.insert 0 (Scope.dottedParts r.scope) r.parents (style number r)

variable {number} {rules : List ThemeRule}

/-- Every node of the tree is on the way of a rule. -/
theorem has_foldl
    {parts : List String}
    (h : (rules.foldl (insertInto number) .empty).Has parts) :
    parts = [] ∨ ∃ r ∈ rules, parts <+: Scope.dottedParts r.scope := by
  induction rules using List.reverseRecOn with
  | nil =>
      cases parts with
      | nil =>
          exact .inl rfl
      | cons part parts =>
          obtain ⟨child, hchild, -⟩ := h
          cases hchild
  | append_singleton rules r ih =>
      rw [List.foldl_append] at h
      rcases Trie.has_insert h with hold | hnew
      · rcases ih hold with hnil | ⟨q, hq, hprefix⟩
        · exact .inl hnil
        · exact .inr ⟨q, List.mem_append_left _ hq, hprefix⟩
      · exact .inr ⟨r, List.mem_append_right _ List.mem_cons_self, hnew⟩

/-- A rule whose node is below that of another one comes later in the order. -/
theorem not_has_foldl
    (number : String → Nat)
    {r : ThemeRule}
    (hlast : ∀ q ∈ rules, Precedes q r)
    (hne : r.scope ≠ "")
    (hdot : ¬ Scope.EndsInDot r.scope)
    (next : String) :
    ¬ (rules.foldl (insertInto number) .empty).Has (Scope.dottedParts r.scope ++ [next]) := by
  intro hhas
  rcases has_foldl hhas with hnil | ⟨q, hq, hprefix⟩
  · simp at hnil
  · have hinside : Scope.covers r.scope q.scope = true :=
      (Scope.covers_iff_parts_isPrefix hne hdot).mpr ((List.prefix_append _ _).trans hprefix)
    refine (hlast q hq).scope (Scope.lt_of_isPrefix (Scope.isPrefix_of_covers hinside) ?_)
    intro heq
    have hlength := hprefix.length_le
    rw [heq] at hlength
    simp at hlength

/-- The tree of sorted rules holds for a name what the rules that cover it say, one after the
other. -/
theorem leaf_reach_foldl
    (number : String → Nat)
    (hsorted : rules.Pairwise Precedes)
    (hscopes : ∀ r ∈ rules, r.scope ≠ "" ∧ ¬ Scope.EndsInDot r.scope)
    (name : String) :
    ((rules.foldl (insertInto number) .empty).reach (Scope.dottedParts name)).leaf =
      (rules.filter fun r => Scope.covers r.scope name).foldl
        (fun t r => t.insertHere r.depth r.parents (style number r)) .empty := by
  induction rules using List.reverseRecOn with
  | nil =>
      cases Scope.dottedParts name <;> rfl
  | append_singleton rules r ih =>
      obtain ⟨hsorted', -, hlast⟩ := List.pairwise_append.mp hsorted
      have hrest := ih hsorted' fun q hq => hscopes q (List.mem_append_left _ hq)
      obtain ⟨hne, hdot⟩ := hscopes r (List.mem_append_right _ List.mem_cons_self)
      rw [List.foldl_append, List.filter_append, List.foldl_append, ← hrest]
      by_cases hcovers : Scope.covers r.scope name = true
      · obtain ⟨others, hothers⟩ := (Scope.covers_iff_parts_isPrefix hne hdot).mp hcovers
        have hdeepest := not_has_foldl number (fun q hq => hlast q hq r List.mem_cons_self) hne hdot
        have hinsert := Trie.leaf_reach_insert_of_isPrefix hdeepest others 0 r.parents
          (style number r)
        rw [hothers, Nat.zero_add] at hinsert
        simp only [List.filter_cons, hcovers]
        exact hinsert
      · have hnot : ¬ Scope.dottedParts r.scope <+: Scope.dottedParts name := fun hprefix =>
          hcovers ((Scope.covers_iff_parts_isPrefix hne hdot).mpr hprefix)
        have hinsert := Trie.leaf_reach_insert_of_not_isPrefix
          (rules.foldl (insertInto number) .empty) hnot 0 r.parents (style number r)
        rw [Bool.not_eq_true] at hcovers
        simp only [List.filter_cons, hcovers]
        exact hinsert

end Tree

/-- The rules that cover a name are in order. -/
theorem ordered_filter
    {rules : List ThemeRule}
    (hsorted : rules.Pairwise Precedes)
    (name : String) :
    Ordered (rules.filter fun r => Scope.covers r.scope name) := by
  have hfiltered := hsorted.filter fun r => Scope.covers r.scope name
  refine hfiltered.imp_of_mem fun {a b} ha hb hprecedes => ?_
  have hcoversA := (List.mem_filter.mp ha).2
  have hcoversB := (List.mem_filter.mp hb).2
  have hle := Scope.length_le_of_covers hcoversA hcoversB hprecedes.scope
  refine ⟨hle, fun hqualified hnone => lt_of_le_of_ne hle fun heq => ?_⟩
  exact hqualified (hprecedes.parents (Scope.eq_of_covers hcoversA hcoversB heq) hnone)

/-- What a group says is what one of the rules says. -/
theorem exists_of_declared
    {α : Type}
    {field : ThemeRule → Option α}
    {rules : List ThemeRule}
    {parents : Option (List String)}
    {a : α}
    (h : declared field rules parents = some a) :
    ∃ r ∈ rules, field r = some a := by
  have hlast : ∀ {qs : List ThemeRule}, lastSet field qs = some a → ∃ r ∈ qs, field r = some a :=
    fun hset => List.mem_filterMap.mp (List.mem_of_getLast? hset)
  rcases Option.or_eq_some_iff.mp (Option.or_eq_orElse.trans h) with hset | ⟨-, hset⟩
  · obtain ⟨r, hr, hfield⟩ := hlast hset
    exact ⟨r, (mem_group.mp hr).1, hfield⟩
  · obtain ⟨r, hr, hfield⟩ := hlast hset
    exact ⟨r, (mem_group.mp (List.mem_filter.mp hr).1).1, hfield⟩

/-- The styles of the groups, in order. -/
theorem find_foldl
    {number : String → Nat}
    {rules : List ThemeRule}
    (hsorted : rules.Pairwise Precedes)
    (hscopes : ∀ r ∈ rules, r.scope ≠ "" ∧ ¬ Scope.EndsInDot r.scope)
    (hnumbers : ∀ r ∈ rules, r.Numbered number)
    (name : String) :
    (rules.foldl (insertInto number) .empty).find (Scope.dottedParts name) =
      TrieRule.sort ((groups (rules.filter fun r => Scope.covers r.scope name)).map
        (groupRule number (rules.filter fun r => Scope.covers r.scope name))) := by
  have hleaf := leaf_reach_foldl number hsorted hscopes name
  rw [foldl_insertHere (ordered_filter hsorted name)
    fun r hr => hnumbers r (List.mem_filter.mp hr).1] at hleaf
  rw [Trie.find_eq, ← Trie.rulesHere_leaf, hleaf]
  simp [Trie.rulesHere, described, groups, Trie.main, Trie.qualified, Function.comp_def]

end ThemeRule

namespace Theme

open ThemeRule

/-- A color that a rule sets is known under its number from then on. -/
theorem colorNumber_of_id?
    {m m' final : ColorMap}
    {color : Option String}
    {n : Nat}
    (h : m.id? color = .ok (n, m'))
    (hgrows : m'.Grows final) :
    colorNumber final.number color = n ∧ ∀ c, color = some c → final.Knows c n := by
  cases color with
  | none =>
      simp only [ColorMap.id?, Except.ok.injEq, Prod.mk.injEq] at h
      exact ⟨h.1, by simp⟩
  | some c =>
      have hknows := hgrows c n (ColorMap.knows_of_id h)
      refine ⟨hknows.number_eq, fun c' hc' => ?_⟩
      obtain rfl : c = c' := Option.some.inj hc'
      exact hknows

/-- A color has a number if it is set. -/
def Known
    (colors : ColorMap)
    (color : Option String) : Prop :=
  ∀ c, color = some c → ∃ n, colors.Knows c n

theorem Known.number_ne_zero
    {colors : ColorMap}
    {color : Option String}
    (h : Known colors color) :
    ∀ c, color = some c → colors.number c ≠ 0 := by
  intro c hc
  obtain ⟨n, hknows⟩ := h c hc
  exact hknows.number_eq ▸ hknows.2

/-- Rules are inserted with the numbers of their colors, which are known in the end. -/
theorem foldlM_insertRule
    {rules : List ThemeRule}
    {start : ColorMap × Trie}
    {colors : ColorMap}
    {root : Trie}
    (h : rules.foldlM insertRule start = .ok (colors, root)) :
    start.1.Grows colors ∧
      (∀ r ∈ rules, Known colors r.foreground ∧ Known colors r.background) ∧
      root = rules.foldl (insertInto colors.number) start.2 := by
  induction rules generalizing start with
  | nil =>
      obtain rfl : start = (colors, root) := Except.ok.inj h
      exact ⟨fun _ _ hknows => hknows, by simp, rfl⟩
  | cons r rules ih =>
      rw [List.foldlM_cons] at h
      obtain ⟨next, hinsert, h⟩ := exists_of_bind_eq_ok h
      obtain ⟨⟨foreground, between⟩, hforeground, hinsert⟩ := exists_of_bind_eq_ok hinsert
      obtain ⟨⟨background, after⟩, hbackground, hinsert⟩ := exists_of_bind_eq_ok hinsert
      obtain rfl := Except.ok.inj hinsert
      obtain ⟨hgrows, hknown, rfl⟩ := ih h
      have hbetween : between.Grows colors := fun c n hknows =>
        hgrows c n (ColorMap.grows_of_id? hbackground c n hknows)
      obtain ⟨hfirst, hforeground'⟩ := colorNumber_of_id? hforeground hbetween
      obtain ⟨hsecond, hbackground'⟩ := colorNumber_of_id? hbackground hgrows
      refine ⟨fun c n hknows => hbetween c n (ColorMap.grows_of_id? hforeground c n hknows), ?_, ?_⟩
      · intro q hq
        rcases List.mem_cons.mp hq with rfl | hq
        · exact ⟨fun c hc => ⟨_, hforeground' c hc⟩, fun c hc => ⟨_, hbackground' c hc⟩⟩
        · exact hknown q hq
      · rw [List.foldl_cons, insertInto, style, hfirst, hsecond]

/-- The rules of sorted ones that are not for the empty scope come behind all others. -/
theorem dropWhile_eq_filter
    {rules : List ThemeRule}
    (hsorted : rules.Pairwise Precedes) :
    rules.dropWhile (fun r => r.scope == "") = rules.filter fun r => r.scope ≠ "" := by
  induction rules with
  | nil =>
      rfl
  | cons r rules ih =>
      obtain ⟨hfirst, hrest⟩ := List.pairwise_cons.mp hsorted
      by_cases hr : r.scope = ""
      · simp [hr, ih hrest]
      · have hall : ∀ q ∈ r :: rules, decide (q.scope ≠ "") = true := by
          intro q hq
          rcases List.mem_cons.mp hq with rfl | hq
          · simpa using hr
          · have hle := (hfirst q hq).scope
            refine decide_eq_true fun hempty => hle ?_
            rw [hempty]
            exact Scope.lt_of_isPrefix List.nil_prefix (Ne.symm hr)
        rw [List.filter_eq_self.mpr hall]
        simp [hr]

/-- The rules of sorted ones that are for the empty scope come before all others. -/
theorem takeWhile_eq_filter
    {rules : List ThemeRule}
    (hsorted : rules.Pairwise Precedes) :
    rules.takeWhile (fun r => r.scope == "") = rules.filter fun r => r.scope == "" := by
  have hfirst : (rules.takeWhile fun r => r.scope == "").filter (fun r => r.scope == "") =
      rules.takeWhile fun r => r.scope == "" :=
    List.filter_eq_self.mpr (List.all_eq_true.mp List.all_takeWhile)
  have hrest : (rules.dropWhile fun r => r.scope == "").filter (fun r => r.scope == "") = [] := by
    rw [dropWhile_eq_filter hsorted, List.filter_filter]
    exact List.filter_eq_nil_iff.mpr fun r _ => by simp
  calc rules.takeWhile (fun r => r.scope == "")
      = (rules.takeWhile (fun r => r.scope == "") ++
          rules.dropWhile fun r => r.scope == "").filter fun r => r.scope == "" := by
        rw [List.filter_append, hfirst, hrest, List.append_nil]
    _ = rules.filter fun r => r.scope == "" := by
        rw [List.takeWhile_append_dropWhile]

/-- Rules can always be inserted while colors are numbered as they are met. -/
theorem exists_foldlM_insertRule
    (rules : List ThemeRule)
    (seen : List String)
    (t : Trie) :
    ∃ final, rules.foldlM insertRule (.growing seen, t) = .ok final := by
  induction rules generalizing seen t with
  | nil =>
      exact ⟨_, rfl⟩
  | cons r rules ih =>
      obtain ⟨foreground, between, hforeground⟩ := ColorMap.exists_growing_id? seen r.foreground
      obtain ⟨background, after, hbackground⟩ := ColorMap.exists_growing_id? between r.background
      have hinsert : insertRule (.growing seen, t) r = .ok (.growing after,
          t.insert 0 (Scope.dottedParts r.scope) r.parents ⟨r.font, foreground, background⟩) := by
        simp only [insertRule, hforeground, hbackground, bind, Except.bind]
        rfl
      obtain ⟨final, hrest⟩ := ih after
        (t.insert 0 (Scope.dottedParts r.scope) r.parents ⟨r.font, foreground, background⟩)
      refine ⟨final, ?_⟩
      rw [List.foldlM_cons, hinsert]
      exact hrest

/-- The color map that the colors of a theme are looked up in at first. -/
def startMap : Option (List String) → ColorMap
  | some colors => .fixed colors
  | none => .empty

/-- The default style of sorted rules. -/
def defaultStyle (rules : List ThemeRule) : DefaultStyle :=
  (rules.takeWhile fun r => r.scope == "").foldl DefaultStyle.overwrite {}

/-- The default colors are numbered first, then those of the rules in order. -/
theorem exists_steps_of_ofRules
    {rules : List ThemeRule}
    {colorMap : Option (List String)}
    {theme : Theme}
    (h : ofRules rules colorMap = .ok theme) :
    ∃ first second,
      (startMap colorMap).id (defaultStyle (sort rules)).foreground =
        .ok (theme.defaults.foreground, first) ∧
      first.id (defaultStyle (sort rules)).background =
        .ok (theme.defaults.background, second) ∧
      ((sort rules).dropWhile fun r => r.scope == "").foldlM insertRule (second, .empty) =
        .ok (theme.colors, theme.root) ∧
      theme.defaults.font = some (defaultStyle (sort rules)).font := by
  obtain ⟨⟨foreground, first⟩, hforeground, h⟩ := exists_of_bind_eq_ok h
  obtain ⟨⟨background, second⟩, hbackground, h⟩ := exists_of_bind_eq_ok h
  obtain ⟨⟨colors, root⟩, hfold, h⟩ := exists_of_bind_eq_ok h
  obtain rfl := Except.ok.inj h
  exact ⟨first, second, hforeground, hbackground, hfold, rfl⟩

/-- A theme is what these steps give. -/
theorem ofRules_eq_of_steps
    {rules : List ThemeRule}
    {colorMap : Option (List String)}
    {theme : Theme}
    {first second : ColorMap}
    (hforeground : (startMap colorMap).id (defaultStyle (sort rules)).foreground =
      .ok (theme.defaults.foreground, first))
    (hbackground : first.id (defaultStyle (sort rules)).background =
      .ok (theme.defaults.background, second))
    (hfold : ((sort rules).dropWhile fun r => r.scope == "").foldlM insertRule (second, .empty) =
      .ok (theme.colors, theme.root))
    (hfont : theme.defaults.font = some (defaultStyle (sort rules)).font) :
    ofRules rules colorMap = .ok theme := by
  obtain ⟨colors, ⟨font, foreground, background⟩, root⟩ := theme
  obtain rfl := hfont
  unfold ofRules
  change ((startMap colorMap).id (defaultStyle (sort rules)).foreground).bind _ = _
  rw [hforeground]
  change (first.id (defaultStyle (sort rules)).background).bind _ = _
  rw [hbackground]
  change (List.foldlM insertRule _ _).bind _ = _
  rw [hfold]
  rfl

/-- Without a color map of its own, a theme can be built of any rules. -/
theorem exists_ofRules
    (rules : List ThemeRule) :
    ∃ theme, ofRules rules none = .ok theme := by
  obtain ⟨foreground, between, hforeground⟩ :=
    ColorMap.exists_growing_id? [] (some (defaultStyle (sort rules)).foreground)
  obtain ⟨background, after, hbackground⟩ :=
    ColorMap.exists_growing_id? between (some (defaultStyle (sort rules)).background)
  obtain ⟨⟨colors, root⟩, hfold⟩ :=
    exists_foldlM_insertRule ((sort rules).dropWhile fun r => r.scope == "") after .empty
  exact ⟨⟨colors, ⟨some (defaultStyle (sort rules)).font, foreground, background⟩, root⟩,
    ofRules_eq_of_steps hforeground hbackground hfold rfl⟩

/-- A theme holds the rules that are not for the empty scope, in order. -/
theorem ofRules_eq_ok
    {rules : List ThemeRule}
    {colorMap : Option (List String)}
    {theme : Theme}
    (h : ofRules rules colorMap = .ok theme) :
    let kept := (sort rules).filter fun r => r.scope ≠ ""
    (∀ r ∈ kept, Known theme.colors r.foreground ∧ Known theme.colors r.background) ∧
      theme.root = kept.foldl (insertInto theme.colors.number) .empty := by
  obtain ⟨first, second, -, -, hfold, -⟩ := exists_steps_of_ofRules h
  rw [dropWhile_eq_filter (pairwise_sort rules)] at hfold
  exact (foldlM_insertRule hfold).2

/-- The number of a known color, or of none, is found in the theme. -/
theorem id?_colorNumber
    {colors : ColorMap}
    {color : Option String}
    (h : Known colors color) :
    colors.id? color = .ok (colorNumber colors.number color, colors) := by
  cases color with
  | none =>
      rfl
  | some c =>
      obtain ⟨n, hknows⟩ := h c rfl
      rw [colorNumber, Option.map_some, hknows.number_eq]
      exact hknows.1

/-- The rules that are not for the empty scope, in order. -/
theorem applicable_eq
    (rules : List ThemeRule)
    (name : String) :
    applicable rules name =
      ((sort rules).filter fun r => r.scope ≠ "").filter fun r => Scope.covers r.scope name := by
  rw [List.filter_filter]
  exact List.filter_congr fun r _ => Bool.and_comm _ _

/-- Without a color map of its own a theme can always be built. In every theme that is built, the style
of a path is what the group says that decides about its innermost name. -/
theorem styleOf_eq_declared
    {rules : List ThemeRule}
    (hdots : ∀ r ∈ rules, ¬ Scope.EndsInDot r.scope)
    (hmarks : NoMarks rules)
    {path : ScopePath}
    {name : String}
    {outer : List String}
    (hpath : path.inward = name :: outer) :
    (∃ theme, ofRules rules none = .ok theme) ∧
      ∀ {colorMap theme}, ofRules rules colorMap = .ok theme →
        ∃ parents style,
          Decides (applicable rules name) outer parents ∧
          theme.styleOf path = some style ∧
          style.font = declared font (applicable rules name) parents ∧
          theme.colors.id? (declared foreground (applicable rules name) parents) =
            .ok (style.foreground, theme.colors) ∧
          theme.colors.id? (declared background (applicable rules name) parents) =
            .ok (style.background, theme.colors) := by
  refine ⟨exists_ofRules rules, fun {colorMap theme} h => ?_⟩
  obtain ⟨hknown, hroot⟩ := ofRules_eq_ok h
  have hrules : ∀ r ∈ (sort rules).filter fun r => r.scope ≠ "", r ∈ rules ∧ r.scope ≠ "" := by
    intro r hr
    obtain ⟨hmem, hne⟩ := List.mem_filter.mp hr
    exact ⟨List.mem_mergeSort.mp hmem, by simpa using hne⟩
  have hfound : ∀ r ∈ applicable rules name,
      r ∈ (sort rules).filter fun r => r.scope ≠ "" := fun r hr =>
    (List.mem_filter.mp (applicable_eq rules name ▸ hr)).1
  have hnumbers : ∀ r ∈ (sort rules).filter fun r => r.scope ≠ "",
      r.Numbered theme.colors.number := fun r hr =>
    ⟨(hknown r hr).1.number_ne_zero, (hknown r hr).2.number_ne_zero⟩
  have hfind := find_foldl ((pairwise_sort rules).filter fun r => r.scope ≠ "")
    (fun r hr => ⟨(hrules r hr).2, hdots r (hrules r hr).1⟩) hnumbers name
  rw [← applicable_eq, ← hroot] at hfind
  obtain ⟨parents, hdecides, hfirst⟩ := exists_decides theme.colors.number
    (fun r hr => hmarks r (hrules r (hfound r hr)).1) outer
  have hstyle : theme.styleOf path = some ⟨declared font (applicable rules name) parents,
      colorNumber theme.colors.number (declared foreground (applicable rules name) parents),
      colorNumber theme.colors.number (declared background (applicable rules name) parents)⟩ := by
    unfold styleOf
    rw [hpath]
    dsimp only
    rw [hfind, hfirst]
    rfl
  refine ⟨parents, _, hdecides, hstyle, rfl, id?_colorNumber ?_, id?_colorNumber ?_⟩
  · intro c hc
    obtain ⟨r, hr, hforeground⟩ := exists_of_declared hc
    exact (hknown r (hfound r hr)).1 c hforeground
  · intro c hc
    obtain ⟨r, hr, hbackground⟩ := exists_of_declared hc
    exact (hknown r (hfound r hr)).2 c hbackground

/-- Rules for strings, some of them inside tags. -/
def strings : List ThemeRule := [
  ⟨"string", none, 0, some .bold, some "#ff0000", none⟩,
  ⟨"string.quoted", some ["meta.tag"], 3, none, some "#00ff00", none⟩,
  ⟨"string.quoted.double", none, 1, none, none, some "#0000ff"⟩,
  ⟨"string.quoted.double", some ["meta.tag"], 2, none, none, some "#ffff00"⟩]

/-- A string inside a tag: its font is that of all strings, its foreground that of any quoted string
in a tag. -/
theorem styleOf_eq_declared_strings :
    ∃ theme, ofRules strings none = .ok theme ∧
      (∀ r ∈ strings, ¬ Scope.EndsInDot r.scope) ∧ NoMarks strings ∧
      theme.styleOf ⟨["string.quoted.double", "meta.tag.open", "text"]⟩ =
        some ⟨some .bold, 4, 6⟩ ∧
      ∃ parents style,
        Decides (applicable strings "string.quoted.double") ["meta.tag.open", "text"] parents ∧
        theme.styleOf ⟨["string.quoted.double", "meta.tag.open", "text"]⟩ = some style ∧
        style.font = declared font (applicable strings "string.quoted.double") parents ∧
        theme.colors.id? (declared foreground (applicable strings "string.quoted.double") parents) =
          .ok (style.foreground, theme.colors) ∧
        theme.colors.id? (declared background (applicable strings "string.quoted.double") parents) =
          .ok (style.background, theme.colors) := by
  have hstyle : (ofRules strings none).map (fun theme =>
      theme.styleOf ⟨["string.quoted.double", "meta.tag.open", "text"]⟩) =
      .ok (some ⟨some .bold, 4, 6⟩) := by
    have hsorted : sort strings = strings := List.mergeSort_of_pairwise (by decide +kernel)
    rw [ofRules, hsorted]
    decide +kernel
  have hdots : ∀ r ∈ strings, ¬ Scope.EndsInDot r.scope := by
    decide +kernel
  have hmarks : NoMarks strings := by
    intro r hr names hnames
    have hmarks : ∀ r ∈ strings, ">" ∉ r.parents.getD [] := by
      decide +kernel
    simpa [hnames] using hmarks r hr
  obtain ⟨theme, htheme, hfound⟩ := exists_of_map_eq_ok hstyle
  exact ⟨theme, htheme, hdots, hmarks, hfound, (styleOf_eq_declared hdots hmarks rfl).2 htheme⟩

end Theme

end LineScopes
