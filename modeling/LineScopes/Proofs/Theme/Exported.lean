import LineScopes.Proofs.Style.Exported
import LineScopes.Proofs.Theme.Lookup

/-!
# Building a theme again with its colors

A theme is the same in everything but its color map if it is built of the same rules over a fixed map
in which its colors have their numbers. The colors of a document are hexadecimal numbers, which stay
as they are in uppercase, so the colors of its theme make up such a map.

**Main statements.** `ofRules_of_grows`: the theme over another map. `isSettled_ofRules`: the colors of
a theme. `ofDocument_colors`: a document with the colors of its theme.
-/

namespace LineScopes
namespace Theme

open ThemeRule

section Again

variable {colors again : ColorMap}

theorem Known.of_grows
    {color : Option String}
    (h : Known colors color)
    (hgrows : colors.Grows again) :
    Known again color ∧ colorNumber again.number color = colorNumber colors.number color := by
  cases color with
  | none =>
      exact ⟨by simp [Known], rfl⟩
  | some c =>
      obtain ⟨n, hknows⟩ := h c rfl
      have hagain := hgrows c n hknows
      refine ⟨fun c' hc' => ⟨n, Option.some.inj hc' ▸ hagain⟩, ?_⟩
      simp [colorNumber, hknows.number_eq, hagain.number_eq]

/-- Rules whose colors are known are inserted without changing the color map. -/
theorem foldlM_insertRule_of_known
    {rules : List ThemeRule}
    (h : ∀ r ∈ rules, Known colors r.foreground ∧ Known colors r.background)
    (t : Trie) :
    rules.foldlM insertRule (colors, t) =
      .ok (colors, rules.foldl (insertInto colors.number) t) := by
  induction rules generalizing t with
  | nil =>
      rfl
  | cons r rules ih =>
      obtain ⟨hforeground, hbackground⟩ := h r List.mem_cons_self
      have hinsert : insertRule (colors, t) r = .ok (colors, insertInto colors.number t r) := by
        simp only [insertRule, id?_colorNumber hforeground, id?_colorNumber hbackground, bind,
          Except.bind]
        rfl
      rw [List.foldlM_cons, hinsert]
      exact ih (fun q hq => h q (List.mem_cons_of_mem r hq)) _

/-- Rules are inserted in the same way where their colors have the same numbers. -/
theorem foldl_insertInto_of_grows
    {rules : List ThemeRule}
    (h : ∀ r ∈ rules, Known colors r.foreground ∧ Known colors r.background)
    (hgrows : colors.Grows again)
    (t : Trie) :
    rules.foldl (insertInto again.number) t = rules.foldl (insertInto colors.number) t := by
  refine List.foldl_ext _ _ t fun t r hr => ?_
  obtain ⟨hforeground, hbackground⟩ := h r hr
  rw [insertInto, insertInto, style, style, (hforeground.of_grows hgrows).2,
    (hbackground.of_grows hgrows).2]

/-- A theme is built again over fixed colors that have the numbers it gave them. -/
theorem ofRules_of_grows
    {rules : List ThemeRule}
    {colorMap : Option (List String)}
    {theme : Theme}
    {fixed : List String}
    (h : ofRules rules colorMap = .ok theme)
    (hgrows : theme.colors.Grows (.fixed fixed)) :
    ofRules rules (some fixed) = .ok { theme with colors := .fixed fixed } := by
  obtain ⟨first, second, hforeground, hbackground, hfold, hfont⟩ := exists_steps_of_ofRules h
  obtain ⟨hlater, hknown, hroot⟩ := foldlM_insertRule hfold
  have hforeground' := hgrows _ _
    (hlater _ _ ((ColorMap.knows_of_id hforeground).of_id hbackground))
  have hbackground' := hgrows _ _ (hlater _ _ (ColorMap.knows_of_id hbackground))
  have hfold' := foldlM_insertRule_of_known
    (fun r hr => ⟨((hknown r hr).1.of_grows hgrows).1, ((hknown r hr).2.of_grows hgrows).1⟩)
    Trie.empty
  rw [foldl_insertInto_of_grows hknown hgrows, ← hroot] at hfold'
  exact ofRules_eq_of_steps hforeground'.1 hbackground'.1 hfold' hfont

end Again

section Colors

/-- The colors that a rule sets are stable. -/
structure StableColors (r : ThemeRule) : Prop where
  foreground : ColorMap.Stable r.foreground
  background : ColorMap.Stable r.background

theorem isSettled_insertRule
    {state next : ColorMap × Trie}
    {r : ThemeRule}
    (h : state.1.IsSettled)
    (hr : StableColors r)
    (hinsert : insertRule state r = .ok next) :
    next.1.IsSettled := by
  obtain ⟨⟨foreground, between⟩, hforeground, hinsert⟩ := exists_of_bind_eq_ok hinsert
  obtain ⟨⟨background, after⟩, hbackground, hinsert⟩ := exists_of_bind_eq_ok hinsert
  obtain rfl := Except.ok.inj hinsert
  exact (h.of_id? hr.foreground hforeground).of_id? hr.background hbackground

theorem isSettled_foldlM_insertRule
    {rules : List ThemeRule}
    {state last : ColorMap × Trie}
    (h : state.1.IsSettled)
    (hrules : ∀ r ∈ rules, StableColors r)
    (hfold : rules.foldlM insertRule state = .ok last) :
    last.1.IsSettled := by
  induction rules generalizing state with
  | nil =>
      obtain rfl := Except.ok.inj hfold
      exact h
  | cons r rules ih =>
      rw [List.foldlM_cons] at hfold
      obtain ⟨next, hinsert, hfold⟩ := exists_of_bind_eq_ok hfold
      exact ih (isSettled_insertRule h (hrules r List.mem_cons_self) hinsert)
        (fun q hq => hrules q (List.mem_cons_of_mem r hq)) hfold

/-- The colors of a default style are stable. -/
structure StableDefaults (style : DefaultStyle) : Prop where
  foreground : ColorMap.Stable (some style.foreground)
  background : ColorMap.Stable (some style.background)

theorem StableDefaults.overwrite
    {style : DefaultStyle}
    {r : ThemeRule}
    (h : StableDefaults style)
    (hr : StableColors r) :
    StableDefaults (style.overwrite r) := by
  constructor
  · cases hset : r.foreground with
    | none =>
        simpa [DefaultStyle.overwrite, hset] using h.foreground
    | some c =>
        simpa [DefaultStyle.overwrite, hset] using hr.foreground
  · cases hset : r.background with
    | none =>
        simpa [DefaultStyle.overwrite, hset] using h.background
    | some c =>
        simpa [DefaultStyle.overwrite, hset] using hr.background

/-- The default colors are those of a rule, or black and white. -/
theorem stableDefaults_defaultStyle
    {rules : List ThemeRule}
    (hrules : ∀ r ∈ rules, StableColors r) :
    StableDefaults (defaultStyle rules) := by
  have hstart : StableDefaults {} := by
    constructor
    · rintro c ⟨⟩
      decide +kernel
    · rintro c ⟨⟩
      decide +kernel
  exact List.foldlRecOn (motive := StableDefaults) _ _ hstart fun style hstyle r hr =>
    hstyle.overwrite (hrules r ((List.takeWhile_sublist _).mem hr))

/-- A theme of rules with stable colors that are numbered as they are met has settled colors. -/
theorem isSettled_ofRules
    {rules : List ThemeRule}
    (hrules : ∀ r ∈ rules, StableColors r)
    {theme : Theme}
    (h : ofRules rules none = .ok theme) :
    theme.colors.IsSettled := by
  obtain ⟨first, second, hforeground, hbackground, hfold, -⟩ := exists_steps_of_ofRules h
  have hsorted : ∀ r ∈ sort rules, StableColors r := fun r hr =>
    hrules r (List.mem_mergeSort.mp hr)
  have hdefaults := stableDefaults_defaultStyle hsorted
  have hempty : ColorMap.empty.IsSettled := ⟨[], rfl, List.nodup_nil, by simp⟩
  exact isSettled_foldlM_insertRule
    ((hempty.of_id (hdefaults.foreground _ rfl) hforeground).of_id (hdefaults.background _ rfl)
      hbackground)
    (fun r hr => hsorted r ((List.dropWhile_sublist _).mem hr)) hfold

end Colors

section Documents

/-- Hexadecimal colors are ASCII texts. -/
theorem upper_upper_of_isHexColor
    {c : String}
    (h : isHexColor c = true) :
    Unicode.upper (Unicode.upper c) = Unicode.upper c := by
  refine Unicode.upper_upper fun d hd => ?_
  unfold isHexColor at h
  split at h
  · rename_i digits hchars
    rw [hchars] at hd
    simp only [Bool.and_eq_true, List.all_eq_true] at h
    rcases List.mem_cons.mp hd with rfl | hd
    · decide
    · exact Unicode.toNat_lt_of_isHexDigit (h.2 d hd)
  · cases h

/-- The colors of a document are hexadecimal. -/
theorem stableColors_rules
    {document : ThemeDocument}
    {r : ThemeRule}
    (hr : r ∈ document.rules) :
    StableColors r := by
  obtain ⟨rules, hrules, hr⟩ := List.mem_flatten.mp hr
  obtain ⟨index, hindex, rfl⟩ := List.mem_mapIdx.mp hrules
  unfold ThemeEntry.rules at hr
  split at hr
  · cases hr
  · obtain ⟨selector, -, rfl⟩ := List.mem_map.mp hr
    constructor
    · intro c hc
      exact upper_upper_of_isHexColor (Option.filter_eq_some_iff.mp hc).2
    · intro c hc
      exact upper_upper_of_isHexColor (Option.filter_eq_some_iff.mp hc).2

/-- The theme of a document can be built again over the list of its colors. The defaults, the colors
and the style of every path are the same. -/
theorem ofDocument_colors (document : Option ThemeDocument) :
    ∃ theme again,
      ofDocument document none = .ok theme ∧
      ofDocument document (some theme.colors.colors) = .ok again ∧
      again.defaults = theme.defaults ∧
      again.colors.colors = theme.colors.colors ∧
      ∀ path, again.styleOf path = theme.styleOf path := by
  obtain ⟨theme, htheme⟩ := exists_ofRules ((document.map ThemeDocument.rules).getD [])
  have hstable : ∀ r ∈ (document.map ThemeDocument.rules).getD [], StableColors r := by
    cases document with
    | none =>
        simp
    | some document =>
        exact fun r hr => stableColors_rules hr
  obtain ⟨seen, hcolors, hseen⟩ := isSettled_ofRules hstable htheme
  have hgrows : theme.colors.Grows (.fixed theme.colors.colors) := by
    rw [hcolors]
    exact hseen.grows
  exact ⟨theme, _, htheme, ofRules_of_grows htheme hgrows, rfl, rfl, fun path => rfl⟩

end Documents

end Theme
end LineScopes
