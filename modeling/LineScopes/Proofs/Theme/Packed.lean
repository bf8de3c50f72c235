import LineScopes.Proofs.Theme.Numbers
import LineScopes.Scan.ScopeList

/-!
# Colors in packed metadata

A theme gives a number to every color it meets, without a limit, and packed metadata has nine bits
for it. Numbers below 512 survive packing. Greater ones do not: the metadata says another color of
the theme, or none, because no two numbers of a theme have one color.

**Main definitions.** `ColorMap.Reports`.

**Main statements.** `reports_of_styleOf`: which colors of a style survive packing.
`ofDocument_shades`, `packed_of_shades`: themes with more colors.
-/

namespace LineScopes

namespace ColorMap

variable {m : ColorMap} {n : Nat}

/-- What nine bits say about the number of a color that has one: they give the number back, and the
color, just if the number is below 512. -/
structure Reports (m : ColorMap) (n : Nat) (field : BitVec 9) : Prop where
  known : (m.color? n).isSome = true
  number : field.toNat = n ↔ n < 512
  color : m.color? field.toNat = m.color? n ↔ n < 512

/-- The lowest bits of a number, where all colors are different. -/
theorem IsSettled.reports
    (h : m.IsSettled)
    (hne : n ≠ 0)
    (hlt : n < m.colors.length) :
    m.Reports n (BitVec.ofNat 9 n) := by
  obtain ⟨seen, rfl, hseen⟩ := h
  have hcolor : ∀ k, k ≠ 0 → (growing seen).color? k = seen[k - 1]? := by
    intro k hk
    obtain ⟨k, rfl⟩ := Nat.exists_eq_succ_of_ne_zero hk
    rfl
  have hknown : n - 1 < seen.length := by
    simp only [colors, List.length_cons] at hlt
    omega
  have hfield : (BitVec.ofNat 9 n).toNat = n % 512 :=
    BitVec.toNat_ofNat n 9
  have hsome : (growing seen).color? n = some seen[n - 1] := by
    rw [hcolor n hne, List.getElem?_eq_getElem hknown]
  constructor
  · rw [hsome]
    rfl
  · rw [hfield]
    omega
  · rw [hfield]
    constructor
    · intro hsame
      by_contra hlarge
      by_cases hzero : n % 512 = 0
      · rw [hzero, hsome] at hsame
        cases hsame
      · -- two numbers of one color would be the same number
        rw [hcolor _ hzero, hcolor n hne] at hsame
        have hindex := (List.getElem?_inj hknown hseen.nodup).mp hsame.symm
        omega
    · intro hsmall
      rw [Nat.mod_eq_of_lt hsmall]

end ColorMap

namespace Theme

variable {theme : Theme} {path : ScopePath} {style : Style}

/-- The numbers that a style sets replace those of the metadata around. -/
theorem fields_update_withStyle
    (outer : Metadata)
    (basic : Attributes)
    (style : Style) :
    (outer.update (basic.withStyle (some style))).fields.foreground =
        Metadata.replaced outer.fields.foreground style.foreground ∧
      (outer.update (basic.withStyle (some style))).fields.background =
        Metadata.replaced outer.fields.background style.background := by
  simp [Metadata.update, Attributes.withStyle]

/-- The numbers that a style sets are packed into fields that give them back, and their colors, just
if they are below 512. This holds for all of them if the theme has at most 511 colors. -/
theorem reports_of_styleOf
    {document : Option ThemeDocument}
    (htheme : ofDocument document none = .ok theme)
    (hstyle : theme.styleOf path = some style)
    (outer : Metadata)
    (basic : Attributes) :
    let packed := (outer.update (basic.withStyle (some style))).fields
    (style.foreground ≠ 0 → theme.colors.Reports style.foreground packed.foreground) ∧
      (style.background ≠ 0 → theme.colors.Reports style.background packed.background) ∧
      (theme.colors.colors.length ≤ 512 → style.foreground < 512 ∧ style.background < 512) := by
  intro packed
  have hsettled := isSettled_ofDocument htheme
  obtain ⟨hforeground, hbackground⟩ := styleOf_lt_length htheme hsettled hstyle
  obtain ⟨hforeground', hbackground'⟩ := fields_update_withStyle outer basic style
  refine ⟨fun hne => ?_, fun hne => ?_, fun hlength => ⟨by omega, by omega⟩⟩
  · rw [hforeground', Metadata.replaced, if_neg hne]
    exact hsettled.reports hne hforeground
  · rw [hbackground', Metadata.replaced, if_neg hne]
    exact hsettled.reports hne hbackground

/-- A theme with one color besides the defaults. -/
def redStrings : ThemeDocument where
  entries := [{ scope := some (.single "string"), style := some { foreground := some "#FF0000" } }]

/-- The color of strings inside metadata that already has colors and a language. -/
theorem reports_of_styleOf_string :
    ∃ theme, ofDocument (some redStrings) none = .ok theme ∧
      theme.styleOf ⟨["string.quoted", "source"]⟩ = some ⟨none, 3, 0⟩ ∧
      theme.colors.Reports 3 (Metadata.update 0x01004002
        (({} : Attributes).withStyle (some ⟨none, 3, 0⟩))).fields.foreground := by
  have hstyle : (ofDocument (some redStrings) none).map
      (fun theme => theme.styleOf ⟨["string.quoted", "source"]⟩) = .ok (some ⟨none, 3, 0⟩) := by
    have hsorted : ThemeRule.sort redStrings.rules = redStrings.rules :=
      List.mergeSort_of_pairwise (by decide +kernel)
    rw [ofDocument, Option.map_some, Option.getD_some, ofRules, hsorted]
    decide +kernel
  obtain ⟨theme, htheme, hfound⟩ := exists_of_map_eq_ok hstyle
  have hreports := (reports_of_styleOf htheme hfound 0x01004002 {}).1
  exact ⟨theme, htheme, hfound, hreports (by decide)⟩

section Shades

open ThemeRule

/-- The last decimal digit of a number. -/
def lastDigit (n : Nat) : Char :=
  Nat.digitChar (n % 10)

/-- Decimal digits are hexadecimal digits without case, all different. -/
theorem digitChar_spec :
    ∀ d < 10, Unicode.isHexDigit (Nat.digitChar d) = true ∧
      (Nat.digitChar d).toUpper = Nat.digitChar d ∧
      ∀ d' < 10, Nat.digitChar d = Nat.digitChar d' → d = d' := by
  decide

theorem isHexDigit_lastDigit (n : Nat) :
    Unicode.isHexDigit (lastDigit n) = true :=
  (digitChar_spec _ (Nat.mod_lt n (by decide))).1

theorem toUpper_lastDigit (n : Nat) :
    (lastDigit n).toUpper = lastDigit n :=
  (digitChar_spec _ (Nat.mod_lt n (by decide))).2.1

theorem mod_eq_of_lastDigit_eq
    {m n : Nat}
    (h : lastDigit m = lastDigit n) :
    m % 10 = n % 10 :=
  (digitChar_spec _ (Nat.mod_lt m (by decide))).2.2 _ (Nat.mod_lt n (by decide)) h

/-- A hexadecimal color of three decimal digits. -/
def shade (i : Nat) : String :=
  String.ofList ['#', lastDigit (i / 100), lastDigit (i / 10), lastDigit i]

theorem isHexColor_shade (i : Nat) :
    isHexColor (shade i) = true := by
  simp [isHexColor, shade, isHexDigit_lastDigit]

theorem upper_shade (i : Nat) :
    Unicode.upper (shade i) = shade i := by
  have hascii : ∀ c ∈ (shade i).toList, c.toNat < 0x80 := by
    have hcode := fun n => Unicode.toNat_lt_of_isHexDigit (isHexDigit_lastDigit n)
    simp [shade, hcode]
  apply String.toList_inj.mp
  rw [Unicode.toList_upper hascii]
  simp [shade, toUpper_lastDigit]

/-- Up to a thousand shades are different. -/
theorem shade_inj
    {i j : Nat}
    (hi : i < 1000)
    (hj : j < 1000)
    (h : shade i = shade j) :
    i = j := by
  have hchars := String.ofList_injective h
  simp only [List.cons.injEq, true_and, and_true] at hchars
  obtain ⟨hhundreds, htens, hones⟩ := hchars
  have hhundreds' := mod_eq_of_lastDigit_eq hhundreds
  have htens' := mod_eq_of_lastDigit_eq htens
  have hones' := mod_eq_of_lastDigit_eq hones
  omega

/-- A document that gives one scope many backgrounds, one after the other. -/
def shades (count : Nat) : ThemeDocument where
  entries := (List.range count).map fun i =>
    { scope := some (.single "accent"), style := some { background := some (shade i) } }

/-- The rule of a shade. -/
def shadeRule (i : Nat) : ThemeRule :=
  ⟨"accent", none, i, none, none, some (shade i)⟩

theorem rules_shades (count : Nat) :
    (shades count).rules = (List.range count).map shadeRule := by
  have hselectors : Text.splitAt ',' (Text.trimBoth (· == ',') "accent") = ["accent"] := by
    decide +kernel
  have hnames : Text.splitAt ' ' (Text.trimBoth Unicode.isSpace "accent") = ["accent"] := by
    decide +kernel
  have hentry : ∀ i, ThemeEntry.rules
      { scope := some (.single "accent"), style := some { background := some (shade i) } } i =
        [shadeRule i] := by
    intro i
    simp [ThemeEntry.rules, ThemeEntry.selectors, hselectors, ofSelector, hnames, shadeRule,
      isHexColor_shade]
  have hrules : ((shades count).entries.mapIdx fun index e => e.rules index) =
      (List.range count).map fun i => [shadeRule i] := by
    refine List.ext_getElem (by simp [shades]) fun i hi hi' => ?_
    simp [shades, hentry]
  rw [ThemeDocument.rules, hrules, ← List.flatMap_def]
  exact List.map_eq_flatMap.symm

theorem sort_shadeRules (count : Nat) :
    sort ((List.range count).map shadeRule) = (List.range count).map shadeRule := by
  refine List.mergeSort_of_pairwise (List.pairwise_map.mpr (List.pairwise_lt_range.imp ?_))
  intro i j hlt
  simp [ThemeRule.compare, shadeRule, compareNames, Nat.compare_eq_lt.mpr hlt]

theorem defaultStyle_shadeRules (count : Nat) :
    defaultStyle (sort ((List.range count).map shadeRule)) = {} := by
  have hnone : ((List.range count).map shadeRule).filter (fun r => r.scope == "") = [] := by
    simp [List.filter_map, Function.comp_def, shadeRule]
  rw [defaultStyle, takeWhile_eq_filter (pairwise_sort _), sort_shadeRules, hnone]
  rfl

/-- The tree of rules for the scope of the shades. -/
def accentTree (n : Nat) : Trie :=
  .node ⟨0, [], none, 0, 0⟩ [] [("accent", .node ⟨1, [], none, 0, n⟩ [] [])]

/-- A background for the scope of the shades takes the place of the one before. -/
theorem insert_accent
    {t : Trie}
    (h : t = .empty ∨ ∃ k, t = accentTree k)
    (n : Nat) :
    t.insert 0 ["accent"] none ⟨none, 0, n + 1⟩ = accentTree (n + 1) := by
  rcases h with rfl | ⟨k, rfl⟩ <;>
    simp [accentTree, Trie.empty, Trie.insert, Trie.childOrNew, Trie.children, Trie.main,
      Trie.qualified, Trie.setChild, Trie.insertHere, TrieRule.overwrite, orElseColor]

/-- A new shade gets the next number. -/
theorem insertRule_shadeRule
    {seen : List String}
    {i : Nat}
    (hnew : shade i ∉ seen)
    {t : Trie}
    (h : t = .empty ∨ ∃ k, t = accentTree k) :
    insertRule (.growing seen, t) (shadeRule i) =
      .ok (.growing (seen ++ [shade i]), accentTree (seen.length + 1)) := by
  have hparts : Scope.dottedParts "accent" = ["accent"] := by
    decide +kernel
  have hfind : seen.findIdx? (· == shade i) = none :=
    List.findIdx?_eq_none_iff.mpr fun c hc =>
      beq_eq_false_iff_ne.mpr fun heq => hnew (heq ▸ hc)
  have hid : (ColorMap.growing seen).id (shade i) =
      .ok (seen.length + 1, .growing (seen ++ [shade i])) := by
    simp [ColorMap.id, upper_shade, hfind]
  simp only [insertRule, shadeRule, ColorMap.id?, hid, hparts, bind, Except.bind]
  rw [insert_accent h]
  rfl

/-- A shade is neither a default color nor one of the shades before it. -/
theorem shade_notMem
    {count : Nat}
    (hcount : count < 1000) :
    shade count ∉ ["#000000", "#FFFFFF"] ++ (List.range count).map shade := by
  intro hmem
  rcases List.mem_append.mp hmem with hmem | hmem
  · have hlong : ∀ c ∈ ["#000000", "#FFFFFF"], c.toList.length = 7 := by
      decide
    have hshort : (shade count).toList.length = 4 := by
      simp [shade]
    exact absurd (hshort.symm.trans (hlong _ hmem)) (by decide)
  · obtain ⟨i, hi, hsame⟩ := List.mem_map.mp hmem
    have hlt := List.mem_range.mp hi
    have heq := shade_inj (by omega) hcount hsame
    omega

theorem foldlM_insertRule_concat
    {rules : List ThemeRule}
    {r : ThemeRule}
    {start between last : ColorMap × Trie}
    (h : rules.foldlM insertRule start = .ok between)
    (hinsert : insertRule between r = .ok last) :
    (rules ++ [r]).foldlM insertRule start = .ok last := by
  rw [List.foldlM_append, h]
  change insertRule between r >>= pure = _
  rw [hinsert]
  rfl

theorem foldlM_shadeRules
    {count : Nat}
    (hcount : count < 1000) :
    ((List.range (count + 1)).map shadeRule).foldlM insertRule
        (.growing ["#000000", "#FFFFFF"], .empty) =
      .ok (.growing (["#000000", "#FFFFFF"] ++ (List.range (count + 1)).map shade),
        accentTree (count + 3)) := by
  induction count with
  | zero =>
      have hfirst := insertRule_shadeRule (shade_notMem hcount) (.inl rfl)
      rw [List.range_zero, List.map_nil, List.append_nil] at hfirst
      change insertRule (.growing ["#000000", "#FFFFFF"], .empty) (shadeRule 0) >>= pure = _
      rw [hfirst]
      rfl
  | succ count ih =>
      have hlength : (["#000000", "#FFFFFF"] ++ (List.range (count + 1)).map shade).length =
          count + 3 := by
        simp
      have hlast := insertRule_shadeRule (shade_notMem hcount) (.inr ⟨count + 3, rfl⟩)
      rw [hlength, List.append_assoc] at hlast
      have hrules := foldlM_insertRule_concat (ih (by omega)) hlast
      rwa [List.range_succ, List.map_append, List.map_append]

/-- Every shade gets a number of its own, and the last one is the background of the scope. -/
theorem ofDocument_shades
    {count : Nat}
    (hcount : count < 1000) :
    ofDocument (some (shades (count + 1))) none = .ok {
      colors := .growing (["#000000", "#FFFFFF"] ++ (List.range (count + 1)).map shade)
      defaults := ⟨some .empty, 1, 2⟩
      root := accentTree (count + 3) } := by
  have hblack : (startMap none).id "#000000" = .ok (1, .growing ["#000000"]) := by
    decide +kernel
  have hwhite : (ColorMap.growing ["#000000"]).id "#ffffff" =
      .ok (2, .growing ["#000000", "#FFFFFF"]) := by
    decide +kernel
  have hall : ((List.range (count + 1)).map shadeRule).filter (fun r => r.scope ≠ "") =
      (List.range (count + 1)).map shadeRule := by
    simp [List.filter_map, Function.comp_def, shadeRule]
  change ofRules (shades (count + 1)).rules none = _
  rw [rules_shades]
  refine ofRules_eq_of_steps (by rwa [defaultStyle_shadeRules])
    (by rwa [defaultStyle_shadeRules]) ?_ (by rw [defaultStyle_shadeRules])
  rw [dropWhile_eq_filter (pairwise_sort _), sort_shadeRules, hall]
  exact foldlM_shadeRules hcount

theorem styleOf_accentTree
    {n : Nat}
    (hroot : theme.root = accentTree n) :
    theme.styleOf ⟨["accent", "source"]⟩ = some ⟨none, 0, n⟩ := by
  have hparts : Scope.dottedParts "accent" = ["accent"] := by
    decide +kernel
  simp [styleOf, hroot, hparts, accentTree, Trie.find, Trie.children, Trie.rulesHere, Trie.main,
    Trie.qualified, TrieRule.sort, TrieRule.place, parentsMatch]

/-- With 510 shades the last one has number 512, which the field of the background makes the number
for no color; with 511 shades it has number 513, which becomes that of black. -/
theorem packed_of_shades :
    (∃ theme, ofDocument (some (shades 510)) none = .ok theme ∧
      theme.styleOf ⟨["accent", "source"]⟩ = some ⟨none, 0, 512⟩ ∧
      theme.colors.color? 512 = some "#509" ∧
      ∀ (outer : Metadata) (basic : Attributes),
        (outer.update (basic.withStyle (some ⟨none, 0, 512⟩))).fields.background = 0) ∧
    ∃ theme, ofDocument (some (shades 511)) none = .ok theme ∧
      theme.styleOf ⟨["accent", "source"]⟩ = some ⟨none, 0, 513⟩ ∧
      theme.colors.color? 513 = some "#510" ∧
      theme.colors.color? 1 = some "#000000" ∧
      ∀ (outer : Metadata) (basic : Attributes),
        (outer.update (basic.withStyle (some ⟨none, 0, 513⟩))).fields.background = 1 := by
  have hpacked : ∀ (n : Nat) (outer : Metadata) (basic : Attributes), n ≠ 0 →
      (outer.update (basic.withStyle (some ⟨none, 0, n⟩))).fields.background =
        BitVec.ofNat 9 n := by
    intro n outer basic hn
    rw [(fields_update_withStyle outer basic ⟨none, 0, n⟩).2, Metadata.replaced, if_neg hn]
  refine ⟨⟨_, ofDocument_shades (by decide : 509 < 1000), styleOf_accentTree rfl, ?_, ?_⟩,
    ⟨_, ofDocument_shades (by decide : 510 < 1000), styleOf_accentTree rfl, ?_, ?_, ?_⟩⟩
  · decide +kernel
  · intro outer basic
    exact hpacked 512 outer basic (by decide)
  · decide +kernel
  · decide +kernel
  · intro outer basic
    exact hpacked 513 outer basic (by decide)

end Shades

end Theme

end LineScopes
