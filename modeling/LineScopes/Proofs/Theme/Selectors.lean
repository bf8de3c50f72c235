import LineScopes.Proofs.Text.Pieces
import LineScopes.Proofs.Theme.Arrangement
import LineScopes.Proofs.Theme.Lookup
import Mathlib.Data.List.Forall2

/-!
# Selectors between commas

Every selector of an entry that is not blank gives one rule, which spells the selector. A blank
selector gives a rule for the empty scope, and such rules set the defaults of the theme. Commas at
the ends of a text are trimmed, so the selectors of an entry are all meant if the text is tidy: every
comma stands between two of them, or in a run of commas at one end.

**Main definitions.** `IsBlank`, `meantSelectors`, `Tidy`, `ThemeRule.Spells`.

**Main statements.** `scope_ofSelector_eq_empty_iff`: which selectors stand for the defaults.
`rules_of_meant`: the rules of the selectors of a text, and the defaults of the theme.
-/

namespace LineScopes

section Meant

/-- A selector of nothing but white space. -/
def IsBlank (selector : String) : Prop :=
  ∀ c ∈ selector.toList, Unicode.isSpace c = true

instance (selector : String) : Decidable (IsBlank selector) :=
  decidable_of_iff (selector.toList.all Unicode.isSpace = true) List.all_eq_true

/-- The selectors between the commas of a text that are not blank. -/
def meantSelectors (text : String) : List String :=
  (Text.splitAt ',' text).filter fun selector => ¬ IsBlank selector

/-- One comma stands between two selectors of a text that are not blank, and nothing but commas
stand in front of the first one and behind the last one. -/
def Tidy (text : String) : Prop :=
  ∃ k m, Text.splitAt ',' text =
    List.replicate k "" ++ (meantSelectors text ++ List.replicate m "")

variable {text : String}

theorem isBlank_empty : IsBlank "" :=
  fun c hc => absurd hc (by simp)

theorem not_isBlank_of_mem
    {selector : String}
    (h : selector ∈ meantSelectors text) :
    ¬ IsBlank selector := by
  simpa using (List.mem_filter.mp h).2

/-- A text of commas has no selector that is not blank. -/
theorem trimBoth_comma_ne_empty
    (hmeant : meantSelectors text ≠ []) :
    Text.trimBoth (· == ',') text ≠ "" := by
  intro hcommas
  have hall : text.toList = List.replicate text.toList.length ',' :=
    List.eq_replicate_iff.mpr ⟨rfl, fun c hc =>
      beq_iff_eq.mp (Text.trimBoth_eq_empty_iff.mp hcommas c hc)⟩
  have hpieces := Text.splitChars_replicate_append ',' text.toList.length []
  rw [List.append_nil, ← hall] at hpieces
  refine hmeant (List.filter_eq_nil_iff.mpr fun piece hpiece => ?_)
  obtain ⟨ds, hds, rfl⟩ := List.mem_map.mp hpiece
  obtain rfl : ds = [] := by
    rw [hpieces, Text.splitChars] at hds
    rcases List.mem_append.mp hds with hds | hds
    · exact List.eq_of_mem_replicate hds
    · exact List.mem_singleton.mp hds
  simp [isBlank_empty]

/-- The selectors of an entry are the pieces of its text without the empty ones at both ends. -/
theorem selectors_eq
    {e : ThemeEntry}
    (hscope : e.scope = some (.single text))
    (hmeant : meantSelectors text ≠ []) :
    e.selectors = Text.trimEnds (· == "") (Text.splitAt ',' text) := by
  rw [← Text.splitAt_trimBoth (trimBoth_comma_ne_empty hmeant)]
  simp [ThemeEntry.selectors, hscope]

/-- Commas at both ends have no part in what a text means. -/
theorem filter_trimEnds (text : String) :
    (Text.trimEnds (· == "") (Text.splitAt ',' text)).filter (fun selector => ¬ IsBlank selector) =
      meantSelectors text := by
  obtain ⟨front, back, hpieces, hfront, hback⟩ :=
    Text.exists_trimEnds (· == "") (Text.splitAt ',' text)
  have hblank : ∀ {pieces : List String}, (∀ piece ∈ pieces, (piece == "") = true) →
      pieces.filter (fun selector => ¬ IsBlank selector) = [] := by
    intro pieces h
    refine List.filter_eq_nil_iff.mpr fun piece hpiece => ?_
    obtain rfl := beq_iff_eq.mp (h piece hpiece)
    simp [isBlank_empty]
  conv_rhs => rw [meantSelectors, hpieces, List.filter_append, List.filter_append, hblank hfront,
    hblank hback, List.nil_append, List.append_nil]

/-- The pieces that are left after trimming are all meant if the text is tidy, and only then. -/
theorem trimEnds_eq_meantSelectors_iff :
    Text.trimEnds (· == "") (Text.splitAt ',' text) = meantSelectors text ↔ Tidy text := by
  constructor
  · intro h
    obtain ⟨front, back, hpieces, hfront, hback⟩ :=
      Text.exists_trimEnds (· == "") (Text.splitAt ',' text)
    refine ⟨front.length, back.length, ?_⟩
    have hfront' : front = List.replicate front.length "" :=
      List.eq_replicate_iff.mpr ⟨rfl, fun piece hpiece => beq_iff_eq.mp (hfront piece hpiece)⟩
    have hback' : back = List.replicate back.length "" :=
      List.eq_replicate_iff.mpr ⟨rfl, fun piece hpiece => beq_iff_eq.mp (hback piece hpiece)⟩
    rw [← h, ← hfront', ← hback']
    exact hpieces
  · rintro ⟨k, m, hpieces⟩
    have hne : ∀ selector ∈ meantSelectors text, (selector == "") = false := by
      intro selector hselector
      refine beq_eq_false_iff_ne.mpr fun hempty => not_isBlank_of_mem hselector ?_
      exact hempty ▸ isBlank_empty
    rw [hpieces]
    exact Text.trimEnds_of_padded (by simp) (by simp)
      ⟨fun selector hselector => hne selector (List.mem_of_mem_head? hselector),
        fun selector hselector => hne selector (List.mem_of_mem_getLast? hselector)⟩

end Meant

namespace ThemeRule

/-- A rule for a selector: its names are those of the selector, outermost first, with single spaces
between them, and the rest is the style of the entry. -/
structure Spells (style : EntryStyle) (index : Nat) (selector : String) (r : ThemeRule) : Prop where
  scope_ne : r.scope ≠ ""
  names : " ".intercalate ((r.parents.getD []).reverse ++ [r.scope]) =
    Text.trimBoth Unicode.isSpace selector
  apart : ∀ name ∈ r.scope :: r.parents.getD [], ' ' ∉ name.toList
  parents_ne : r.parents ≠ some []
  index_eq : r.index = index
  font : r.font = style.fontStyle.map FontStyle.ofWords
  foreground : r.foreground = style.foreground.filter isHexColor
  background : r.background = style.background.filter isHexColor

variable {style : EntryStyle} {index : Nat} {selector : String}

/-- The names of a selector, outermost first. -/
theorem reverse_names_ofSelector
    (style : EntryStyle)
    (index : Nat)
    (selector : String) :
    ((ofSelector style index selector).parents.getD []).reverse ++
        [(ofSelector style index selector).scope] =
      Text.splitAt ' ' (Text.trimBoth Unicode.isSpace selector) := by
  have hne : Text.splitAt ' ' (Text.trimBoth Unicode.isSpace selector) ≠ [] := by
    simpa [Text.splitAt] using Text.splitChars_ne_nil ' ' _
  obtain ⟨outer, name, hnames⟩ := (List.eq_nil_or_concat' _).resolve_left hne
  rw [ofSelector, hnames]
  cases outer using List.reverseRecOn <;> simp

/-- Only a blank selector stands for the defaults. -/
theorem scope_ofSelector_eq_empty_iff :
    (ofSelector style index selector).scope = "" ↔ IsBlank selector := by
  have hnames := reverse_names_ofSelector style index selector
  constructor
  · intro hscope
    have hspace : Unicode.isSpace ' ' = true := by decide
    refine Text.trimBoth_eq_empty_iff.mp (Classical.byContradiction fun hne => ?_)
    refine Text.getLast?_splitAt_trimBoth hspace hne ?_
    rw [← hnames, hscope, List.getLast?_concat]
  · intro hblank
    rw [Text.trimBoth_eq_empty_iff.mpr hblank] at hnames
    have hlast := congrArg List.getLast? hnames
    simpa [Text.splitAt, Text.splitChars] using hlast

/-- A selector that is not blank is spelled by its rule. -/
theorem spells_ofSelector
    (h : ¬ IsBlank selector) :
    Spells style index selector (ofSelector style index selector) := by
  have hnames := reverse_names_ofSelector style index selector
  refine ⟨fun hscope => h (scope_ofSelector_eq_empty_iff.mp hscope), ?_, ?_, ?_, rfl, rfl, rfl, rfl⟩
  · rw [hnames]
    exact Text.intercalate_splitAt ' ' _
  · intro name hname
    have hpiece : name ∈ Text.splitAt ' ' (Text.trimBoth Unicode.isSpace selector) := by
      rw [← hnames]
      simpa [or_comm] using hname
    exact Text.not_mem_of_mem_splitAt hpiece
  · intro hparents
    simp only [ofSelector] at hparents
    split at hparents
    · cases hparents
    · rename_i hne
      exact hne (by simp [Option.some.inj hparents])

end ThemeRule

section Entries

open ThemeRule

variable {e : ThemeEntry} {style : EntryStyle} {text : String} {document : ThemeDocument}

theorem rules_of_style
    (hstyle : e.style = some style)
    (index : Nat) :
    e.rules index = e.selectors.map (ofSelector style index) := by
  rw [ThemeEntry.rules, hstyle]

/-- A rule of a document is that of a selector of the entry it is numbered with. -/
theorem exists_of_mem_rules
    {r : ThemeRule}
    (h : r ∈ document.rules) :
    ∃ e style selector, document.entries[r.index]? = some e ∧ e.style = some style ∧
      r = ofSelector style r.index selector := by
  obtain ⟨rules, hrules, hr⟩ := List.mem_flatten.mp h
  obtain ⟨index, hindex, rfl⟩ := List.mem_mapIdx.mp hrules
  cases hstyle : document.entries[index].style with
  | none =>
      rw [ThemeEntry.rules, hstyle] at hr
      cases hr
  | some style =>
      rw [rules_of_style hstyle] at hr
      obtain ⟨selector, -, rfl⟩ := List.mem_map.mp hr
      exact ⟨_, style, selector, List.getElem?_eq_getElem hindex, hstyle, rfl⟩

/-- The rules of a document are told apart by their keys. -/
theorem eq_of_key_eq
    {a b : ThemeRule}
    (ha : a ∈ document.rules)
    (hb : b ∈ document.rules)
    (hkey : a.key = b.key) :
    a = b := by
  obtain ⟨e, style, selector, he, hstyle, hrule⟩ := exists_of_mem_rules ha
  obtain ⟨e', style', selector', he', hstyle', hrule'⟩ := exists_of_mem_rules hb
  obtain ⟨hscope, hparents, hindex⟩ : a.scope = b.scope ∧ a.parents = b.parents ∧
      a.index = b.index := by
    simpa [key] using hkey
  obtain rfl : e = e' := Option.some.inj (he.symm.trans (hindex ▸ he'))
  obtain rfl : style = style' := Option.some.inj (hstyle.symm.trans hstyle')
  have hfont : a.font = b.font := by
    rw [hrule, hrule']
    rfl
  have hforeground : a.foreground = b.foreground := by
    rw [hrule, hrule']
    rfl
  have hbackground : a.background = b.background := by
    rw [hrule, hrule']
    rfl
  cases a
  cases b
  simp_all

/-- Only the rules for the empty scope count for the default style. -/
theorem defaultStyle_eq_of_filter_eq
    {other : ThemeDocument}
    (h : document.rules.filter (fun r => r.scope == "") =
      other.rules.filter fun r => r.scope == "") :
    Theme.defaultStyle (sort document.rules) = Theme.defaultStyle (sort other.rules) := by
  have hdocument := (List.mergeSort_perm document.rules fun a b => (compare a b).isLE).filter
    fun r => r.scope == ""
  have hother := (List.mergeSort_perm other.rules fun a b => (compare a b).isLE).filter
    fun r => r.scope == ""
  rw [← h] at hother
  have hmem : ∀ {r}, r ∈ (sort document.rules).filter (fun r => r.scope == "") →
      r ∈ document.rules := fun hr =>
    List.mem_mergeSort.mp (List.mem_filter.mp hr).1
  have hsame : (sort document.rules).filter (fun r => r.scope == "") =
      (sort other.rules).filter fun r => r.scope == "" :=
    eq_of_perm_of_pairwise (hdocument.trans hother.symm)
      (fun a ha b hb => eq_of_key_eq (hmem ha) (hmem hb))
      ((pairwise_compare_sort _).filter _) ((pairwise_compare_sort _).filter _)
  rw [Theme.defaultStyle, Theme.defaultStyle, Theme.takeWhile_eq_filter (pairwise_sort _),
    Theme.takeWhile_eq_filter (pairwise_sort _), hsame]

/-- Themes of documents with the same rules for the empty scope have the same defaults. -/
theorem defaults_eq_of_filter_eq
    {other : ThemeDocument}
    {colorMap : Option (List String)}
    {theme theme' : Theme}
    (h : document.rules.filter (fun r => r.scope == "") =
      other.rules.filter fun r => r.scope == "")
    (htheme : Theme.ofDocument (some document) colorMap = .ok theme)
    (htheme' : Theme.ofDocument (some other) colorMap = .ok theme') :
    theme.defaults = theme'.defaults := by
  change Theme.ofRules document.rules colorMap = .ok theme at htheme
  change Theme.ofRules other.rules colorMap = .ok theme' at htheme'
  obtain ⟨first, second, hforeground, hbackground, -, hfont⟩ :=
    Theme.exists_steps_of_ofRules htheme
  obtain ⟨first', second', hforeground', hbackground', -, hfont'⟩ :=
    Theme.exists_steps_of_ofRules htheme'
  rw [← defaultStyle_eq_of_filter_eq h] at hforeground' hbackground' hfont'
  obtain ⟨hfirst, rfl⟩ := Prod.mk.inj (Except.ok.inj (hforeground.symm.trans hforeground'))
  obtain ⟨hsecond, -⟩ := Prod.mk.inj (Except.ok.inj (hbackground.symm.trans hbackground'))
  calc theme.defaults
      = ⟨theme.defaults.font, theme.defaults.foreground, theme.defaults.background⟩ := rfl
    _ = ⟨theme'.defaults.font, theme'.defaults.foreground, theme'.defaults.background⟩ := by
        rw [hfont, hfont', hfirst, hsecond]
    _ = theme'.defaults := rfl

/-- The rules of a document around one of its entries. -/
theorem rules_append_cons
    (name : Option String)
    (before after : List ThemeEntry) :
    ∃ front back, ∀ e : ThemeEntry,
      (ThemeDocument.mk name (before ++ e :: after)).rules =
        front ++ (e.rules before.length ++ back) := by
  refine ⟨(before.mapIdx fun index e => e.rules index).flatten,
    (after.mapIdx fun index e => e.rules (index + 1 + before.length)).flatten, fun e => ?_⟩
  simp [ThemeDocument.rules, List.mapIdx_append, List.mapIdx_cons]

/-- The rules of an entry that are not for the empty scope are those of the selectors that are not
blank. -/
theorem filter_rules_eq
    (hstyle : e.style = some style)
    (hscope : e.scope = some (.single text))
    (hmeant : meantSelectors text ≠ [])
    (index : Nat) :
    (e.rules index).filter (fun r => r.scope ≠ "") =
      (meantSelectors text).map (ofSelector style index) := by
  rw [rules_of_style hstyle, List.filter_map, selectors_eq hscope hmeant, ← filter_trimEnds text]
  simp [Function.comp_def, scope_ofSelector_eq_empty_iff]

theorem forall₂_spells
    (style : EntryStyle)
    (index : Nat)
    (text : String) :
    List.Forall₂ (Spells style index) (meantSelectors text)
      ((meantSelectors text).map (ofSelector style index)) := by
  rw [List.forall₂_map_right_iff]
  exact List.forall₂_same.mpr fun selector hselector =>
    spells_ofSelector (not_isBlank_of_mem hselector)

/-- An entry has no rule for the empty scope just if its text is tidy. -/
theorem scope_ne_empty_iff_tidy
    (hstyle : e.style = some style)
    (hscope : e.scope = some (.single text))
    (hmeant : meantSelectors text ≠ [])
    (index : Nat) :
    (∀ r ∈ e.rules index, r.scope ≠ "") ↔ Tidy text := by
  have hblank : (∀ r ∈ e.rules index, r.scope ≠ "") ↔
      ∀ selector ∈ e.selectors, ¬ IsBlank selector := by
    rw [rules_of_style hstyle, List.forall_mem_map]
    simp only [ne_eq, scope_ofSelector_eq_empty_iff]
  rw [hblank, ← trimEnds_eq_meantSelectors_iff, ← filter_trimEnds text, selectors_eq hscope hmeant,
    eq_comm, List.filter_eq_self]
  simp

/-- The selectors of a text that are not blank give one rule each, in order. All rules of the text
are of this kind just if the text is tidy, and then its entry has no part in the defaults of a
theme. -/
theorem rules_of_meant
    (hstyle : e.style = some style)
    (hscope : e.scope = some (.single text))
    (hmeant : meantSelectors text ≠ [])
    (index : Nat) :
    List.Forall₂ (Spells style index) (meantSelectors text)
        ((e.rules index).filter fun r => r.scope ≠ "") ∧
      ((∀ r ∈ e.rules index, r.scope ≠ "") ↔ Tidy text) ∧
      (Tidy text →
        List.Forall₂ (Spells style index) (meantSelectors text) (e.rules index) ∧
        ∀ name before after colorMap theme other,
          Theme.ofDocument (some ⟨name, before ++ e :: after⟩) colorMap = .ok theme →
          Theme.ofDocument (some ⟨name, before ++ { e with style := none } :: after⟩) colorMap =
            .ok other →
          theme.defaults = other.defaults) := by
  have hspells := forall₂_spells style index text
  rw [← filter_rules_eq hstyle hscope hmeant index] at hspells
  refine ⟨hspells, scope_ne_empty_iff_tidy hstyle hscope hmeant index, fun htidy => ?_⟩
  have hscopes := fun index => (scope_ne_empty_iff_tidy hstyle hscope hmeant index).mpr htidy
  constructor
  · have hall : (e.rules index).filter (fun r => r.scope ≠ "") = e.rules index :=
      List.filter_eq_self.mpr fun r hr => decide_eq_true (hscopes index r hr)
    rwa [hall] at hspells
  · intro name before after colorMap theme other htheme hother
    obtain ⟨front, back, haround⟩ := rules_append_cons name before after
    refine defaults_eq_of_filter_eq ?_ htheme hother
    have hnone : (e.rules before.length).filter (fun r => r.scope == "") = [] :=
      List.filter_eq_nil_iff.mpr fun r hr => by simpa using hscopes _ r hr
    rw [haround, haround, List.filter_append, List.filter_append, hnone]
    simp [ThemeEntry.rules]

/-- An entry with a red text color for the selectors of a text. -/
def red (text : String) : ThemeEntry where
  scope := some (.single text)
  style := some { foreground := some "#FF0000" }

/-- Commas at both ends, one of them between two selectors, and white space around a selector. -/
theorem rules_of_meant_quoted :
    meantSelectors ",meta.tag string.quoted,\tcomment ,," =
        ["meta.tag string.quoted", "\tcomment "] ∧
      Tidy ",meta.tag string.quoted,\tcomment ,," ∧
      List.Forall₂ (Spells { foreground := some "#FF0000" } 0)
        (meantSelectors ",meta.tag string.quoted,\tcomment ,,")
        ((red ",meta.tag string.quoted,\tcomment ,,").rules 0) ∧
      ∃ theme other,
        Theme.ofDocument (some ⟨none, [red ",meta.tag string.quoted,\tcomment ,,"]⟩) none =
          .ok theme ∧
        Theme.ofDocument (some ⟨none,
          [{ red ",meta.tag string.quoted,\tcomment ,," with style := none }]⟩) none = .ok other ∧
        theme.defaults = other.defaults := by
  have hmeant : meantSelectors ",meta.tag string.quoted,\tcomment ,," =
      ["meta.tag string.quoted", "\tcomment "] := by
    decide +kernel
  have htidy : Tidy ",meta.tag string.quoted,\tcomment ,," := ⟨1, 2, by decide +kernel⟩
  obtain ⟨theme, htheme⟩ := Theme.exists_ofRules
    (ThemeDocument.rules ⟨none, [red ",meta.tag string.quoted,\tcomment ,,"]⟩)
  obtain ⟨other, hother⟩ := Theme.exists_ofRules (ThemeDocument.rules
    ⟨none, [{ red ",meta.tag string.quoted,\tcomment ,," with style := none }]⟩)
  obtain ⟨-, -, hrules⟩ := rules_of_meant (e := red ",meta.tag string.quoted,\tcomment ,,") rfl rfl
    (by simp [hmeant]) 0
  obtain ⟨hspells, hdefaults⟩ := hrules htidy
  exact ⟨hmeant, htidy, hspells, theme, other, htheme, hother,
    hdefaults none [] [] none theme other htheme hother⟩

/-- White space behind the last comma or in front of the first one, and two commas between
selectors: each time there is a rule for the empty scope. It sets the defaults of the theme. -/
theorem rules_of_stray :
    (∀ text ∈ ["string, ", " ,string", "string,,comment"],
      meantSelectors text ≠ [] ∧ ∃ r ∈ (red text).rules 0, r.scope = "") ∧
    (red "string, ").rules 0 = [⟨"string", none, 0, none, some "#FF0000", none⟩,
      ⟨"", none, 0, none, some "#FF0000", none⟩] ∧
    ∃ theme, Theme.ofDocument (some ⟨none, [red "string, "]⟩) none = .ok theme ∧
      theme.colors.color? theme.defaults.foreground = some "#FF0000" ∧
      Theme.ofDocument (some ⟨none, [{ red "string, " with style := none }]⟩) none =
        .ok Theme.plain ∧
      Theme.plain.colors.color? Theme.plain.defaults.foreground = some "#000000" := by
  have hsorted : sort (ThemeDocument.rules ⟨none, [red "string, "]⟩) =
      [⟨"", none, 0, none, some "#FF0000", none⟩,
        ⟨"string", none, 0, none, some "#FF0000", none⟩] :=
    (sort_eq_of_perm (by decide +kernel) (by decide +kernel)).trans
      (List.mergeSort_of_pairwise (by decide +kernel))
  have hcolor : (Theme.ofDocument (some ⟨none, [red "string, "]⟩) none).map
      (fun theme => theme.colors.color? theme.defaults.foreground) = .ok (some "#FF0000") := by
    rw [Theme.ofDocument, Theme.ofRules, Option.map_some, Option.getD_some, hsorted]
    decide +kernel
  obtain ⟨theme, htheme, hfound⟩ := exists_of_map_eq_ok hcolor
  exact ⟨by decide +kernel, by decide +kernel, theme, htheme, hfound, Theme.ofDocument_none, rfl⟩

end Entries

end LineScopes
