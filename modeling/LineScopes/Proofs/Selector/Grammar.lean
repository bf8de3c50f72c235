import LineScopes.Selector.Parser

/-!
# The grammar of selectors

The tokens of a selector are alternatives between single separators. An alternative is empty, or it
is a sequence of operands that a priority mark may stand before. An operand is a run of names, `-`
and an operand, or a group in parentheses. In a group there are sequences with separators between
them, and more separators may stand before the first and behind the last one.

Names that stand side by side belong to one run. Hence two operands that follow each other are
apart: not both of the tokens where they meet are names.

**Main definitions.** `Operand`, `Sequence`, `Choice`, `Clause`, `Written`.
-/

namespace LineScopes
namespace Selector

section Boundaries

/-- A token that is a name. -/
def IsName (t : Token) : Prop :=
  t.name? ≠ none

/-- The last token is a name. -/
def EndsInName (ts : List Token) : Prop :=
  ∃ t, ts.getLast? = some t ∧ IsName t

/-- The first token is a name. -/
def StartsWithName (ts : List Token) : Prop :=
  ∃ t, ts.head? = some t ∧ IsName t

/-- No run of names goes on from one part into the next. -/
def Apart (ts us : List Token) : Prop :=
  EndsInName ts → ¬ StartsWithName us

/-- Tokens that are all separators. -/
def Separators (ts : List Token) : Prop :=
  ∀ t ∈ ts, t.isSeparator = true

end Boundaries

mutual

/-- The tokens of an operand. -/
inductive Operand : List Token → Selector → Prop
  | names
      {ids : List String}
      (hne : ids ≠ [])
      (hnames : ∀ i ∈ ids, Token.isName i = true) :
      Operand (ids.map .word) (.names ids)
  | negation
      {ts : List Token} {s : Selector}
      (h : Operand ts s) :
      Operand (.minus :: ts) (.not s)
  | group
      {before ts after : List Token} {parts : List Selector}
      (hbefore : Separators before)
      (h : Choice ts parts)
      (hafter : Separators after) :
      Operand (.lparen :: (before ++ ts ++ after) ++ [.rparen]) (anyOf parts)

/-- The tokens of one or more operands. -/
inductive Sequence : List Token → List Selector → Prop
  | last
      {ts : List Token} {s : Selector}
      (h : Operand ts s) :
      Sequence ts [s]
  | cons
      {ts us : List Token} {s : Selector} {parts : List Selector}
      (h : Operand ts s)
      (hapart : Apart ts us)
      (hrest : Sequence us parts) :
      Sequence (ts ++ us) (s :: parts)

/-- The tokens of one or more sequences with separators between them. -/
inductive Choice : List Token → List Selector → Prop
  | last
      {ts : List Token} {parts : List Selector}
      (h : Sequence ts parts) :
      Choice ts [allOf parts]
  | cons
      {ts between us : List Token} {parts others : List Selector}
      (h : Sequence ts parts)
      (hne : between ≠ [])
      (hbetween : Separators between)
      (hrest : Choice us others) :
      Choice (ts ++ between ++ us) (allOf parts :: others)

end

/-- The tokens of an alternative, which may be empty. A priority mark at its start is no name. -/
inductive Clause : List Token → Option Alternative → Prop
  | empty : Clause [] none
  | plain
      {ts : List Token} {parts : List Selector}
      (h : Sequence ts parts)
      (hleft : ts.head? ≠ some (.word "L:"))
      (hright : ts.head? ≠ some (.word "R:")) :
      Clause ts (some ⟨.normal, allOf parts⟩)
  | left
      {ts : List Token} {parts : List Selector}
      (h : Sequence ts parts) :
      Clause (.word "L:" :: ts) (some ⟨.left, allOf parts⟩)
  | right
      {ts : List Token} {parts : List Selector}
      (h : Sequence ts parts) :
      Clause (.word "R:" :: ts) (some ⟨.right, allOf parts⟩)

/-- The tokens of a selector, with what its alternatives stand for. -/
inductive Written : List Token → List Alternative → Prop
  | last
      {ts : List Token} {clause : Option Alternative}
      (h : Clause ts clause) :
      Written ts clause.toList
  | cons
      {ts us : List Token} {sep : Token} {clause : Option Alternative} {others : List Alternative}
      (h : Clause ts clause)
      (hsep : sep.isSeparator = true)
      (hrest : Written us others) :
      Written (ts ++ sep :: us) (clause.toList ++ others)

section Boundaries

variable {t : Token} {ts us rest : List Token}

/-- A name is a word. -/
theorem eq_word_of_name?
    {n : String}
    (h : t.name? = some n) :
    t = .word n ∧ Token.isName n = true := by
  cases t with
  | word text =>
      simp only [Token.name?, Option.ite_none_right_eq_some, Option.some.injEq] at h
      obtain ⟨hname, rfl⟩ := h
      exact ⟨rfl, hname⟩
  | _ =>
      cases h

theorem name?_word
    {n : String}
    (h : Token.isName n = true) :
    (Token.word n).name? = some n := by
  simp [Token.name?, h]

theorem not_isName_of_isSeparator
    (h : t.isSeparator = true) :
    ¬ IsName t := by
  cases t <;> simp_all [Token.isSeparator, IsName, Token.name?]

@[simp] theorem startsWithName_cons_iff :
    StartsWithName (t :: ts) ↔ IsName t := by
  simp [StartsWithName]

theorem not_startsWithName_nil :
    ¬ StartsWithName [] := by
  simp [StartsWithName]

theorem StartsWithName.append
    (h : StartsWithName ts)
    (rest : List Token) :
    StartsWithName (ts ++ rest) := by
  obtain ⟨t, hhead, hname⟩ := h
  exact ⟨t, by simp [List.head?_append, hhead], hname⟩

/-- Parts are apart if a longer part behind the first one is apart from it. -/
theorem Apart.of_append
    (h : Apart ts (us ++ rest)) :
    Apart ts us :=
  fun hends hstarts => h hends (hstarts.append rest)

/-- Parts that are apart stay apart with more tokens behind them. -/
theorem Apart.append
    (h : Apart ts us)
    (hne : us ≠ [])
    (rest : List Token) :
    Apart ts (us ++ rest) := by
  obtain ⟨u, us, rfl⟩ := List.exists_cons_of_ne_nil hne
  intro hends hstarts
  rw [List.cons_append, startsWithName_cons_iff] at hstarts
  exact h hends (startsWithName_cons_iff.mpr hstarts)

/-- A sign before a part does not make it end in a name. -/
theorem EndsInName.of_cons
    (h : EndsInName (t :: ts))
    (ht : ¬ IsName t) :
    EndsInName ts := by
  obtain ⟨last, hlast, hname⟩ := h
  cases ts with
  | nil =>
      obtain rfl : t = last := by simpa using hlast
      exact absurd hname ht
  | cons u us =>
      rw [List.getLast?_cons_cons] at hlast
      exact ⟨last, hlast, hname⟩

theorem EndsInName.cons
    (h : EndsInName ts)
    (t : Token) :
    EndsInName (t :: ts) := by
  obtain ⟨last, hlast, hname⟩ := h
  cases ts with
  | nil =>
      cases hlast
  | cons u us =>
      exact ⟨last, by rw [List.getLast?_cons_cons, hlast], hname⟩

theorem endsInName_append_singleton_iff :
    EndsInName (ts ++ [t]) ↔ IsName t := by
  simp [EndsInName]

/-- A run of names ends in a name. -/
theorem endsInName_names
    {ids : List String}
    (hne : ids ≠ [])
    (hnames : ∀ i ∈ ids, Token.isName i = true) :
    EndsInName (ids.map .word) := by
  refine ⟨.word (ids.getLast hne), ?_, ?_⟩
  · rw [List.getLast?_map, List.getLast?_eq_some_getLast hne, Option.map_some]
  · rw [IsName, name?_word (hnames _ (List.getLast_mem hne))]
    exact Option.some_ne_none _

end Boundaries

section Sequences

variable {ts : List Token} {s : Selector} {parts : List Selector}

theorem Operand.ne_nil
    (h : Operand ts s) :
    ts ≠ [] := by
  cases h with
  | names hne hnames =>
      simpa using hne
  | _ =>
      simp

theorem Sequence.ne_nil
    (h : Sequence ts parts) :
    ts ≠ [] := by
  cases h with
  | last h =>
      exact h.ne_nil
  | cons h hapart hrest =>
      exact List.append_ne_nil_of_left_ne_nil h.ne_nil _

theorem Sequence.parts_ne_nil
    (h : Sequence ts parts) :
    parts ≠ [] := by
  cases h <;> simp

theorem Choice.parts_ne_nil
    (h : Choice ts parts) :
    parts ≠ [] := by
  cases h <;> simp

end Sequences

end Selector
end LineScopes
