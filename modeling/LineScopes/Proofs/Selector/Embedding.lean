import LineScopes.Proofs.Scan.Choice
import LineScopes.Proofs.Scan.Nesting
import Mathlib.Data.List.NodupEquivFin

/-!
# Names that occur in order

Names are looked for along a path from the outside, each one at the first scope it covers. Taking
the first such scope never spoils a choice of scopes further inward, so the search succeeds if there
is any choice. A longer path has all the choices of a shorter one. A selector without negation
therefore accepts every path that has an accepted path in it, and what it was written for stays in
force in all scopes inside.

**Main definitions.** `Scope.Meets`, `Selector.NegationFree`.

**Main statements.** `embeds_iff_sublistForall₂`: the search succeeds if there is a choice.
`acceptsWith_mono`: by induction on the selector. `embeds_iff_and_stays`: names at places of a path,
and selectors, injections and overrides in nested scopes.
-/

namespace LineScopes

section Choice

variable {α β : Type} {R : α → β → Prop} {a : α} {as : List α} {b : β} {bs : List β}

/-- A choice for a list is one for the rest of the list, further inward than any first element. -/
theorem sublistForall₂_of_cons_cons
    (h : List.SublistForall₂ R (a :: as) (b :: bs)) :
    List.SublistForall₂ R as bs := by
  cases h with
  | cons _ h =>
      exact h
  | cons_right h =>
      obtain ⟨chosen, hchosen, hsublist⟩ := List.sublistForall₂_iff.mp h
      cases hchosen with
      | cons _ hrest =>
          exact List.sublistForall₂_iff.mpr ⟨_, hrest, (List.sublist_cons_self _ _).trans hsublist⟩

/-- A longer list has the choices of a shorter one. -/
theorem sublistForall₂_of_sublist
    {bs' : List β}
    (h : List.SublistForall₂ R as bs)
    (hsublist : bs.Sublist bs') :
    List.SublistForall₂ R as bs' := by
  obtain ⟨chosen, hchosen, hinner⟩ := List.sublistForall₂_iff.mp h
  exact List.sublistForall₂_iff.mpr ⟨chosen, hchosen, hinner.trans hsublist⟩

/-- A choice is made by increasing places. -/
theorem sublistForall₂_iff_places :
    List.SublistForall₂ R as bs ↔
      ∃ place : Fin as.length → Fin bs.length, StrictMono place ∧ ∀ i, R as[i] bs[place i] := by
  rw [List.sublistForall₂_iff]
  constructor
  · rintro ⟨chosen, hchosen, hsublist⟩
    obtain ⟨place, hplace⟩ := List.sublist_iff_exists_fin_orderEmbedding_get_eq.mp hsublist
    obtain ⟨hlength, hmeets⟩ := List.forall₂_iff_get.mp hchosen
    refine ⟨fun i => place (i.cast hlength), ?_, fun i => ?_⟩
    · exact place.strictMono.comp (Fin.cast_strictMono hlength)
    · have h := hmeets i i.isLt (hlength ▸ i.isLt)
      rwa [show chosen.get ⟨i, _⟩ = _ from hplace (i.cast hlength)] at h
  · rintro ⟨place, hmono, hmeets⟩
    refine ⟨List.ofFn fun i => bs[place i], ?_, ?_⟩
    · refine List.forall₂_iff_get.mpr ⟨by simp, fun i hi hi' => ?_⟩
      simpa using hmeets ⟨i, hi⟩
    · refine List.sublist_iff_exists_fin_orderEmbedding_get_eq.mpr
        ⟨OrderEmbedding.ofStrictMono (fun i => place (i.cast (by simp))) ?_, fun i => ?_⟩
      · exact hmono.comp (Fin.cast_strictMono _)
      · exact List.get_ofFn _ i

end Choice

namespace Scope

/-- A scope is found for an identifier; an empty scope never is. -/
def Meets (identifier scope : String) : Prop :=
  scope ≠ "" ∧ covers identifier scope = true

/-- The search for names succeeds if each of them has a scope, in order. -/
theorem embeds_iff_sublistForall₂
    {identifiers scopes : List String} :
    embeds identifiers scopes = true ↔ List.SublistForall₂ Meets identifiers scopes := by
  rw [embeds_eq_walks]
  fun_induction walks identifiers scopes with
  | case1 scopes =>
      simp [List.SublistForall₂.nil]
  | case2 i is =>
      simp [List.sublistForall₂_iff]
  | case3 i is s ss hmeets ih =>
      have hfirst : Meets i s := by
        simpa [Meets] using hmeets
      -- whatever scope was chosen for the name, the first one does as well
      exact ih.trans ⟨.cons hfirst, sublistForall₂_of_cons_cons⟩
  | case4 i is s ss hmeets ih =>
      have hfirst : ¬ Meets i s := by
        simpa [Meets] using hmeets
      refine ih.trans ⟨.cons_right, fun h => ?_⟩
      cases h with
      | cons hs _ =>
          exact absurd hs hfirst
      | cons_right h =>
          exact h

theorem embeds_of_sublist
    {identifiers scopes inner : List String}
    (hsublist : scopes.Sublist inner)
    (h : embeds identifiers scopes = true) :
    embeds identifiers inner = true :=
  embeds_iff_sublistForall₂.mpr
    (sublistForall₂_of_sublist (embeds_iff_sublistForall₂.mp h) hsublist)

end Scope

namespace Selector

/-- A selector without negation. -/
inductive NegationFree : Selector → Prop
  | names
      (ids : List String) :
      NegationFree (.names ids)
  | all
      {parts : List Selector}
      (hparts : ∀ s ∈ parts, NegationFree s) :
      NegationFree (.all parts)
  | any
      {parts : List Selector}
      (hparts : ∀ s ∈ parts, NegationFree s) :
      NegationFree (.any parts)

/-- A selector that is one list of names. -/
def isNames : Selector → Bool
  | .names _ => true
  | .all _ => false
  | .any _ => false
  | .not _ => false

theorem NegationFree.of_isNames
    {s : Selector}
    (h : s.isNames = true) :
    s.NegationFree := by
  cases s with
  | names ids =>
      exact .names ids
  | all _ | any _ | not _ =>
      cases h

/-- A selector without negation accepts more if more lists of names occur. -/
theorem acceptsWith_mono
    {s : Selector}
    (hs : s.NegationFree)
    {test test' : List String → Bool}
    (htest : ∀ ids, test ids = true → test' ids = true)
    (h : s.acceptsWith test = true) :
    s.acceptsWith test' = true := by
  induction hs with
  | names ids =>
      exact htest ids h
  | all _ ih =>
      rw [acceptsWith, acceptsAll_eq_all, List.all_eq_true] at h ⊢
      exact fun part hpart => ih part hpart (h part hpart)
  | any _ ih =>
      rw [acceptsWith, acceptsAny_eq_any, List.any_eq_true] at h ⊢
      obtain ⟨part, hpart, haccepts⟩ := h
      exact ⟨part, hpart, ih part hpart haccepts⟩

theorem accepts_of_sublist
    {s : Selector}
    (hs : s.NegationFree)
    {scopes inner : List String}
    (hsublist : scopes.Sublist inner)
    (h : s.accepts scopes = true) :
    s.accepts inner = true :=
  acceptsWith_mono hs (fun _ => Scope.embeds_of_sublist hsublist) h

end Selector

/-- The scopes of a frame stand inside those of every frame under it. -/
theorem State.Stacked.pairwise
    {g : Grammar}
    {whole : Bool}
    {root : ScopeList}
    {state : State}
    (h : state.Stacked g whole root) :
    state.frames.Pairwise fun f below => f.contentScopes.Extends below.contentScopes := by
  obtain ⟨top, below⟩ := state
  induction below generalizing top with
  | nil =>
      exact List.pairwise_singleton _ top
  | cons b rest ih =>
      have hrest : (State.mk b rest).frames.Pairwise _ := ih b h.2.2
      have hsits := h.1.content.trans h.1.name
      refine List.pairwise_cons.mpr ⟨fun f hf => ?_, hrest⟩
      rcases List.mem_cons.mp hf with rfl | hf
      · exact hsits
      · exact hsits.trans (List.rel_of_pairwise_cons hrest hf)

/-- Names are found along a path if there are places for them: increasing ones, each with a scope
that is not empty and that the name covers. So a selector without negation that accepts a path
accepts every path with this one in it; on a stack, an injection with such a selector that competes
under the scopes of a frame competes under those of every frame above, and an override goes on to
give its type. -/
theorem embeds_iff_and_stays :
    (∀ identifiers scopes : List String,
      Scope.embeds identifiers scopes = true ↔
        ∃ place : Fin identifiers.length → Fin scopes.length, StrictMono place ∧
          ∀ i, scopes[place i] ≠ "" ∧ Scope.covers identifiers[i] scopes[place i] = true) ∧
      (∀ {s : Selector}, s.NegationFree → ∀ {scopes inner : List String}, scopes.Sublist inner →
        s.accepts scopes = true → s.accepts inner = true) ∧
      ∀ {g : Grammar} {whole : Bool} {root : ScopeList} {state : State},
        state.Stacked g whole root →
          state.frames.Pairwise fun f below =>
            (∀ {p place i m}, i.selector.NegationFree →
              Injects g p below.contentScopes.names g.injections place i m →
              Injects g p f.contentScopes.names g.injections place i m) ∧
            ∀ {o : TokenTypeOverride}, o.selector.NegationFree →
              o.selector.accepts below.contentScopes.names = true →
              ∀ m, o.apply f.contentScopes.names m = m.update { type := some o.type } := by
  refine ⟨fun identifiers scopes => ?_, Selector.accepts_of_sublist, fun hstacked => ?_⟩
  · exact Scope.embeds_iff_sublistForall₂.trans sublistForall₂_iff_places
  · refine hstacked.pairwise.imp fun hextends => ⟨?_, ?_⟩
    · intro p place i m hfree h
      exact ⟨h.listed, Selector.accepts_of_sublist hfree hextends.names.sublist h.accepts, h.found⟩
    · intro o hfree haccepts m
      exact if_pos (Selector.accepts_of_sublist hfree hextends.names.sublist haccepts)

/-- The grammar's own scope, and a string in it. -/
def stringStack : State :=
  let a : Attribution := ⟨{ initial := 0, embedded := [] }, .plain⟩
  let source := ScopeList.empty.push a "source"
  let string := source.push a "string.quoted"
  (State.root source).push (.entered 1 none none false string string)

/-- A script in a page, in embedded text. -/
def pageScript : Selector :=
  .all [.names ["text.html", "source"], .any [.names ["meta"]]]

/-- A page with a script in it is found in a nested path as well, and the injected letter competes in
a string as it does outside. -/
theorem embeds_iff_and_stays_string :
    (∃ place : Fin 2 → Fin 3, StrictMono place ∧
      ∀ i, ["text.html.basic", "meta", "source.js"][place i] ≠ "" ∧
        Scope.covers ["text.html", "source"][i] ["text.html.basic", "meta", "source.js"][place i]) ∧
      pageScript.NegationFree ∧
      pageScript.accepts ["text.html.basic", "meta", "source.js"] = true ∧
      pageScript.accepts ["text.html.basic", "", "meta", "source.js", "string"] = true ∧
      ∃ (g : Grammar) (root : ScopeList) (p : ScanPoint) (i : Injection) (m : PatternMatch),
        (Grammar.compile tie).outcome = .ok g ∧ stringStack.Stacked g false root ∧
          i.selector.NegationFree ∧
          Injects g p ["source"] g.injections 0 i m ∧
          Injects g p ["source", "string.quoted"] g.injections 0 i m := by
  have hscript : pageScript.NegationFree := by
    refine .all (List.forall_mem_cons.mpr ⟨.names _, List.forall_mem_singleton.mpr ?_⟩)
    exact .any (List.forall_mem_singleton.mpr (.names _))
  have hmeta : pageScript.accepts ["text.html.basic", "meta", "source.js"] = true := by
    decide
  refine ⟨(embeds_iff_and_stays.1 ["text.html", "source"]
    ["text.html.basic", "meta", "source.js"]).mp (by decide), hscript, hmeta, ?_, ?_⟩
  · exact embeds_iff_and_stays.2.1 hscript (by decide) hmeta
  · let p : ScanPoint := ⟨"a word\n", true, 0, none⟩
    let m : PatternMatch := ⟨.rule 2, 2, 3, [some ⟨2, 3⟩]⟩
    have hscan : (Grammar.compile tie).outcome.map (fun g =>
        g.injections[0]?.map fun i =>
          (i.selector.isNames, i.selector.accepts ["source"], (g.sets.inside i.rule).findAt p)) =
        .ok (some (true, true, .ok (some m))) := by
      rw [Grammar.compile, Grammar.compileRules_of_single rfl rfl parseSelector_source]
      decide +kernel
    obtain ⟨g, hg, hfound⟩ := exists_of_map_eq_ok hscan
    obtain ⟨i, hlisted, hi⟩ := Option.map_eq_some_iff.mp hfound
    obtain ⟨hnames, hi⟩ := Prod.mk.inj hi
    obtain ⟨haccepts, hmatch⟩ := Prod.mk.inj hi
    have hfree : i.selector.NegationFree := .of_isNames hnames
    have hstacked : stringStack.Stacked g false stringStack.bottom.contentScopes :=
      ⟨⟨ScopeList.extends_push _ _ _, .refl _⟩, fun h => absurd h Bool.false_ne_true,
        ⟨rfl, rfl, rfl, rfl⟩⟩
    have houter : Injects g p ["source"] g.injections 0 i m := ⟨hlisted, haccepts, hmatch⟩
    have hstays := List.rel_of_pairwise_cons (embeds_iff_and_stays.2.2 hstacked)
      (List.mem_singleton_self _)
    exact ⟨g, _, p, i, m, hg, hstacked, hfree, houter, hstays.1 hfree houter⟩

end LineScopes
