import LineScopes.Proofs.Grammar.Discovery

/-!
# Nothing that is available is missing

What the rounds load is enough to compile the initial grammar: every include is resolved as if
everything available had been loaded. This needs grammars in which the walk and the compiler read
includes alike. A rule asked for by name that the root patterns do not lead to, the name `$self`, and
a repository inside a rule with a pattern of its own each make a compilation miss a grammar.

**Main definitions.** `Library.keys`, `missingIncludes`, `Incomplete`.

**Main statements.** `compileTarget_discovered`. `incomplete_discovery`.
-/

namespace LineScopes

/-- What the rules and root patterns of a library are known by. -/
def Library.keys (l : Library) : List (RuleAddress ⊕ String) :=
  l.grammars.flatMap fun g => .inr g.scopeName :: g.sites.map fun x => .inl x.2.address

theorem length_keys_le
    (l : Library) :
    l.keys.length ≤ l.size := by
  obtain ⟨gs⟩ := l
  simp only [Library.keys, Library.size]
  induction gs with
  | nil =>
      exact Nat.le_refl 0
  | cons g rest ih =>
      have hsites := length_sites_le g
      simp only [List.flatMap_cons, List.length_append, List.length_cons, List.length_map,
        List.foldr_cons]
      omega

theorem mem_keys_of_get?
    {l : Library}
    {scope : String}
    {g : RawGrammar}
    (hg : l.get? scope = some g) :
    .inr g.scopeName ∈ l.keys ∧
      ∀ {s p}, g.Writes s p → .inl p.address ∈ l.keys := by
  have hmem := List.mem_of_find?_eq_some hg
  constructor
  · exact List.mem_flatMap.mpr ⟨g, hmem, List.mem_cons_self⟩
  · intro s p hwritten
    refine List.mem_flatMap.mpr ⟨g, hmem, List.mem_cons_of_mem _ ?_⟩
    exact List.mem_map.mpr ⟨_, mem_sites hwritten, rfl⟩

/-- A compilation starts with room for everything in its library. -/
theorem unknown_lt_compileBound
    (sources : Sources) :
    Build.unknown sources.library.keys {} < compileBound sources := by
  have hcount : Build.unknown sources.library.keys {} ≤ sources.library.keys.length :=
    List.countP_le_length
  have hkeys := length_keys_le sources.library
  unfold compileBound
  omega

section Compiling

variable {available : Library} {base : RawGrammar} {injected : String → List String}
variable {initial : String} (hregular : available.Regular)
  (hinitial : available.get? initial = some base)
include hregular hinitial

theorem compileTarget_of_discovered
    {loaded : Library}
    {q : Requests}
    {handled : List Request}
    (h : q.Discovered available base loaded handled)
    (hqueue : q.queue = [])
    (hparts : PartsWithin available base q) :
    (compileTarget ⟨loaded, base⟩ (compileBound ⟨loaded, base⟩) (.root base)).run {} =
      (compileTarget ⟨available, base⟩ (compileBound ⟨available, base⟩) (.root base)).run {} := by
  have hbase : available.get? base.scopeName = some base := by
    rw [scopeName_of_get? hinitial, hinitial]
  have hkeys : ∀ t, Target.Reached available loaded base handled t →
      t.key ∈ loaded.keys ∧ t.key ∈ available.keys := by
    intro t ht
    cases t with
    | rule s p =>
        obtain ⟨hs, hp⟩ := ht
        obtain ⟨s₀, hwritten, -⟩ := hs.written
        have hloaded := h.loaded_of_reached hqueue hregular hbase hp
        rw [hs.scope_eq, hs.known] at hloaded
        exact ⟨(mem_keys_of_get? hloaded).2 hwritten, (mem_keys_of_get? hs.known).2 hwritten⟩
    | root g =>
        obtain ⟨hg, hloaded, -⟩ := ht
        exact ⟨(mem_keys_of_get? hloaded).1, (mem_keys_of_get? hg).1⟩
  exact (compileTarget_alike (h.resolveAlike hqueue hregular hbase hparts) hkeys _ _
    (h.root_reached hqueue hbase) {}
    ⟨unknown_lt_compileBound ⟨loaded, base⟩, unknown_lt_compileBound ⟨available, base⟩⟩).1

/-- The rounds end, and what they have loaded is compiled as if everything available had been
loaded: every include is resolved to the same rule, and none more is missing. -/
theorem compileTarget_discovered
    (hinjected : ∀ scope, ∀ scope' ∈ injected scope, '#' ∉ scope'.toList) :
    (∃ loaded q, Rounds available injected initial loaded q ∧ q.queue = []) ∧
      ∀ loaded q, Rounds available injected initial loaded q → q.queue = [] →
        PartsWithin available base q →
        (compileTarget ⟨loaded, base⟩ (compileBound ⟨loaded, base⟩) (.root base)).run {} =
          (compileTarget ⟨available, base⟩ (compileBound ⟨available, base⟩)
            (.root base)).run {} := by
  obtain rfl := scopeName_of_get? hinitial
  constructor
  · exact Rounds.exists_end hregular hinitial hinjected
  · intro loaded q hrounds hqueue hparts
    obtain ⟨handled, h⟩ := hrounds.discovered hregular hinitial hinjected
    exact compileTarget_of_discovered hregular hinitial h hqueue hparts

end Compiling

section Page

/-- A page with a rule in a repository of its own, which includes a part of another grammar. -/
def pageGrammar : RawGrammar :=
  { scopeName := "text.page"
    patterns := [
      { patterns := some [{ reference := some "#call" }]
        repository :=
          some [("call", { patterns := some [{ reference := some "source.code#text" }] })] },
      { reference := some "source.code" }] }

/-- A grammar that is requested in part and as a whole. -/
def codeGrammar : RawGrammar :=
  { scopeName := "source.code"
    patterns := [{ reference := some "#text" }]
    repository := some [("text", {
      beginPattern := some "<"
      endPattern := some ">"
      patterns := some [{ reference := some "source.word" }, { reference := some "$base" }] })] }

/-- A grammar that includes nothing. -/
def wordGrammar : RawGrammar :=
  { scopeName := "source.word"
    patterns := [{ matchPattern := some "w" }] }

/-- The three grammars. -/
def pageLibrary : Library :=
  ⟨[pageGrammar, codeGrammar, wordGrammar]⟩

/-- No grammar is injected into another one. -/
def noInjections (_ : String) : List String :=
  []

/-- What has been requested once the rounds have ended. -/
def pageRequests : Requests :=
  ⟨"text.page", ["source.word", "source.code", "text.page"], ["source.code#text"], []⟩

theorem pageLibrary_regular :
    pageLibrary.Regular := by
  refine regular_of_grammars fun g hg => ?_
  rcases (by simpa [pageLibrary] using hg :
    g = pageGrammar ∨ g = codeGrammar ∨ g = wordGrammar) with rfl | rfl | rfl
  · exact regular_of_sites (by decide +kernel) (by decide +kernel)
  · exact regular_of_sites (by decide +kernel) (by decide +kernel)
  · exact regular_of_sites (by decide +kernel) (by decide +kernel)

theorem exists_rounds_page :
    ∃ loaded, Rounds pageLibrary noInjections "text.page" loaded pageRequests := by
  have hfirst : Rounds pageLibrary noInjections "text.page" _
      ⟨"text.page", ["source.code", "text.page"], ["source.code#text"],
        [.part "source.code" "text", .whole "source.code"]⟩ :=
    .round .start (by decide +kernel)
  have hsecond : Rounds pageLibrary noInjections "text.page" _
      ⟨"text.page", ["source.word", "source.code", "text.page"], ["source.code#text"],
        [.whole "source.word"]⟩ :=
    .round hfirst (by decide +kernel)
  exact ⟨_, .round hsecond (by decide +kernel)⟩

/-- The only part that is requested is included by the root patterns of its grammar. -/
theorem partsWithin_page :
    PartsWithin pageLibrary pageGrammar pageRequests := by
  intro p target scope name g hscope hasks hg htarget
  have hrequested : Requested pageLibrary pageGrammar noInjections (.part scope name) :=
    .asked hasks
  have hpossible : possibleRequests pageLibrary pageGrammar noInjections =
      [.part "source.code" "text", .whole "source.code", .whole "source.word"] := by
    decide +kernel
  have hmem := mem_possibleRequests hrequested
  rw [hpossible] at hmem
  obtain ⟨rfl, rfl⟩ : scope = "source.code" ∧ name = "text" := by
    simpa using hmem
  obtain rfl : codeGrammar = g := Option.some.inj hg
  let first : PlacedRule := ⟨⟨"source.code", [.pattern 0]⟩, { reference := some "#text" }⟩
  have hfirst : first ∈ rootRules codeGrammar := by
    simp [rootRules, placedPatterns, codeGrammar, first, RuleAddress.step]
  have hrefers : first.RefersTo (.named "text") := by
    unfold PlacedRule.RefersTo
    decide +kernel
  have hserves : (Surroundings.root codeGrammar).Serves pageLibrary first :=
    Surroundings.serves_root rfl (mem_children_of_mem_rootRules hfirst)
  have hfollow : followReference pageGrammar (.root codeGrammar) (.named "text") =
      .inl (.root codeGrammar, [target]) := by
    simp [followReference, htarget]
  exact ⟨first, hfirst, .single (.follow hserves hrefers hfollow List.mem_cons_self)⟩

/-- All three grammars are loaded, and compiled as if they had been known from the beginning. -/
theorem compileTarget_discovered_page :
    pageLibrary.Regular ∧ PartsWithin pageLibrary pageGrammar pageRequests ∧
      ∃ loaded, Rounds pageLibrary noInjections "text.page" loaded pageRequests ∧
      (compileTarget ⟨loaded, pageGrammar⟩ (compileBound ⟨loaded, pageGrammar⟩)
          (.root pageGrammar)).run {} =
        (compileTarget ⟨pageLibrary, pageGrammar⟩ (compileBound ⟨pageLibrary, pageGrammar⟩)
          (.root pageGrammar)).run {} := by
  obtain ⟨loaded, hrounds⟩ := exists_rounds_page
  refine ⟨pageLibrary_regular, partsWithin_page, loaded, hrounds, ?_⟩
  exact (compileTarget_discovered pageLibrary_regular rfl (by simp [noInjections])).2 loaded
    pageRequests hrounds rfl partsWithin_page

end Page

section Incomplete

/-- How many includes a compilation could not resolve. -/
def missingIncludes (sources : Sources) : Nat :=
  ((compileTarget sources (compileBound sources) (.root sources.base)).run {}).2.missing

/-- The rounds end, and yet more includes are missing with what they have loaded than with everything
that is available. -/
def Incomplete
    (available : Library)
    (initial : String) : Prop :=
  ∃ base loaded q, available.get? initial = some base ∧
    Rounds available noInjections initial loaded q ∧ q.queue = [] ∧
    missingIncludes ⟨available, base⟩ < missingIncludes ⟨loaded, base⟩

/-- The grammar `b` is requested as a whole, and its rule `x`, which the root patterns do not include,
by name. -/
def strayPartLibrary : Library :=
  ⟨[{ scopeName := "a"
      patterns := [{ reference := some "b" }, { reference := some "b#x" }] },
    { scopeName := "b"
      patterns := [{ matchPattern := some "y" }]
      repository := some [("x", { patterns := some [{ reference := some "c" }] })] },
    { scopeName := "c"
      patterns := [{ matchPattern := some "z" }] }]⟩

/-- The rule `x` of the grammar `e` includes the root patterns as if they had the name `$self`. -/
def namedSelfLibrary : Library :=
  ⟨[{ scopeName := "d"
      patterns := [{ reference := some "e#x" }] },
    { scopeName := "e"
      patterns := [{ reference := some "f" }]
      repository := some [("x", { patterns := some [{ reference := some "#$self" }] })] },
    { scopeName := "f"
      patterns := [{ matchPattern := some "z" }] }]⟩

/-- A region of the grammar `g` has a repository, where the walk finds `x` and the compiler does not
look for it. -/
def regionRepositoryLibrary : Library :=
  ⟨[{ scopeName := "g"
      patterns := [{
        beginPattern := some "q"
        endPattern := some "r"
        patterns := some [{ reference := some "#x" }]
        repository := some [("x", { matchPattern := some "m" })] }]
      repository := some [("x", { patterns := some [{ reference := some "h" }] })] },
    { scopeName := "h"
      patterns := [{ matchPattern := some "z" }] }]⟩

/-- In each of the three libraries there is a grammar that the rounds do not find. -/
theorem incomplete_discovery :
    Incomplete strayPartLibrary "a" ∧ Incomplete namedSelfLibrary "d" ∧
      Incomplete regionRepositoryLibrary "g" := by
  refine ⟨?_, ?_, ?_⟩
  · have hfirst : Rounds strayPartLibrary noInjections "a" _
        ⟨"a", ["b", "a"], [], [.whole "b"]⟩ :=
      .round .start (by decide +kernel)
    have hsecond : Rounds strayPartLibrary noInjections "a" _ ⟨"a", ["b", "a"], [], []⟩ :=
      .round hfirst (by decide +kernel)
    exact ⟨_, _, _, rfl, hsecond, rfl, by decide +kernel⟩
  · have hfirst : Rounds namedSelfLibrary noInjections "d" _
        ⟨"d", ["d"], ["e#x"], [.part "e" "x"]⟩ :=
      .round .start (by decide +kernel)
    have hsecond : Rounds namedSelfLibrary noInjections "d" _ ⟨"d", ["d"], ["e#x"], []⟩ :=
      .round hfirst (by decide +kernel)
    exact ⟨_, _, _, rfl, hsecond, rfl, by decide +kernel⟩
  · have hfirst : Rounds regionRepositoryLibrary noInjections "g" _ ⟨"g", ["g"], [], []⟩ :=
      .round .start (by decide +kernel)
    exact ⟨_, _, _, rfl, hfirst, rfl, by decide +kernel⟩

end Incomplete

end LineScopes
