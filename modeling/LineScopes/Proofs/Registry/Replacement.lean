import LineScopes.Proofs.Registry.Failure

/-!
# A grammar that is added replaces the one before

What an addition gives depends on the document and the list it is given, on the documents of the
other scopes, and on the engine and the options. Nothing of the grammar that was known under the
scope before gets into it, with one exception: an empty list does not replace the list that was
given before. So the injections are those that the document and the list in force declare, and the
list in force is the last one that was given and not empty.

**Main definitions.** `listFor`.

**Main statements.** `injectedInto_history`: the list that a history leaves. `add_replaces`.
`add_keeps_list`: an injection that outlives the grammar it was given for.
-/

namespace LineScopes
namespace Registry

/-- The last injection list that is not empty among those given for a scope. -/
def listFor
    (scope : String)
    (history : List Operation) : List String :=
  history.foldl (Operation.listed scope) []

/-- A registry begins without lists, so the last one that was given is in force. -/
theorem injectedInto_history
    {o : RegistryOptions}
    {start : Registry}
    (h : ofOptions o = .ok start)
    (history : List Operation)
    (scope : String) :
    (start.after history).injectedInto scope = listFor scope history := by
  have hstart : start.injectedInto scope = [] := by
    unfold ofOptions at h
    cases htheme : Theme.ofDocument o.theme o.colorMap with
    | error e =>
        rw [htheme] at h
        cases h
    | ok theme =>
        rw [htheme] at h
        cases h
        rfl
  rw [(stored_after history start).2.1, hstart]
  rfl

/-- Whatever was done before, an addition comes to the same if the documents of the other scopes are
the same, and if its list is not empty or the list given before is the same. A grammar that is
compiled has the injections that its document and the list in force declare, sorted by priority, and
no others. An empty list leaves the last one that was given in force. -/
theorem add_replaces
    {r r' : Registry}
    (hengine : r.engine = r'.engine)
    (hoptions : r.options = r'.options)
    (g : RawGrammar)
    (injected : List String)
    (hothers : ∀ scope, scope ≠ g.scopeName → r.library.get? scope = r'.library.get? scope)
    (hlist : injected = [] → r.injectedInto g.scopeName = r'.injectedInto g.scopeName) :
    (add g injected r).2 = (add g injected r').2 ∧
      (∀ c, (add g injected r).2.outcome = .ok c →
        let request := r.addRequest g injected
        let list := if injected = [] then r.injectedInto g.scopeName else injected
        ∃ declared, Introduces (Grammar.compileRules request).2 (request.sources.declared list)
            declared ∧
          c = Grammar.ofBuild request (Grammar.compileRules request).2
            (Injection.sort declared)) ∧
      ∀ o start history, ofOptions o = .ok start → r = start.after history →
        r.injectedInto g.scopeName = listFor g.scopeName history := by
  have hforce : ∀ r : Registry, r.inForce g injected =
      if injected = [] then r.injectedInto g.scopeName else injected := by
    intro r
    cases injected <;> rfl
  refine ⟨?_, fun c hc => ?_, fun o start history hstart hr => ?_⟩
  · have hsame : r.inForce g injected = r'.inForce g injected := by
      rw [hforce, hforce]
      split
      · rename_i hempty
        exact hlist hempty
      · rfl
    have hcompile := compile_addRequest_agree hengine hoptions hsame
      fun scope hscope _ => hothers scope hscope
    rw [add_eq, add_eq, hcompile]
  · rw [add_eq] at hc
    dsimp only
    rw [← hforce]
    exact Grammar.injections_of_compile rfl hc
  · rw [hr]
    exact injectedInto_history hstart history g.scopeName

section Notes

/-- Notes that want to be injected into other grammars. -/
def noteGrammar : RawGrammar where
  scopeName := "text.note"
  patterns := [{ matchPattern := some "note" }]
  injectionSelector := some "L:source"

theorem length_of_introduces
    {b : Build}
    {t : Target}
    {n : Nat}
    {injections : List Injection}
    (h : Introduces b (List.replicate n ("L:source", t)) injections) :
    injections.length = n := by
  induction n generalizing injections with
  | zero =>
      cases h
      rfl
  | succ n ih =>
      cases h with
      | cons hparse hid hrest =>
          rw [parseSelector_source] at hparse
          cases hparse
          simp [ih hrest]

/-- The root patterns of words and of notes, and the rules in them. -/
def OfNotes : Target → Prop
  | .root g => g = wordGrammar ∨ g = noteGrammar
  | .rule s p => ∃ g, (g = wordGrammar ∨ g = noteGrammar) ∧ s = .root g ∧ p ∈ (Target.root g).items

/-- A rule of words or notes has no groups, refers to nothing and holds nothing. -/
theorem plain_of_ofNotes
    {s : Surroundings}
    {p : PlacedRule}
    (h : OfNotes (.rule s p)) :
    p.rule.reference = none ∧ p.items = [] ∧ p.captures = [(.shared, [])] := by
  obtain ⟨g, rfl | rfl, -, hp⟩ := h
  all_goals
    obtain rfl := List.mem_singleton.mp hp
    exact ⟨rfl, rfl, rfl⟩

/-- From the root patterns of words and notes nothing but their rules is reached. -/
theorem surveys_ofNotes
    {sources : Sources}
    (hknown : ∀ g, g = wordGrammar ∨ g = noteGrammar → sources.Knows g) :
    Surveys sources OfNotes fun _ _ => True := by
  refine ⟨fun {t} ht => ?_, fun {t u} ht hu => ?_, fun _ _ _ => trivial⟩
  · cases t with
    | root g =>
        exact hknown g ht
    | rule s p =>
        obtain ⟨g, hg, rfl, hp⟩ := ht
        exact Target.Within.item (t := .root g) (hknown g hg) hp
  · cases hu with
    | @pattern _ _ q hq hu =>
        cases t with
        | root g =>
            have hplaced : OfNotes (.rule (.root g) q) := ⟨g, ht, rfl, hq⟩
            rw [patternTarget?, (plain_of_ofNotes hplaced).1] at hu
            obtain rfl := Option.some.inj hu
            exact hplaced
        | rule s p =>
            rw [Target.items, (plain_of_ofNotes ht).2.1] at hq
            cases hq
    | capture hcaptures hr _ =>
        rw [(plain_of_ofNotes ht).2.2] at hcaptures
        cases List.mem_singleton.mp hcaptures
        cases hr

/-- Words get an injection for each mention of the notes in the list in force. -/
theorem exists_add_wordGrammar
    {r : Registry}
    (hnotes : r.library.get? "text.note" = some noteGrammar)
    {injected : List String}
    {n : Nat}
    (hlist : r.inForce wordGrammar injected = List.replicate n "text.note") :
    ∃ c, (add wordGrammar injected r).2.outcome = .ok c ∧ c.injections.length = n := by
  have hgrammar : (r.addRequest wordGrammar injected).sources.grammar? "text.note" =
      some noteGrammar := by
    have hget : (r.library.insert wordGrammar).get? "text.note" = some noteGrammar :=
      (Library.get?_insert_of_ne _ (by decide)).trans hnotes
    simp only [Sources.grammar?, addRequest, hget]
  have hdeclared : (r.addRequest wordGrammar injected).sources.declared
      (r.inForce wordGrammar injected) = List.replicate n ("L:source", .root noteGrammar) := by
    rw [hlist]
    change List.filterMap _ (List.replicate n "text.note") = _
    rw [List.filterMap_replicate_of_some]
    rw [hgrammar]
    rfl
  have hread : ∀ d ∈ (r.addRequest wordGrammar injected).sources.declared
      (r.inForce wordGrammar injected), Readable d.1 := by
    rw [hdeclared]
    intro d hd
    obtain rfl := List.eq_of_mem_replicate hd
    exact ⟨_, parseSelector_source⟩
  have hsurveys : Surveys (r.addRequest wordGrammar injected).sources OfNotes fun _ _ => True :=
    surveys_ofNotes fun g hg => hg.elim Or.inl fun hg => hg ▸ knows_of_grammar? hgrammar
  have hfits : (Grammar.compileRules (r.addRequest wordGrammar injected)).2.overflowed = false := by
    refine Grammar.fits_of_surveys _ hsurveys (Or.inl rfl) (fun e he => ?_) fun t ht hlarge => ?_
    · obtain rfl := List.eq_of_mem_replicate (hdeclared ▸ he)
      exact Or.inr rfl
    · cases t with
      | root g =>
          exact hlarge
      | rule s p =>
          obtain ⟨list, hlist, e, he, -⟩ := hlarge
          rw [(plain_of_ofNotes ht).2.2] at hlist
          cases List.mem_singleton.mp hlist
          cases he
  obtain ⟨c, hc⟩ := (add_ok_iff r wordGrammar injected).mpr ⟨hfits, hread⟩
  refine ⟨c, hc, ?_⟩
  rw [add_eq] at hc
  obtain ⟨declared, hintroduces, rfl⟩ := Grammar.injections_of_compile rfl hc
  rw [show (r.addRequest wordGrammar injected).injected = r.inForce wordGrammar injected from rfl,
    hdeclared] at hintroduces
  exact (List.length_mergeSort _).trans (length_of_introduces hintroduces)

/-- Words that are added with notes come out the same after two histories. -/
theorem add_replaces_notes :
    let history : List Operation := [.add wordGrammar [], .add noteGrammar []]
    let history' : List Operation := [.add noteGrammar [], .add wordGrammar ["text.page"]]
    ofOptions {} = .ok blank ∧
      (∀ scope, scope ≠ "source.word" →
        (blank.after history).library.get? scope = (blank.after history').library.get? scope) ∧
      (add wordGrammar ["text.note"] (blank.after history)).2 =
        (add wordGrammar ["text.note"] (blank.after history')).2 ∧
      ∃ c, (add wordGrammar ["text.note"] (blank.after history)).2.outcome = .ok c ∧
        c.injections.length = 1 := by
  intro history history'
  have hothers : ∀ scope, scope ≠ "source.word" →
      (blank.after history).library.get? scope = (blank.after history').library.get? scope := by
    intro scope hscope
    rw [(stored_after history blank).1, (stored_after history' blank).1]
    change ((Library.empty.insert wordGrammar).insert noteGrammar).get? scope =
      ((Library.empty.insert noteGrammar).insert wordGrammar).get? scope
    rw [Library.get?_insert_of_ne (Library.empty.insert noteGrammar) (Ne.symm hscope)]
    by_cases hnote : scope = "text.note"
    · subst hnote
      rfl
    · rw [Library.get?_insert_of_ne _ (Ne.symm hnote), Library.get?_insert_of_ne _ (Ne.symm hscope),
        Library.get?_insert_of_ne _ (Ne.symm hnote)]
  obtain ⟨-, -, hengine, hoptions⟩ := stored_after history blank
  obtain ⟨-, -, hengine', hoptions'⟩ := stored_after history' blank
  obtain ⟨hsame, -⟩ := add_replaces (hengine.trans hengine'.symm) (hoptions.trans hoptions'.symm)
    wordGrammar ["text.note"] hothers (by simp)
  have hnotes : (blank.after history).library.get? "text.note" = some noteGrammar := by
    rw [(stored_after history blank).1]
    rfl
  exact ⟨ofOptions_default, hothers, hsame, exists_add_wordGrammar hnotes rfl⟩

/-- Words that are added with an empty list keep the notes of the words before them, which words that
are new do not have. -/
theorem add_keeps_list :
    let history : List Operation := [.add noteGrammar [], .add wordGrammar ["text.note"]]
    let history' : List Operation := [.add noteGrammar []]
    ofOptions {} = .ok blank ∧
      (∀ scope, scope ≠ "source.word" →
        (blank.after history).library.get? scope = (blank.after history').library.get? scope) ∧
      (∃ c, (add wordGrammar [] (blank.after history)).2.outcome = .ok c ∧
        c.injections.length = 1) ∧
      ∃ c, (add wordGrammar [] (blank.after history')).2.outcome = .ok c ∧
        c.injections.length = 0 := by
  intro history history'
  refine ⟨ofOptions_default, fun scope hscope => ?_, ?_, ?_⟩
  · rw [(stored_after history blank).1, (stored_after history' blank).1]
    exact Library.get?_insert_of_ne _ (Ne.symm hscope)
  · have hnotes : (blank.after history).library.get? "text.note" = some noteGrammar := by
      rw [(stored_after history blank).1]
      rfl
    have hlist : (blank.after history).injectedInto "source.word" = ["text.note"] :=
      injectedInto_history ofOptions_default history "source.word"
    exact exists_add_wordGrammar hnotes (n := 1) hlist
  · have hnotes : (blank.after history').library.get? "text.note" = some noteGrammar := by
      rw [(stored_after history' blank).1]
      rfl
    have hlist : (blank.after history').injectedInto "source.word" = [] :=
      injectedInto_history ofOptions_default history' "source.word"
    exact exists_add_wordGrammar hnotes (n := 0) hlist

end Notes

end Registry

end LineScopes
