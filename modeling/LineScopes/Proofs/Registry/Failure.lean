import LineScopes.Proofs.Grammar.Completeness
import LineScopes.Proofs.Registry.Operations
import LineScopes.Proofs.Selector.Printed

/-!
# Operations that fail

A change of the theme that fails leaves the registry as it was. An addition stores the document
before the grammar is compiled, so one that fails is half made: the document and the injection list
of its scope are replaced, and the grammar that was compiled before is gone. All other scopes are
untouched. Operations that ask for nothing of the scope are answered as if the addition had not been
made, and so is everything from the moment when a grammar of the scope is added again.

**Main statements.** `agreeOff_add_of_error`: what a failing addition leaves.
`answers_after_failure`: what is answered afterwards. `add_of_error_loses`: the grammar that was
there is not available any more, neither by itself nor to those that include it.
-/

namespace LineScopes

namespace Registry

section Failing

variable {r : Registry} {g : RawGrammar} {injected : List String} {e : Error}

/-- An addition that fails leaves the document without a grammar. -/
theorem add_of_error
    (h : (add g injected r).2.outcome = .error e) :
    (add g injected r).1 = r.stored g injected := by
  rw [add_eq] at h ⊢
  dsimp only at h ⊢
  rw [h]

/-- An addition that fails changes nothing but its scope. -/
theorem agreeOff_add_of_error
    (h : (add g injected r).2.outcome = .error e) :
    AgreeOff (· = g.scopeName) r (add g injected r).1 := by
  rw [add_of_error h]
  refine ⟨rfl, rfl, rfl, fun scope hscope => ?_, fun scope hscope => ?_, fun scope hscope => ?_⟩
  · exact (Library.get?_insert_of_ne _ (Ne.symm hscope)).symm
  · exact (injectedInto_stored_of_ne r g injected hscope).symm
  · exact (lookup_filter_of_ne hscope _).symm

end Failing

/-- Operations that ask for nothing of a scope add no grammar of it. -/
theorem Spares.scopeName
    {off : String → Prop}
    {r : Registry}
    {operations : List Operation}
    (h : r.Spares off operations)
    {g : RawGrammar}
    {injected : List String}
    (hg : .add g injected ∈ operations) :
    ¬ off g.scopeName := by
  induction operations generalizing r with
  | nil =>
      cases hg
  | cons o rest ih =>
      obtain ⟨ho, hrest⟩ := h
      rcases List.mem_cons.mp hg with rfl | hg
      · exact ho g.scopeName .base
      · exact ih hrest hg

/-- A failing change of the theme changes nothing. After a failing addition everything that asks for
nothing of its scope is answered as if the addition had not been made, and so is everything once a
grammar of the scope is added again, with an injection list unless the failing one had none. -/
theorem answers_after_failure
    (r : Registry) :
    (∀ document colorMap e, (setTheme document colorMap r).2.outcome = .error e →
      (setTheme document colorMap r).1 = r) ∧
    ∀ g injected e, (add g injected r).2.outcome = .error e →
      ∀ operations, r.Spares (· = g.scopeName) operations →
        (add g injected r).1.answers operations = r.answers operations ∧
        ∀ h list rest, h.scopeName = g.scopeName → (list = [] → injected = []) →
          (add g injected r).1.answers (operations ++ .add h list :: rest) =
            r.answers (operations ++ .add h list :: rest) := by
  refine ⟨fun document colorMap e he => ?_, fun g injected e he operations hspares => ?_⟩
  · rw [setTheme_eq] at he ⊢
    cases htheme : Theme.ofDocument (some document) colorMap with
    | ok theme =>
        simp [htheme, Except.map] at he
    | error e =>
        rfl
  · obtain ⟨hanswers, hagree⟩ := (agreeOff_add_of_error he).answers hspares
    refine ⟨hanswers.symm, fun h list rest hscope hempty => ?_⟩
    -- the operations in between leave the injection list of the scope
    have hkept : ∀ r : Registry, (r.after operations).injectedInto h.scopeName =
        r.injectedInto h.scopeName :=
      injectedInto_after_of_ne fun g' injected' hmem heq =>
        hspares.scopeName hmem (heq.trans hscope)
    have hlist : (r.after operations).inForce h list =
        ((add g injected r).1.after operations).inForce h list := by
      cases list with
      | cons s rest =>
          rfl
      | nil =>
          have hstored : (add g injected r).1.injectedInto h.scopeName =
              r.injectedInto h.scopeName := by
            rw [add_of_error he, hscope, injectedInto_stored_self, hempty rfl]
            rfl
          simp only [inForce, List.isEmpty_nil, if_true, hkept, hstored]
    obtain ⟨hadd, hall⟩ := hagree.add hlist fun scope hne _ heq => hne (heq.trans hscope.symm)
    have hrest := (hall.mono fun scope hoff => hoff.2 (hoff.1.trans hscope.symm)).answers_of_all rest
    rw [answers_append, answers_append, hanswers]
    simp only [Registry.answers, Operation.run, Prod.map, id]
    rw [hadd, hrest]

section Words

/-- A registry with the default options. -/
def blank : Registry where
  loader := none
  engine := regexEngine
  options := {}
  theme := .plain
  library := .empty
  injections := []
  compiled := []
  loads := []
  asked := []

theorem ofOptions_default :
    ofOptions {} = .ok blank := by
  simp only [ofOptions, Theme.ofDocument_none]
  rfl

/-- A registry that knows the grammar of words. -/
def worded : Registry :=
  blank.after [.add wordGrammar []]

/-- A grammar of words whose selector is not closed. -/
def brokenWords : RawGrammar where
  scopeName := "source.word"
  injections := some [("(", {})]

open Selector in
theorem parseSelector_lparen :
    parseSelector "(" = .error (.badSelector "(" .unclosedGroup) := by
  have htokens : tokens "(" = [.lparen] := by
    have hscan := scanTokens_of_not_startsWord (c := '(') (by decide) []
    rw [scanTokens] at hscan
    exact hscan
  simp [parseSelector, parse, htokens, alternatives, Selector.sequence, operand, groupBody,
    priority?, bind, Except.bind, pure, Except.pure, throw, throwThe, MonadExceptOf.throw]

theorem add_brokenWords
    (r : Registry) :
    ∃ e, (add brokenWords [] r).2.outcome = .error e := by
  cases h : (add brokenWords [] r).2.outcome with
  | error e =>
      exact ⟨e, rfl⟩
  | ok c =>
      obtain ⟨-, hread⟩ := (add_ok_iff r brokenWords []).mp ⟨c, h⟩
      obtain ⟨alternatives, hparse⟩ : Readable "(" := hread _ List.mem_cons_self
      rw [parseSelector_lparen] at hparse
      cases hparse

/-- Pages do without words, and words are as good as new once they are added again. -/
theorem answers_after_failure_words :
    ∃ e, (add brokenWords [] worded).2.outcome = .error e ∧
      worded.Spares (· = "source.word") [.colors, .grammar "text.page"] ∧
      (add brokenWords [] worded).1.answers [.colors, .grammar "text.page"] =
        worded.answers [.colors, .grammar "text.page"] ∧
      (add brokenWords [] worded).1.answers
          [.colors, .grammar "text.page", .add wordGrammar [], .add codeGrammar []] =
        worded.answers
          [.colors, .grammar "text.page", .add wordGrammar [], .add codeGrammar []] ∧
      (setTheme {} (some []) worded).2.outcome = .error (.missingColor "#000000") ∧
      (setTheme {} (some []) worded).1 = worded := by
  obtain ⟨e, hfails⟩ := add_brokenWords worded
  have hspares : worded.Spares (· = "source.word") [.colors, .grammar "text.page"] :=
    ⟨trivial, (by decide : "text.page" ≠ "source.word"), trivial⟩
  have htheme : (setTheme {} (some []) worded).2.outcome = .error (.missingColor "#000000") := by
    decide +kernel
  obtain ⟨hchange, hadd⟩ := answers_after_failure worded
  obtain ⟨hanswers, hagain⟩ := hadd brokenWords [] _ hfails _ hspares
  exact ⟨e, hfails, hspares, hanswers, hagain wordGrammar [] [.add codeGrammar []] rfl id, htheme,
    hchange {} (some []) _ htheme⟩

/-- The grammar of words is gone after a failing addition, although it was there before, and a
grammar that includes it is compiled without it. -/
theorem add_of_error_loses :
    ofOptions {} = .ok blank ∧ worded = blank.after [.add wordGrammar []] ∧
      (∃ e, (add brokenWords [] worded).2.outcome = .error e) ∧
      (worded.grammar? "source.word").isSome ∧
      (add brokenWords [] worded).1.grammar? "source.word" = none ∧
      (add brokenWords [] worded).1.answers [.grammar "source.word"] ≠
        worded.answers [.grammar "source.word"] ∧
      ((add codeGrammar [] worded).2.outcome.map fun c => c.rules.size) = .ok 4 ∧
      ((add codeGrammar [] (add brokenWords [] worded).1).2.outcome.map fun c => c.rules.size) =
        .ok 3 := by
  obtain ⟨e, hfails⟩ := add_brokenWords worded
  have hthere : (worded.grammar? "source.word").isSome := by
    decide +kernel
  have hgone : (add brokenWords [] worded).1.grammar? "source.word" = none := by
    rw [add_of_error hfails]
    exact lookup_filter_self _ _
  refine ⟨ofOptions_default, rfl, ⟨e, hfails⟩, hthere, hgone, fun heq => ?_, by decide +kernel, ?_⟩
  · have hsame := (List.cons.inj heq).1
    simp only [Operation.run, hgone, Answer.grammar.injEq] at hsame
    rw [← hsame] at hthere
    cases hthere
  · rw [add_of_error hfails]
    decide +kernel

end Words

end Registry

end LineScopes
