import LineScopes.Proofs.Rule.Declared
import LineScopes.Proofs.Rule.Needs
import LineScopes.Registry.Basic
import LineScopes.Scan.Line

/-!
# Operations on a registry

Grammars are added and asked for, the theme is changed, lines are tokenized, and each operation
gives an answer. Two registries that agree about everything but some scopes answer alike as long as
no operation touches these scopes. Adding a grammar touches the grammars that its compilation needs.

**Main definitions.** `Operation`, `Registry.answers`, `Registry.after`, `Registry.AgreeOff`,
`Registry.Spares`.

**Main statements.** `add_eq`: what an addition does. `AgreeOff.run`: what one operation preserves.
`AgreeOff.answers`: by induction over the operations.
-/

namespace LineScopes

/-- What can be asked of a registry and of the grammars it gave. -/
inductive Operation where
  | add (g : RawGrammar) (injected : List String)
  | setTheme (document : ThemeDocument) (colorMap : Option (List String))
  | grammar (scope : String)
  | colors
  | tokenize (g : Grammar) (nesting : Nat) (line : String) (state : State) (limit : TimeLimit)
  | encode (g : Grammar) (nesting : Nat) (line : String) (state : State) (limit : TimeLimit)

/-- What is answered, with all that is reported. -/
inductive Answer where
  | added (result : Reported Grammar)
  | themed (result : Reported Unit)
  | grammar (found : Option Grammar)
  | colors (found : List String)
  | tokens (result : Reported TokenizedLine)
  | runs (result : Reported EncodedLine)

section Entries

variable {α : Type} {key key' : String}

theorem lookup_filter_self
    (key : String)
    (entries : List (String × α)) :
    (entries.filter (·.1 ≠ key)).lookup key = none := by
  refine List.lookup_eq_none_iff.mpr fun e he => ?_
  have hne : e.1 ≠ key := by simpa using (List.mem_filter.mp he).2
  exact bne_iff_ne.mpr hne.symm

theorem lookup_filter_of_ne
    (h : key ≠ key')
    (entries : List (String × α)) :
    (entries.filter (·.1 ≠ key')).lookup key = entries.lookup key := by
  induction entries with
  | nil =>
      rfl
  | cons e rest ih =>
      obtain ⟨k, value⟩ := e
      by_cases hk : k = key'
      · subst hk
        have hne : (key == k) = false := by simpa using h
        rw [List.lookup_cons, hne]
        simpa using ih
      · simp only [List.filter_cons, hk, ne_eq, not_false_eq_true, decide_true, if_true,
          List.lookup_cons]
        rw [ih]

@[simp] theorem lookup_putFirst_self
    (key : String)
    (value : α)
    (entries : List (String × α)) :
    (putFirst key value entries).lookup key = some value := by
  simp [putFirst]

theorem lookup_putFirst_of_ne
    (h : key ≠ key')
    (value : α)
    (entries : List (String × α)) :
    (putFirst key' value entries).lookup key = entries.lookup key := by
  have hne : (key == key') = false := by simpa using h
  rw [putFirst, List.lookup_cons, hne]
  exact lookup_filter_of_ne h entries

end Entries

namespace Operation

/-- Does an operation. -/
def run : Operation → Registry → Registry × Answer
  | .add g injected, r => (Registry.add g injected r).map id .added
  | .setTheme document colorMap, r => (Registry.setTheme document colorMap r).map id .themed
  | .grammar scope, r => (r, .grammar (r.grammar? scope))
  | .colors, r => (r, .colors r.colors)
  | .tokenize g nesting line state limit, r =>
    (r, .tokens (g.tokenizeLine nesting r.theme line state limit))
  | .encode g nesting line state limit, r =>
    (r, .runs (g.encodeLine nesting r.theme line state limit))

end Operation

namespace Registry

/-- The registry after operations, one after the other. -/
def after
    (r : Registry)
    (operations : List Operation) : Registry :=
  operations.foldl (fun r o => (o.run r).1) r

/-- What operations answer, one after the other. -/
def answers
    (r : Registry) : List Operation → List Answer
  | [] => []
  | o :: rest => (o.run r).2 :: (o.run r).1.answers rest

theorem answers_append
    (r : Registry)
    (first rest : List Operation) :
    r.answers (first ++ rest) = r.answers first ++ (r.after first).answers rest := by
  induction first generalizing r with
  | nil =>
      rfl
  | cons o first ih =>
      simpa [answers, after] using ih (o.run r).1

/-- The grammars that are injected into a grammar once it has been added with a list. -/
def inForce
    (r : Registry)
    (g : RawGrammar)
    (injected : List String) : List String :=
  if injected.isEmpty then r.injectedInto g.scopeName else injected

/-- The registry between the two halves of an addition: the document is stored, and no grammar has
been compiled from it. -/
def stored
    (r : Registry)
    (g : RawGrammar)
    (injected : List String) : Registry :=
  { r with
    library := r.library.insert g
    injections :=
      if injected.isEmpty then r.injections else putFirst g.scopeName injected r.injections
    compiled := r.compiled.filter (·.1 ≠ g.scopeName) }

/-- What a grammar that is added is compiled with. -/
def addRequest
    (r : Registry)
    (g : RawGrammar)
    (injected : List String) : CompileRequest where
  sources := { library := r.library.insert g, base := g }
  injected := r.inForce g injected
  engine := r.engine
  options := r.options

section Stored

variable (r : Registry) (g : RawGrammar) (injected : List String)

theorem injectedInto_stored_self :
    (r.stored g injected).injectedInto g.scopeName = r.inForce g injected := by
  unfold injectedInto stored inForce
  split
  · rfl
  · simp

theorem injectedInto_stored_of_ne
    {scope : String}
    (h : scope ≠ g.scopeName) :
    (r.stored g injected).injectedInto scope = r.injectedInto scope := by
  unfold injectedInto stored
  dsimp only
  split
  · rfl
  · rw [lookup_putFirst_of_ne h]

theorem compileRequest_stored :
    (r.stored g injected).compileRequest g 0 none = r.addRequest g injected := by
  rw [compileRequest, injectedInto_stored_self]
  rfl

/-- The document is stored first; then the grammar is compiled, and kept unless that fails. -/
theorem add_eq :
    add g injected r =
      (match (Grammar.compile (r.addRequest g injected)).outcome with
        | .ok c =>
          { r.stored g injected with
            compiled := putFirst g.scopeName c (r.stored g injected).compiled }
        | .error _ => r.stored g injected,
        ⟨⟨.debug, "[Registry] storing grammar " ++ g.scopeName⟩ ::
            (Grammar.compile (r.addRequest g injected)).entries,
          (Grammar.compile (r.addRequest g injected)).outcome⟩) := by
  have hadd : add g injected r =
      ((compileScope g.scopeName 0 none (r.stored g injected)).1,
        ⟨⟨.debug, "[Registry] storing grammar " ++ g.scopeName⟩ ::
            (compileScope g.scopeName 0 none (r.stored g injected)).2.entries,
          (compileScope g.scopeName 0 none (r.stored g injected)).2.outcome⟩) := by
    unfold stored
    cases injected <;> rfl
  have hnone : (r.stored g injected).compiled.lookup g.scopeName = none :=
    lookup_filter_self g.scopeName r.compiled
  have hsome : (r.stored g injected).library.get? g.scopeName = some g :=
    r.library.get?_insert_self g
  have hcompile : compileScope g.scopeName 0 none (r.stored g injected) =
      (match (Grammar.compile (r.addRequest g injected)).outcome with
        | .ok c =>
          { r.stored g injected with
            compiled := putFirst g.scopeName c (r.stored g injected).compiled }
        | .error _ => r.stored g injected,
        Grammar.compile (r.addRequest g injected)) := by
    unfold compileScope
    simp only [hnone, hsome, compileRequest_stored]
    cases (Grammar.compile (r.addRequest g injected)).outcome <;> rfl
  rw [hadd, hcompile]

/-- An addition succeeds exactly if all captures have room and all selectors that are declared can
be read. -/
theorem add_ok_iff :
    (∃ c, (add g injected r).2.outcome = .ok c) ↔
      (Grammar.compileRules (r.addRequest g injected)).2.overflowed = false ∧
        ∀ d ∈ (r.addRequest g injected).sources.declared (r.inForce g injected), Readable d.1 := by
  rw [add_eq]
  exact Grammar.compile_ok_iff rfl

end Stored

/-- Two registries agree about how grammars are compiled and lines are scanned, and about all scopes
that are not off. -/
structure AgreeOff
    (off : String → Prop)
    (r r' : Registry) : Prop where
  engine : r.engine = r'.engine
  options : r.options = r'.options
  theme : r.theme = r'.theme
  library : ∀ scope, ¬ off scope → r.library.get? scope = r'.library.get? scope
  injectedInto : ∀ scope, ¬ off scope → r.injectedInto scope = r'.injectedInto scope
  grammar? : ∀ scope, ¬ off scope → r.grammar? scope = r'.grammar? scope

/-- An addition comes to the same if the grammars that it needs are the same. -/
theorem compile_addRequest_agree
    {r r' : Registry}
    (hengine : r.engine = r'.engine)
    (hoptions : r.options = r'.options)
    {g : RawGrammar}
    {injected : List String}
    (hlist : r.inForce g injected = r'.inForce g injected)
    (hlibrary : ∀ scope, scope ≠ g.scopeName →
      (r.addRequest g injected).sources.Needs (r.inForce g injected) scope →
      r.library.get? scope = r'.library.get? scope) :
    Grammar.compile (r.addRequest g injected) = Grammar.compile (r'.addRequest g injected) := by
  refine Grammar.compile_agree ⟨rfl, fun scope hneeds => ?_⟩ hlist rfl rfl hengine hoptions
  have hget : (r.library.insert g).get? scope = (r'.library.insert g).get? scope := by
    by_cases hscope : scope = g.scopeName
    · rw [hscope, Library.get?_insert_self, Library.get?_insert_self]
    · rw [Library.get?_insert_of_ne _ (Ne.symm hscope),
        Library.get?_insert_of_ne _ (Ne.symm hscope), hlibrary scope hscope hneeds]
  unfold Sources.grammar? addRequest
  dsimp only
  rw [hget]

namespace AgreeOff

variable {off : String → Prop} {r r' : Registry} (h : AgreeOff off r r')
include h

theorem mono
    {off' : String → Prop}
    (hoff : ∀ scope, off scope → off' scope) :
    AgreeOff off' r r' :=
  ⟨h.engine, h.options, h.theme, fun scope hscope => h.library scope (mt (hoff scope) hscope),
    fun scope hscope => h.injectedInto scope (mt (hoff scope) hscope),
    fun scope hscope => h.grammar? scope (mt (hoff scope) hscope)⟩

theorem keep
    (scope : String)
    (c : Grammar) :
    AgreeOff off { r with compiled := putFirst scope c r.compiled }
      { r' with compiled := putFirst scope c r'.compiled } := by
  refine ⟨h.engine, h.options, h.theme, h.library, h.injectedInto, fun scope' hscope' => ?_⟩
  unfold Registry.grammar?
  by_cases hsame : scope' = scope
  · simp [hsame]
  · rw [lookup_putFirst_of_ne hsame, lookup_putFirst_of_ne hsame]
    exact h.grammar? scope' hscope'

variable {g : RawGrammar} {injected : List String}
variable (hlist : r.inForce g injected = r'.inForce g injected)
include hlist

/-- The scope of the document that is stored is not off any more. -/
theorem stored :
    AgreeOff (fun scope => off scope ∧ scope ≠ g.scopeName) (r.stored g injected)
      (r'.stored g injected) := by
  refine ⟨h.engine, h.options, h.theme, fun scope hscope => ?_, fun scope hscope => ?_,
    fun scope hscope => ?_⟩
  all_goals
    by_cases hsame : scope = g.scopeName
  · subst hsame
    exact (Library.get?_insert_self _ _).trans (Library.get?_insert_self _ _).symm
  · refine (Library.get?_insert_of_ne _ (Ne.symm hsame)).trans (Eq.trans ?_
      (Library.get?_insert_of_ne _ (Ne.symm hsame)).symm)
    exact h.library scope fun hoff => hscope ⟨hoff, hsame⟩
  · rw [hsame, injectedInto_stored_self, injectedInto_stored_self, hlist]
  · rw [injectedInto_stored_of_ne _ _ _ hsame, injectedInto_stored_of_ne _ _ _ hsame]
    exact h.injectedInto scope fun hoff => hscope ⟨hoff, hsame⟩
  · rw [hsame]
    exact (lookup_filter_self _ _).trans (lookup_filter_self _ _).symm
  · refine (lookup_filter_of_ne hsame _).trans (Eq.trans ?_ (lookup_filter_of_ne hsame _).symm)
    exact h.grammar? scope fun hoff => hscope ⟨hoff, hsame⟩

/-- An addition that needs nothing that is off is answered alike. -/
theorem add
    (hneeds : ∀ scope, scope ≠ g.scopeName →
      (r.addRequest g injected).sources.Needs (r.inForce g injected) scope → ¬ off scope) :
    (add g injected r).2 = (add g injected r').2 ∧
      AgreeOff (fun scope => off scope ∧ scope ≠ g.scopeName) (add g injected r).1
        (add g injected r').1 := by
  have hcompile := compile_addRequest_agree h.engine h.options hlist
    fun scope hscope hneeded => h.library scope (hneeds scope hscope hneeded)
  rw [add_eq, add_eq, hcompile]
  refine ⟨rfl, ?_⟩
  cases (Grammar.compile (r'.addRequest g injected)).outcome with
  | ok c =>
      exact (h.stored hlist).keep g.scopeName c
  | error e =>
      exact h.stored hlist

end AgreeOff

end Registry

/-- An operation does not ask for anything that is off. -/
def Operation.Spares
    (off : String → Prop)
    (r : Registry) : Operation → Prop
  | .add g injected =>
    ∀ scope, (r.addRequest g injected).sources.Needs (r.inForce g injected) scope → ¬ off scope
  | .grammar scope => ¬ off scope
  | _ => True

namespace Registry

/-- No operation asks for anything that is off. -/
def Spares
    (off : String → Prop)
    (r : Registry) : List Operation → Prop
  | [] => True
  | o :: rest => o.Spares off r ∧ (o.run r).1.Spares off rest

theorem spares_nothing
    (r : Registry)
    (operations : List Operation) :
    r.Spares (fun _ => False) operations := by
  induction operations generalizing r with
  | nil =>
      trivial
  | cons o rest ih =>
      exact ⟨by cases o <;> simp [Operation.Spares], ih _⟩

/-- A change of the theme changes nothing else, and nothing at all if it fails. -/
theorem setTheme_eq
    (document : ThemeDocument)
    (colorMap : Option (List String))
    (r : Registry) :
    setTheme document colorMap r =
      ({ r with theme := (Theme.ofDocument (some document) colorMap).toOption.getD r.theme },
        ⟨[], (Theme.ofDocument (some document) colorMap).map fun _ => ()⟩) := by
  unfold setTheme
  cases Theme.ofDocument (some document) colorMap <;> rfl

namespace AgreeOff

variable {off : String → Prop} {r r' : Registry}

/-- An operation that asks for nothing that is off is answered alike. -/
theorem run
    (h : AgreeOff off r r')
    {o : Operation}
    (ho : o.Spares off r) :
    (o.run r).2 = (o.run r').2 ∧ AgreeOff off (o.run r).1 (o.run r').1 := by
  cases o with
  | add g injected =>
      have hlist : r.inForce g injected = r'.inForce g injected := by
        unfold inForce
        rw [h.injectedInto g.scopeName (ho g.scopeName .base)]
      obtain ⟨hanswer, hagree⟩ := h.add hlist fun scope _ => ho scope
      exact ⟨congrArg Answer.added hanswer, hagree.mono fun scope hscope => hscope.1⟩
  | setTheme document colorMap =>
      constructor
      · simp only [Operation.run, setTheme_eq, Prod.map]
      · simp only [Operation.run, setTheme_eq, Prod.map, id, h.theme]
        exact ⟨h.engine, h.options, rfl, h.library, h.injectedInto, h.grammar?⟩
  | grammar scope =>
      exact ⟨congrArg Answer.grammar (h.grammar? scope ho), h⟩
  | colors =>
      exact ⟨by simp only [Operation.run, colors, h.theme], h⟩
  | tokenize g line state limit =>
      exact ⟨by simp only [Operation.run, h.theme], h⟩
  | encode g line state limit =>
      exact ⟨by simp only [Operation.run, h.theme], h⟩

/-- Operations that ask for nothing that is off are answered alike. -/
theorem answers
    (h : AgreeOff off r r')
    {operations : List Operation}
    (hoperations : r.Spares off operations) :
    r.answers operations = r'.answers operations ∧
      AgreeOff off (r.after operations) (r'.after operations) := by
  induction operations generalizing r r' with
  | nil =>
      exact ⟨rfl, h⟩
  | cons o rest ih =>
      obtain ⟨ho, hrest⟩ := hoperations
      obtain ⟨hanswer, hagree⟩ := h.run ho
      obtain ⟨hanswers, hlast⟩ := ih hagree hrest
      exact ⟨congrArg₂ List.cons hanswer hanswers, hlast⟩

/-- Where nothing is off, everything is answered alike. -/
theorem answers_of_all
    (h : AgreeOff (fun _ => False) r r')
    (operations : List Operation) :
    r.answers operations = r'.answers operations := by
  exact (h.answers (spares_nothing r operations)).1

end AgreeOff

end Registry

/-- The documents after an operation. -/
def Operation.documents
    (l : Library) : Operation → Library
  | .add g _ => l.insert g
  | _ => l

/-- The injection list of a scope after an operation. A list is kept unless another one is given. -/
def Operation.listed
    (scope : String)
    (list : List String) : Operation → List String
  | .add g injected => if g.scopeName = scope ∧ injected ≠ [] then injected else list
  | _ => list

namespace Registry

/-- What an operation does to the documents and the injection lists, whether it fails or not. -/
theorem stored_run
    (o : Operation)
    (r : Registry) :
    (o.run r).1.library = o.documents r.library ∧
      (∀ scope, (o.run r).1.injectedInto scope = o.listed scope (r.injectedInto scope)) ∧
      (o.run r).1.engine = r.engine ∧ (o.run r).1.options = r.options := by
  cases o with
  | add g injected =>
      have hlisted : ∀ scope, (r.stored g injected).injectedInto scope =
          (Operation.add g injected).listed scope (r.injectedInto scope) := by
        intro scope
        by_cases hscope : scope = g.scopeName
        · rw [hscope, injectedInto_stored_self]
          cases injected <;> simp [inForce, Operation.listed]
        · rw [injectedInto_stored_of_ne r g injected hscope]
          simp [Operation.listed, Ne.symm hscope]
      simp only [Operation.run, Prod.map, id, add_eq]
      split <;> exact ⟨rfl, hlisted, rfl, rfl⟩
  | setTheme document colorMap =>
      have hrun : ((Operation.setTheme document colorMap).run r).1 =
          (setTheme document colorMap r).1 := rfl
      rw [hrun, setTheme_eq]
      exact ⟨rfl, fun _ => rfl, rfl, rfl⟩
  | _ =>
      exact ⟨rfl, fun _ => rfl, rfl, rfl⟩

/-- Documents are replaced one by one, and of the injection lists that are given for a scope the last
one is kept. -/
theorem stored_after
    (operations : List Operation)
    (r : Registry) :
    (r.after operations).library = operations.foldl Operation.documents r.library ∧
      (∀ scope, (r.after operations).injectedInto scope =
        operations.foldl (Operation.listed scope) (r.injectedInto scope)) ∧
      (r.after operations).engine = r.engine ∧ (r.after operations).options = r.options := by
  induction operations generalizing r with
  | nil =>
      exact ⟨rfl, fun _ => rfl, rfl, rfl⟩
  | cons o rest ih =>
      obtain ⟨hlibrary, hlisted, hengine, hoptions⟩ := stored_run o r
      obtain ⟨hlibrary', hlisted', hengine', hoptions'⟩ := ih (o.run r).1
      refine ⟨hlibrary'.trans (by rw [hlibrary]; rfl), fun scope => (hlisted' scope).trans ?_,
        hengine'.trans hengine, hoptions'.trans hoptions⟩
      rw [hlisted]
      rfl

/-- The injection list of a scope stays until a grammar of the scope is added. -/
theorem injectedInto_after_of_ne
    {scope : String}
    {operations : List Operation}
    (h : ∀ g injected, .add g injected ∈ operations → g.scopeName ≠ scope)
    (r : Registry) :
    (r.after operations).injectedInto scope = r.injectedInto scope := by
  rw [(stored_after operations r).2.1]
  refine List.foldlRecOn (motive := fun list => list = r.injectedInto scope) _ _ rfl ?_
  rintro list rfl o ho
  cases o with
  | add g injected =>
      simp [Operation.listed, h g injected ho]
  | _ =>
      rfl

end Registry

end LineScopes
