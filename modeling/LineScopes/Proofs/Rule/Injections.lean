import LineScopes.Proofs.Rule.Resolution
import LineScopes.Proofs.Rule.Survey

/-!
# Compiling injections

Between two compilations no place of a table waits, so every target can be compiled. The rules of
the injections are compiled one after the other in such tables. Nothing is injected but what the
grammar itself and the grammars of the list declare.

**Main definitions.** `Build.Settled`, `Sources.declared`, `Introduces`, `Injected`.

**Main statements.** `collectInjections_goes`: all injections have rules with numbers, in the order
of their priorities. `collectInjections_alike`: two visitors that do the same collect the same.
-/

namespace LineScopes

/-- A table between two compilations: no place waits. -/
structure Build.Settled
    (sources : Sources)
    (T : Target → Prop)
    (tested : Target → Bool → Prop)
    (room : Nat)
    (b : Build) : Prop where
  sound : Sound sources T tested b
  filled : ∀ id : RuleId, b.rules[id]? ≠ some .pending
  unknown_lt : b.unknown sources.keys < room

namespace Build.Settled

variable {sources : Sources} {T : Target → Prop} {tested : Target → Bool → Prop} {room : Nat}
variable {b c : Build}

/-- In a settled table every target in reach can be compiled. -/
theorem ready
    (h : Build.Settled sources T tested room b)
    {t : Target}
    (ht : T t) :
    Ready sources T tested room b t :=
  ⟨h.sound, ht, fun hid => absurd hid (h.filled _), h.unknown_lt⟩

theorem grows
    (h : Build.Settled sources T tested room b)
    (hgrows : b.Grows c)
    (hsound : Sound sources T tested c) :
    Build.Settled sources T tested room c :=
  ⟨hsound, fun id hid => h.filled id (hgrows.waiting hid),
    Nat.lt_of_le_of_lt (hgrows.unknown_le _) h.unknown_lt⟩

end Build.Settled

section Injections

variable {α β : Type} {P : Build → Prop}

theorem Goes.bind_run
    {b : Build}
    {x : Collecting α}
    {f : α → Collecting β}
    {Q : α → Build → Prop}
    {R : β → Build → Prop}
    (hx : Goes P b x.run fun found c => ∀ a, found = .ok a → Q a c)
    (hf : ∀ a c, b.Grows c → P c → Q a c →
      Goes P c (f a).run fun found d => ∀ a, found = .ok a → R a d) :
    Goes P b (x >>= f).run fun found c => ∀ a, found = .ok a → R a c := by
  rw [ExceptT.run_bind]
  refine Goes.bind hx fun found c hgrows hc hQ => ?_
  cases found with
  | ok a =>
      exact hf a c hgrows hc (hQ a rfl)
  | error e =>
      exact goes_pure hc nofun

theorem Goes.run_lift
    {b : Build}
    {x : Compiling α}
    {Q : α → Build → Prop}
    (hx : Goes P b x Q) :
    Goes P b (liftM x : Collecting α).run fun found c => ∀ a, found = .ok a → Q a c := by
  refine Goes.map hx fun a c hQ a' heq => ?_
  cases heq
  exact hQ

/-- What a grammar injects into itself, by the selectors that say where. -/
def RawGrammar.declared (g : RawGrammar) : List (String × Target) :=
  (g.injections.getD []).map fun e =>
    (e.1, .rule (.root g) ⟨RuleAddress.step ⟨g.scopeName, []⟩ (.injection e.1), e.2⟩)

/-- What is injected into the grammar being tokenized: its own rules, then the grammars of a list
that are known and have a selector. -/
def Sources.declared
    (sources : Sources)
    (scopes : List String) : List (String × Target) :=
  sources.base.declared ++ scopes.filterMap fun scope =>
    (sources.grammar? scope).bind fun g => g.injectionSelector.map (·, .root g)

/-- The injections of a list of targets: each alternative of a selector injects the rule that its
target has been compiled to. -/
inductive Introduces (b : Build) : List (String × Target) → List Injection → Prop
  | nil : Introduces b [] []
  | cons {text : String} {t : Target} {rest : List (String × Target)}
      {injections : List Injection} {alternatives : List Alternative} {id : RuleId}
      (hparse : parseSelector text = .ok alternatives) (hid : b.number? t.key = some id)
      (hrest : Introduces b rest injections) :
      Introduces b ((text, t) :: rest)
        (alternatives.map (fun a => ⟨text, a.selector, a.priority, id⟩) ++ injections)

/-- All injections of a list have rules with numbers that have been given. -/
def Injected
    (injections : List Injection)
    (b : Build) : Prop :=
  ∀ i ∈ injections, ∃ key, b.number? key = some i.rule

namespace Introduces

variable {b c : Build} {declared more : List (String × Target)} {injections rest : List Injection}

theorem grows
    (h : Introduces b declared injections)
    (hgrows : b.Grows c) :
    Introduces c declared injections := by
  induction h with
  | nil =>
      exact .nil
  | cons hparse hid hrest ih =>
      exact .cons hparse (hgrows.numbers hid) ih

theorem append
    (h : Introduces b declared injections)
    (hmore : Introduces b more rest) :
    Introduces b (declared ++ more) (injections ++ rest) := by
  induction h with
  | nil =>
      exact hmore
  | cons hparse hid hrest ih =>
      rw [List.append_assoc]
      exact .cons hparse hid ih

theorem injected
    (h : Introduces b declared injections) :
    Injected injections b := by
  induction h with
  | nil =>
      exact List.forall_mem_nil _
  | cons hparse hid hrest ih =>
      refine List.forall_mem_append.mpr ⟨fun i hi => ?_, ih⟩
      obtain ⟨a, -, rfl⟩ := List.mem_map.mp hi
      exact ⟨_, hid⟩

end Introduces

theorem exists_of_injectionsOf
    {text : String}
    {id : RuleId}
    {injections : List Injection}
    (h : injectionsOf text id = .ok injections) :
    ∃ alternatives, parseSelector text = .ok alternatives ∧
      injections = alternatives.map fun a => ⟨text, a.selector, a.priority, id⟩ := by
  unfold injectionsOf at h
  cases hparsed : parseSelector text with
  | error e =>
      rw [hparsed] at h
      cases h
  | ok alternatives =>
      rw [hparsed] at h
      cases h
      exact ⟨alternatives, rfl, rfl⟩

variable {sources : Sources} {T : Target → Prop} {tested : Target → Bool → Prop} {room : Nat}
variable {visitor : Visitor}
variable (hvisitor : ∀ {b t}, Build.Settled sources T tested room b → T t →
  Goes (Sound sources T tested) b (visitor t) fun id c => c.number? t.key = some id)
include hvisitor

/-- A rule is compiled and injected by a selector, then the other ones. -/
theorem inject_goes
    {b : Build}
    (hb : Build.Settled sources T tested room b)
    {t : Target}
    (ht : T t)
    (text : String)
    {others : Collecting (List Injection)}
    {rest : List (String × Target)}
    (hothers : ∀ {c}, Build.Settled sources T tested room c →
      Goes (Sound sources T tested) c others.run
        fun found d => ∀ l, found = .ok l → Introduces d rest l) :
    Goes (Sound sources T tested) b
      (do
        let id ← visitor t
        let here ← ExceptT.mk (pure (injectionsOf text id))
        return here ++ (← others) : Collecting (List Injection)).run
      fun found c => ∀ l, found = .ok l → Introduces c ((text, t) :: rest) l := by
  refine (hvisitor hb ht).run_lift.bind_run fun id c hgrows hc hid => ?_
  have hsettled := hb.grows hgrows hc
  have hparsed : Goes (Sound sources T tested) c
      (ExceptT.mk (pure (injectionsOf text id)) : Collecting (List Injection)).run
      fun found c => ∀ l, found = .ok l → Introduces c [(text, t)] l := by
    refine goes_pure hc fun l hl => ?_
    obtain ⟨alternatives, hparse, rfl⟩ := exists_of_injectionsOf hl
    simpa using Introduces.cons hparse hid .nil
  refine hparsed.bind_run fun here d hgrows' hd hhere => ?_
  refine (hothers (hsettled.grows hgrows' hd)).bind_run fun found e hgrows'' he hfound => ?_
  refine goes_pure he fun l hl => ?_
  cases hl
  exact (hhere.grows hgrows'').append hfound

theorem ownInjections_goes
    (written : List (String × RawRule))
    (hwritten : ∀ e ∈ written, T (.rule (.root sources.base)
      ⟨RuleAddress.step ⟨sources.base.scopeName, []⟩ (.injection e.1), e.2⟩))
    {b : Build}
    (hb : Build.Settled sources T tested room b) :
    Goes (Sound sources T tested) b (ownInjections sources visitor written).run
      fun found c => ∀ l, found = .ok l → Introduces c
        (written.map fun e => (e.1, .rule (.root sources.base)
          ⟨RuleAddress.step ⟨sources.base.scopeName, []⟩ (.injection e.1), e.2⟩)) l := by
  induction written generalizing b with
  | nil =>
      refine goes_pure hb.sound fun l hl => ?_
      cases hl
      exact .nil
  | cons e rest ih =>
      exact inject_goes hvisitor hb (hwritten e List.mem_cons_self) e.1
        fun hc => ih (fun e he => hwritten e (List.mem_cons_of_mem _ he)) hc

theorem foreignInjections_goes
    (scopes : List String)
    (hgrammars : ∀ scope ∈ scopes, ∀ {g text}, sources.grammar? scope = some g →
      g.injectionSelector = some text → T (.root g))
    {b : Build}
    (hb : Build.Settled sources T tested room b) :
    Goes (Sound sources T tested) b (foreignInjections sources visitor scopes).run
      fun found c => ∀ l, found = .ok l → Introduces c (scopes.filterMap fun scope =>
        (sources.grammar? scope).bind fun g => g.injectionSelector.map (·, .root g)) l := by
  induction scopes generalizing b with
  | nil =>
      refine goes_pure hb.sound fun l hl => ?_
      cases hl
      exact .nil
  | cons scope rest ih =>
      have hrest : ∀ {c}, Build.Settled sources T tested room c → _ := fun hc =>
        ih (fun scope hscope => hgrammars scope (List.mem_cons_of_mem _ hscope)) hc
      unfold foreignInjections
      cases hg : sources.grammar? scope with
      | none =>
          let warned (b : Build) : Build := { b with
            entries := ⟨.warn, "[collect_injections] injection grammar " ++ scope ++
              " was not loaded"⟩ :: b.entries }
          have hmodify : Goes (Sound sources T tested) b (modify warned) fun _ c => c = warned b :=
            goes_modify (Build.grows_of_eq rfl rfl rfl)
              (hb.sound.of_eq rfl rfl rfl hb.sound.oversized)
          simp only [List.filterMap_cons, hg, Option.bind_none]
          exact hmodify.run_lift.bind_run fun _ c hgrows hc _ => hrest (hb.grows hgrows hc)
      | some g =>
          cases hselector : g.injectionSelector with
          | none =>
              simpa only [List.filterMap_cons, hg, hselector, Option.bind_some,
                Option.map_none] using hrest hb
          | some text =>
              have hhere := hgrammars scope List.mem_cons_self hg hselector
              simpa only [List.filterMap_cons, hg, hselector, Option.bind_some,
                Option.map_some] using inject_goes hvisitor hb hhere text hrest

theorem collectInjections_goes
    (scopes : List String)
    (hdeclared : ∀ e ∈ sources.declared scopes, T e.2)
    {b : Build}
    (hb : Build.Settled sources T tested room b) :
    Goes (Sound sources T tested) b (collectInjections sources visitor scopes).run
      fun found c => ∀ l, found = .ok l → ∃ injections,
        Introduces c (sources.declared scopes) injections ∧ l = Injection.sort injections := by
  obtain ⟨hwritten, hforeign⟩ := List.forall_mem_append.mp hdeclared
  refine (ownInjections_goes hvisitor _ (fun e he => hwritten _ (List.mem_map_of_mem he))
    hb).bind_run fun own c hgrows hc hown => ?_
  have hgrammars : ∀ scope ∈ scopes, ∀ {g text}, sources.grammar? scope = some g →
      g.injectionSelector = some text → T (.root g) := by
    intro scope hscope g text hg hselector
    exact hforeign (text, .root g) (List.mem_filterMap.mpr ⟨scope, hscope, by simp [hg, hselector]⟩)
  refine (foreignInjections_goes hvisitor scopes hgrammars (hb.grows hgrows hc)).bind_run
    fun foreign d hgrows' hd hforeign => ?_
  refine goes_pure hd fun l hl => ?_
  cases hl
  exact ⟨own ++ foreign, (hown.grows hgrows').append hforeign, rfl⟩

end Injections

section Alike

variable {α β : Type} {P : Build → Prop}

theorem Alike.bind_run
    {x y : Collecting α}
    {f k : α → Collecting β}
    (hx : Alike P x.run y.run)
    (hf : ∀ a, Alike P (f a).run (k a).run) :
    Alike P (x >>= f).run (y >>= k).run := by
  rw [ExceptT.run_bind, ExceptT.run_bind]
  refine hx.bind fun found => ?_
  cases found with
  | ok a =>
      exact hf a
  | error e =>
      exact alike_pure _

theorem Alike.run_lift
    {x y : Compiling α}
    (hx : Alike P x y) :
    Alike P (liftM x : Collecting α).run (liftM y : Collecting α).run :=
  hx.map _

variable {sources : Sources} {T : Target → Prop} {visitor visitor' : Visitor}
variable (hvisitor : ∀ t, T t → Alike P (visitor t) (visitor' t))
include hvisitor

theorem inject_alike
    {t : Target}
    (ht : T t)
    (text : String)
    {others others' : Collecting (List Injection)}
    (hothers : Alike P others.run others'.run) :
    Alike P
      (do
        let id ← visitor t
        let here ← ExceptT.mk (pure (injectionsOf text id))
        return here ++ (← others) : Collecting (List Injection)).run
      (do
        let id ← visitor' t
        let here ← ExceptT.mk (pure (injectionsOf text id))
        return here ++ (← others') : Collecting (List Injection)).run := by
  refine (hvisitor t ht).run_lift.bind_run fun id => ?_
  refine Alike.bind_run (alike_pure _) fun here => ?_
  exact hothers.bind_run fun _ => alike_pure _

theorem ownInjections_alike
    {sources' : Sources}
    (hbase : sources.base = sources'.base)
    (written : List (String × RawRule))
    (hwritten : ∀ e ∈ written, T (.rule (.root sources.base)
      ⟨RuleAddress.step ⟨sources.base.scopeName, []⟩ (.injection e.1), e.2⟩)) :
    Alike P (ownInjections sources visitor written).run
      (ownInjections sources' visitor' written).run := by
  induction written with
  | nil =>
      exact alike_pure _
  | cons e rest ih =>
      unfold ownInjections
      rw [← hbase]
      exact inject_alike hvisitor (hwritten e List.mem_cons_self) e.1
        (ih fun e he => hwritten e (List.mem_cons_of_mem _ he))

theorem foreignInjections_alike
    {sources' : Sources}
    {scopes : List String}
    (hsame : ∀ scope ∈ scopes, sources.grammar? scope = sources'.grammar? scope)
    (hgrammars : ∀ scope ∈ scopes, ∀ {g}, sources.grammar? scope = some g → T (.root g))
    (hentries : ∀ b entry, P b → P { b with entries := entry :: b.entries }) :
    Alike P (foreignInjections sources visitor scopes).run
      (foreignInjections sources' visitor' scopes).run := by
  induction scopes with
  | nil =>
      exact alike_pure _
  | cons scope rest ih =>
      obtain ⟨hhere, hrest⟩ := List.forall_mem_cons.mp hsame
      have hothers := ih hrest fun scope hscope => hgrammars scope (List.mem_cons_of_mem _ hscope)
      unfold foreignInjections
      rw [← hhere]
      cases hg : sources.grammar? scope with
      | none =>
          exact (alike_modify fun b hb => hentries b _ hb).run_lift.bind_run fun _ => hothers
      | some g =>
          cases hselector : g.injectionSelector with
          | none =>
              simpa only [hselector] using hothers
          | some text =>
              simpa only [hselector] using
                inject_alike hvisitor (hgrammars scope List.mem_cons_self hg) text hothers

theorem collectInjections_alike
    {sources' : Sources}
    (hbase : sources.base = sources'.base)
    (hwritten : ∀ e ∈ sources.base.injections.getD [], T (.rule (.root sources.base)
      ⟨RuleAddress.step ⟨sources.base.scopeName, []⟩ (.injection e.1), e.2⟩))
    {scopes : List String}
    (hsame : ∀ scope ∈ scopes, sources.grammar? scope = sources'.grammar? scope)
    (hgrammars : ∀ scope ∈ scopes, ∀ {g}, sources.grammar? scope = some g → T (.root g))
    (hentries : ∀ b entry, P b → P { b with entries := entry :: b.entries }) :
    Alike P (collectInjections sources visitor scopes).run
      (collectInjections sources' visitor' scopes).run := by
  unfold collectInjections
  rw [← hbase]
  refine (ownInjections_alike hvisitor hbase _ hwritten).bind_run fun own => ?_
  exact (foreignInjections_alike hvisitor hsame hgrammars hentries).bind_run
    fun foreign => alike_pure _

end Alike

/-- A single injection into a grammar by itself is compiled behind the root patterns. -/
theorem Grammar.compileRules_of_single
    {r : CompileRequest}
    {text : String}
    {rule : RawRule}
    {a : Alternative}
    (hown : r.sources.base.injections = some [(text, rule)])
    (hforeign : r.injected = [])
    (hparse : parseSelector text = .ok [a]) :
    compileRules r =
      let visitor := compileTarget r.sources (compileBound r.sources)
      let root : RuleAddress := ⟨r.sources.base.scopeName, []⟩
      let (_, build) := (visitor (.root r.sources.base)).run {}
      let (id, build) :=
        (visitor (.rule (.root r.sources.base) ⟨root.step (.injection text), rule⟩)).run build
      (if build.overflowed then .error .groupOverflow
        else .ok [⟨text, a.selector, a.priority, id⟩], build) := by
  have hinjections : ∀ id, injectionsOf text id = .ok [⟨text, a.selector, a.priority, id⟩] := by
    intro id
    simp only [injectionsOf, hparse]
    rfl
  have hsort : ∀ i, Injection.sort [i] = [i] := by
    intro i
    simp [Injection.sort]
  simp only [compileRules, compileWithin, buildWithin, collectInjections, hown, hforeign,
    Option.getD_some, ownInjections, foreignInjections, hinjections]
  change ((if _ then Except.error _ else Except.ok (Injection.sort [_])), _) = _
  rw [hsort]
  rfl

/-- A grammar that injects a single rule into itself has one injection. -/
theorem Grammar.exists_injection_of_single
    {r : CompileRequest}
    {text : String}
    {rule : RawRule}
    {a : Alternative}
    (hown : r.sources.base.injections = some [(text, rule)])
    (hforeign : r.injected = [])
    (hparse : parseSelector text = .ok [a])
    (hfits : (compileRules r).2.overflowed = false) :
    ∃ injection, (compileRules r).1 = .ok [injection] := by
  rw [compileRules_of_single hown hforeign hparse] at hfits ⊢
  exact ⟨_, if_neg (Bool.eq_false_iff.mp hfits)⟩

open Selector Selector.Token in
theorem parseSelector_source :
    parseSelector "L:source" = .ok [⟨.left, .names ["source"]⟩] := by
  have htokens : tokens "L:source" = [.word "L:", .word "source"] := by
    have hfirst : startsWord 's' = true := by
      decide +kernel
    have hword : "ource".toList.takeWhile continuesWord = "ource".toList := by
      decide +kernel
    have hrest : "ource".toList.dropWhile continuesWord = [] := by
      decide +kernel
    change scanTokens ('L' :: ':' :: 's' :: "ource".toList) = _
    rw [scanTokens, scanTokens, if_pos hfirst, hword, hrest, scanTokens]
    · rfl
    · simp
    · simp
  have hname : isName "source" = true := by
    decide +kernel
  simp only [parseSelector, parse, htokens]
  simp [alternatives, Selector.sequence, operand, priority?, hname, leadingNames, afterNames,
    Token.name?, allOf, pure, Except.pure, bind, Except.bind]

end LineScopes
