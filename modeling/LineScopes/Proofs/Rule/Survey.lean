import LineScopes.Proofs.Rule.Bodies
import Mathlib.Logic.Relation

/-!
# How a table comes about

A target is compiled in a table whose waiting places belong to targets it is nested in. Its own
place waits while its body is compiled, so the targets inside find the same; in the end it is
filled, and no other place waits that did not wait before. What is found out by testing a place may
depend on what waits, so the test is a parameter.

**Main definitions.** `Ready`, `Goes`, `Surveys`.

**Main statements.** `compileBody_goes`: a body says what its target asks for, if the nested targets
get their numbers. `compileTarget_goes`: by induction on how deep targets are nested, every target
gets its number, and what the table says stays true.
-/

namespace LineScopes

open Relation (ReflTransGen)

section Ready

variable (sources : Sources) (T : Target → Prop) (tested : Target → Bool → Prop)

/-- A target can be compiled in a table: those that wait for their bodies lead to it, and there is
room for all targets that have not been met. -/
structure Ready (room : Nat) (b : Build) (t : Target) : Prop where
  sound : Sound sources T tested b
  inReach : T t
  waiting : ∀ {id : RuleId}, b.rules[id]? = some .pending →
    ∃ u, T u ∧ b.number? u.key = some id ∧ ReflTransGen sources.Nests u t
  unknown_lt : b.unknown sources.keys < room

end Ready

/-- From a table a step of a compilation goes on to one with some property, and has a result that
says something about it. -/
def Goes
    {α : Type}
    (P : Build → Prop)
    (b : Build)
    (x : Compiling α)
    (Q : α → Build → Prop) : Prop :=
  b.Grows (x.run b).2 ∧ P (x.run b).2 ∧ Q (x.run b).1 (x.run b).2

section Goes

variable {α β : Type} {P : Build → Prop} {b : Build}

theorem goes_pure
    {a : α}
    {Q : α → Build → Prop}
    (hb : P b)
    (hQ : Q a b) :
    Goes P b (pure a) Q :=
  ⟨.refl b, hb, hQ⟩

theorem goes_get
    (hb : P b) :
    Goes P b get fun a c => a = c :=
  ⟨.refl b, hb, rfl⟩

theorem goes_modify
    {change : Build → Build}
    (hgrows : b.Grows (change b))
    (hchange : P (change b)) :
    Goes P b (modify change) fun _ c => c = change b :=
  ⟨hgrows, hchange, rfl⟩

theorem Goes.bind
    {x : Compiling α}
    {f : α → Compiling β}
    {Q : α → Build → Prop}
    {R : β → Build → Prop}
    (hx : Goes P b x Q)
    (hf : ∀ a c, b.Grows c → P c → Q a c → Goes P c (f a) R) :
    Goes P b (x >>= f) R := by
  obtain ⟨hgrows, hP, hQ⟩ := hx
  obtain ⟨hgrows', hP', hR⟩ := hf _ _ hgrows hP hQ
  exact ⟨hgrows.trans hgrows', hP', hR⟩

theorem Goes.map
    {x : Compiling α}
    {f : α → β}
    {Q : α → Build → Prop}
    {R : β → Build → Prop}
    (hx : Goes P b x Q)
    (hf : ∀ a c, Q a c → R (f a) c) :
    Goes P b (f <$> x) R :=
  ⟨hx.1, hx.2.1, hf _ _ hx.2.2⟩

theorem Goes.weaken
    {x : Compiling α}
    {Q R : α → Build → Prop}
    (hx : Goes P b x Q)
    (h : ∀ a c, b.Grows c → Q a c → R a c) :
    Goes P b x R :=
  ⟨hx.1, hx.2.1, h _ _ hx.1 hx.2.2⟩

end Goes

/-- Compilations do not leave what is in reach, and what they find out by testing a place is what
the test is supposed to say. -/
structure Surveys
    (sources : Sources)
    (T : Target → Prop)
    (tested : Target → Bool → Prop) : Prop where
  within : ∀ {t}, T t → t.Within sources
  nests : ∀ {t u}, T t → sources.Nests t u → T u
  test : ∀ {room b t u id}, Ready sources T tested room b t → sources.Nests t u →
    b.number? u.key = some id → tested u (b.isInert id)

namespace Ready

variable {sources : Sources} {T : Target → Prop} {tested : Target → Bool → Prop}
variable {room : Nat} {b c : Build} {t u : Target}

theorem grows
    (h : Ready sources T tested room b t)
    (hgrows : b.Grows c)
    (hsound : Sound sources T tested c) :
    Ready sources T tested room c t := by
  refine ⟨hsound, h.inReach, fun hid => ?_, Nat.lt_of_le_of_lt (hgrows.unknown_le _) h.unknown_lt⟩
  obtain ⟨u, hu, hnumber, hnests⟩ := h.waiting (hgrows.waiting hid)
  exact ⟨u, hu, hgrows.numbers hnumber, hnests⟩

theorem nests
    (h : Ready sources T tested room b t)
    (hsurveys : Surveys sources T tested)
    (hnests : sources.Nests t u) :
    Ready sources T tested room b u := by
  refine ⟨h.sound, hsurveys.nests h.inReach hnests, fun hid => ?_, h.unknown_lt⟩
  obtain ⟨w, hw, hnumber, hwt⟩ := h.waiting hid
  exact ⟨w, hw, hnumber, hwt.tail hnests⟩

/-- A target that gets a place waits itself while its body is compiled, and takes up room. -/
theorem reserve
    (h : Ready sources T tested (room + 1) b t)
    (hsurveys : Surveys sources T tested)
    (hnew : b.number? t.key = none) :
    Ready sources T tested room (b.reserve t) t := by
  have hcarries := b.carries_reserve hnew
  refine ⟨h.sound.reserve h.inReach hnew, h.inReach, fun {id} hid => ?_, ?_⟩
  · rw [Build.rules_reserve, Array.getElem?_push] at hid
    split at hid
    · rename_i heq
      exact ⟨t, h.inReach, heq ▸ b.number?_reserve_self t, .refl⟩
    · obtain ⟨u, hu, hnumber, hnests⟩ := h.waiting hid
      exact ⟨u, hu, hcarries.numbers hnumber, hnests⟩
  · have hkey := (hsurveys.within h.inReach).key_mem
    have hlt := Build.unknown_reserve_lt hkey (b.idOf?_eq t ▸ hnew)
    have hroom := h.unknown_lt
    omega

end Ready

section Bodies

variable {sources : Sources} {T : Target → Prop} {tested : Target → Bool → Prop}
variable (hsurveys : Surveys sources T tested) {visitor : Visitor} {room : Nat}
  (hvisitor : ∀ {b u}, Ready sources T tested room b u →
    Goes (Sound sources T tested) b (visitor u) fun id c => c.number? u.key = some id)
include hsurveys hvisitor

theorem compilePattern_goes
    {b : Build}
    {t : Target}
    (ht : Ready sources T tested room b t)
    {q : PlacedRule}
    (hq : q ∈ t.items) :
    Goes (Sound sources T tested) b (compilePattern sources visitor t.scene q) fun found c =>
      match found with
      | some id => ∃ u, patternTarget? sources t.scene q = some u ∧ c.number? u.key = some id
      | none => patternTarget? sources t.scene q = none := by
  rw [compilePattern_eq]
  cases htarget : patternTarget? sources t.scene q with
  | some u =>
      exact (hvisitor (ht.nests hsurveys (.pattern hq htarget))).map fun id c hid => ⟨u, rfl, hid⟩
  | none =>
      have hgrows := fun b text scope => Build.grows_of_eq
        (b := b) (c := b.noteMissing text scope) rfl rfl rfl
      refine (goes_modify (hgrows _ _ _) (ht.sound.of_eq rfl rfl rfl
        ht.sound.oversized)).bind fun _ c _ hc _ => ?_
      exact goes_pure hc rfl

theorem compilePatterns_goes
    {b : Build}
    {t : Target}
    (ht : Ready sources T tested room b t)
    {items : List PlacedRule}
    (hitems : ∀ q ∈ items, q ∈ t.items) :
    Goes (Sound sources T tested) b (compilePatterns sources visitor t.scene items) fun found c =>
      Lists sources tested c t.scene items found.1 found.2 := by
  induction items generalizing b with
  | nil =>
      exact goes_pure ht.sound .nil
  | cons q rest ih =>
      have hq := hitems q List.mem_cons_self
      have hrest := fun q hq => hitems q (List.mem_cons_of_mem _ hq)
      unfold compilePatterns
      refine (compilePattern_goes hsurveys hvisitor ht hq).bind fun found c hgrows hc hfound => ?_
      have htc := ht.grows hgrows hc
      cases found with
      | none =>
          refine (ih htc hrest).bind fun listed d _ hd hlisted => ?_
          exact goes_pure hd (.missing hfound hlisted)
      | some id =>
          obtain ⟨u, hu, hid⟩ := hfound
          refine (goes_get hc).bind fun b' d hgrows' hd heq => ?_
          obtain rfl := heq
          have htd := htc.grows hgrows' hd
          have hid' := hgrows'.numbers hid
          have htest := hsurveys.test htd (.pattern hq hu) hid'
          refine (ih htd hrest).bind fun listed e hgrows'' he hlisted => goes_pure he ?_
          dsimp only
          split
          · rename_i hinert
            exact .left hu (hgrows''.numbers hid') (hinert ▸ htest) hlisted
          · rename_i hinert
            exact .listed hu (hgrows''.numbers hid') (Bool.eq_false_iff.mpr hinert ▸ htest) hlisted

/-- A captured group gets a rule of its own, and its patterns a number. -/
theorem compileCapture_goes
    {b : Build}
    {s : Surroundings}
    {p : PlacedRule}
    (ht : Ready sources T tested room b (.rule s p))
    {list : CaptureRole × Captures}
    (hlist : list ∈ p.captures)
    {e : Nat × String × RawRule}
    (he : e ∈ numbered list.2)
    {slots : List (Option RuleId)}
    (hslots : Slots b slots) :
    Goes (Sound sources T tested) b (compileCapture visitor s p.address list.1 slots e)
      fun slots c => Slots c slots ∧ (e.2.2.patterns.isSome →
        ∃ id, c.number? (.inl (p.address.step (.capture list.1 e.2.1))) = some id) := by
  obtain ⟨role, captures⟩ := list
  obtain ⟨n, key, r⟩ := e
  let q : PlacedRule := ⟨p.address.step (.capture role key), r⟩
  have hagain : Goes (Sound sources T tested) b (compileRetokenized visitor s q)
      fun again c => (r.patterns.isSome → ∃ id, c.number? (.inl q.address) = some id) ∧
        ∀ id, again = some id → ∃ key, c.number? key = some id := by
    unfold compileRetokenized
    split
    · rename_i hpatterns
      have hnests : sources.Nests (.rule s p) (.rule s q) := .capture hlist he hpatterns
      refine (hvisitor (ht.nests hsurveys hnests)).map fun id c hid => ⟨fun _ => ⟨id, hid⟩, ?_⟩
      intro again heq
      cases heq
      exact ⟨_, hid⟩
    · rename_i hpatterns
      exact goes_pure ht.sound ⟨fun h => absurd h hpatterns, nofun⟩
  unfold compileCapture
  refine hagain.bind fun again c hgrows hc ⟨hself, hnumber⟩ => ?_
  refine (goes_get hc).bind fun c' d hgrows' hd heq => ?_
  obtain rfl := heq
  let capture : CaptureRule := {
    name := NameTemplate.ofName? r.name
    contentName := NameTemplate.ofName? r.contentName
    retokenize := again }
  have hpush : Sound sources T tested (c'.push (.capture capture)) := by
    refine hd.push fun id hid => ?_
    obtain ⟨key, hkey⟩ := hnumber id hid
    exact ⟨key, hgrows'.numbers hkey⟩
  have hgrows'' := c'.grows_push (r := .capture capture) nofun
  refine (goes_modify hgrows'' hpush).bind fun _ f _ hf heq => goes_pure hf ⟨fun id hid => ?_, ?_⟩
  · obtain rfl := heq
    rcases List.mem_or_eq_of_mem_set hid with hid | hid
    · exact hslots.carry ((hgrows.trans hgrows').trans hgrows'').carries id hid
    · cases hid
      exact ⟨capture, Array.getElem?_push_size⟩
  · intro hpatterns
    obtain rfl := heq
    obtain ⟨id, hid⟩ := hself hpatterns
    exact ⟨id, hgrows''.numbers (hgrows'.numbers hid)⟩

theorem compileCaptures_goes
    {b : Build}
    {s : Surroundings}
    {p : PlacedRule}
    (ht : Ready sources T tested room b (.rule s p))
    {list : CaptureRole × Captures}
    (hlist : list ∈ p.captures) :
    Goes (Sound sources T tested) b (compileCaptures visitor s p.address list.1 list.2)
      fun slots c => Slots c slots ∧ Numbered c p list := by
  have hfold : ∀ {entries : List (Nat × String × RawRule)},
      (∀ e ∈ entries, e ∈ numbered list.2) → ∀ {b slots},
      Ready sources T tested room b (.rule s p) → Slots b slots →
      Goes (Sound sources T tested) b
        (entries.foldlM (compileCapture visitor s p.address list.1) slots)
        fun slots c => Slots c slots ∧ ∀ e ∈ entries, e.2.2.patterns.isSome →
          ∃ id, c.number? (.inl (p.address.step (.capture list.1 e.2.1))) = some id := by
    intro entries
    induction entries with
    | nil =>
        exact fun _ _ _ ht hslots => goes_pure ht.sound ⟨hslots, List.forall_mem_nil _⟩
    | cons e rest ih =>
        intro hall b slots ht hslots
        rw [List.foldlM_cons]
        refine (compileCapture_goes hsurveys hvisitor ht hlist
          (hall e List.mem_cons_self) hslots).bind fun slots c hgrows hc ⟨hslots, hfirst⟩ => ?_
        obtain ⟨hgrows', hd, hslots', hrest⟩ :=
          ih (fun e he => hall e (List.mem_cons_of_mem _ he)) (ht.grows hgrows hc) hslots
        refine ⟨hgrows', hd, hslots', List.forall_mem_cons.mpr ⟨fun hpatterns => ?_, hrest⟩⟩
        obtain ⟨id, hid⟩ := hfirst hpatterns
        exact ⟨id, hgrows'.numbers hid⟩
  unfold compileCaptures
  dsimp only
  split
  · rename_i hlimit
    have hoversized : (Target.rule s p).Oversized := by
      obtain ⟨e, he, hle⟩ := lt_slotCount_iff.mp hlimit
      exact ⟨list, hlist, e, he, hle⟩
    have hgrows : b.Grows b.noteOverflow := Build.grows_of_eq rfl rfl rfl
    have hsound : Sound sources T tested b.noteOverflow :=
      ht.sound.of_eq rfl rfl rfl fun _ => ⟨_, ht.inReach, hoversized⟩
    refine (goes_modify hgrows hsound).bind fun _ c hgrows' hc _ => ?_
    exact hfold (fun e he => he) (ht.grows hgrows' hc) nofun
  · refine hfold (fun e he => he) ht fun id hid => ?_
    cases List.eq_of_mem_replicate hid

theorem compileDelimiterCaptures_goes
    {b : Build}
    {s : Surroundings}
    {p : PlacedRule}
    (ht : Ready sources T tested room b (.rule s p))
    (role : CaptureRole)
    (own : Option Captures)
    (hlist : p.delimiter role own ∈ p.captures) :
    Goes (Sound sources T tested) b (compileDelimiterCaptures visitor s p role own)
      fun slots c => Slots c slots ∧ Numbered c p (p.delimiter role own) := by
  rw [compileDelimiterCaptures_eq]
  exact compileCaptures_goes hsurveys hvisitor ht hlist

/-- The captures of two delimiters are compiled one after the other. -/
theorem compileDelimiters_goes
    {b : Build}
    {s : Surroundings}
    {p : PlacedRule}
    (ht : Ready sources T tested room b (.rule s p))
    {role role' : CaptureRole}
    {own own' : Option Captures}
    (hlists : p.captures = [p.delimiter role own, p.delimiter role' own'])
    {make : List (Option RuleId) → List (Option RuleId) → Rule} :
    Goes (Sound sources T tested) b
      (do
        let slots ← compileDelimiterCaptures visitor s p role own
        let slots' ← compileDelimiterCaptures visitor s p role' own'
        return make slots slots')
      fun r c => ∃ slots slots', r = make slots slots' ∧ Slots c slots ∧ Slots c slots' ∧
        ∀ list ∈ p.captures, Numbered c p list := by
  refine (compileDelimiterCaptures_goes hsurveys hvisitor ht role own (by simp [hlists])).bind
    fun slots c hgrows hc ⟨hslots, hnumbered⟩ => ?_
  refine (compileDelimiterCaptures_goes hsurveys hvisitor (ht.grows hgrows hc) role' own'
    (by simp [hlists])).bind fun slots' d hgrows' hd ⟨hslots', hnumbered'⟩ => ?_
  refine goes_pure hd ⟨slots, slots', rfl, hslots.carry hgrows'.carries, hslots', ?_⟩
  rw [hlists]
  exact List.forall_mem_cons.mpr
    ⟨hnumbered.carry hgrows'.carries, List.forall_mem_singleton.mpr hnumbered'⟩

/-- The rule of a target says what its kind asks for. -/
theorem compileRule_goes
    {b : Build}
    {s : Surroundings}
    {p : PlacedRule}
    (ht : Ready sources T tested room b (.rule s p)) :
    Goes (Sound sources T tested) b (compileRule sources visitor s p)
      fun r c => Body sources tested c (.rule s p) r := by
  have hpatterns := compilePatterns_goes hsurveys hvisitor ht fun q (hq : q ∈ p.items) => hq
  cases hkind : p.rule.kind with
  | simple pattern =>
      have hlists := captures_of_simple hkind
      rw [compileRule_of_simple s hkind]
      refine (compileDelimiterCaptures_goes hsurveys hvisitor ht .shared none
        (by simp [hlists])).bind fun slots c _ hc ⟨hslots, hnumbered⟩ => ?_
      exact goes_pure hc (.simple hkind hslots (by simpa [hlists] using hnumbered))
  | region opening closing =>
      have hscene : (Target.rule s p).scene = s := within_of_not_group s (by simp [hkind])
      rw [compileRule_of_region s hkind]
      rw [hscene] at hpatterns
      refine hpatterns.bind fun listed c hgrows hc hlisted => ?_
      rw [← hscene] at hlisted
      refine (compileDelimiters_goes hsurveys hvisitor (ht.grows hgrows hc)
        (captures_of_region hkind)).weaken ?_
      rintro _ d hgrows' ⟨slots, slots', rfl, hopening, hclosing, hnumbered⟩
      exact .region hkind (hlisted.carry hgrows'.carries) hopening hclosing hnumbered
  | lines opening continuing =>
      have hscene : (Target.rule s p).scene = s := within_of_not_group s (by simp [hkind])
      rw [compileRule_of_lines s hkind]
      rw [hscene] at hpatterns
      refine hpatterns.bind fun listed c hgrows hc hlisted => ?_
      rw [← hscene] at hlisted
      refine (compileDelimiters_goes hsurveys hvisitor (ht.grows hgrows hc)
        (captures_of_lines hkind)).weaken ?_
      rintro _ d hgrows' ⟨slots, slots', rfl, hopening, hcontinuing, hnumbered⟩
      exact .lines hkind (hlisted.carry hgrows'.carries) hopening hcontinuing hnumbered
  | group held =>
      have hscene : (Target.rule s p).scene = s.enter p := within_of_group s hkind
      rw [compileRule_of_group s hkind]
      cases held with
      | some text =>
          have hitem : p ∈ (Target.rule s p).items := mem_items_of_held hkind
          have hheld := compilePattern_goes hsurveys hvisitor ht hitem
          rw [hscene] at hheld
          rw [compileHeld_of_held (s.enter p) hkind, bind_map_left]
          refine hheld.bind fun found c _ hc hfound => ?_
          rw [← hscene] at hfound
          cases found with
          | some id =>
              obtain ⟨u, hu, hid⟩ := hfound
              exact goes_pure hc (.held hkind hu hid)
          | none =>
              exact goes_pure hc (.unresolved hkind hfound)
      | none =>
          rw [hscene] at hpatterns
          rw [compileHeld_of_patterns (s.enter p) hkind]
          refine hpatterns.bind fun listed c _ hc hlisted => goes_pure hc ?_
          rw [← hscene] at hlisted
          exact .group hkind hlisted

theorem compileBody_goes
    {b : Build}
    {t : Target}
    (ht : Ready sources T tested room b t) :
    Goes (Sound sources T tested) b (compileBody sources visitor t)
      fun r c => Body sources tested c t r := by
  cases t with
  | rule s p =>
      exact compileRule_goes hsurveys hvisitor ht
  | root g =>
      have hpatterns := compilePatterns_goes hsurveys hvisitor ht
        fun q (hq : q ∈ (Target.root g).items) => hq
      refine hpatterns.bind fun listed c _ hc hlisted => ?_
      exact goes_pure hc (.root hlisted)

/-- A target that has been met keeps its number, and a new one gets a place with its body. -/
theorem visit_goes
    {b : Build}
    {t : Target}
    (ht : Ready sources T tested (room + 1) b t) :
    Goes (Sound sources T tested) b (visit sources visitor t)
      fun id c => c.number? t.key = some id := by
  cases hid : b.idOf? t with
  | some id =>
      rw [Goes, run_visit_of_known hid]
      exact ⟨.refl b, ht.sound, b.idOf?_eq t ▸ hid⟩
  | none =>
      have hnew : b.number? t.key = none := b.idOf?_eq t ▸ hid
      have hreserved := ht.reserve hsurveys hnew
      obtain ⟨hgrows, hsound, hbody⟩ := compileBody_goes hsurveys hvisitor hreserved
      rw [Goes, run_visit_of_new hid]
      have hnumber := hgrows.numbers (b.number?_reserve_self t)
      have hwaits : (b.reserve t).rules[b.rules.size]? = some .pending := by
        simp [Build.rules_reserve]
      -- no other rule has been put where the target waits
      refine ⟨Build.grows_fill hnew hgrows hbody.ne.1, ?_, hnumber⟩
      exact hsound.fill ht.inReach hnumber (hgrows.get? hwaits) hbody

end Bodies

/-- Every target gets its number, and what the table says stays true. -/
theorem compileTarget_goes
    {sources : Sources}
    {T : Target → Prop}
    {tested : Target → Bool → Prop}
    (hsurveys : Surveys sources T tested)
    (room : Nat)
    {b : Build}
    {t : Target}
    (ht : Ready sources T tested room b t) :
    Goes (Sound sources T tested) b (compileTarget sources room t)
      fun id c => c.number? t.key = some id := by
  induction room generalizing b t with
  | zero =>
      exact absurd ht.unknown_lt (Nat.not_lt_zero _)
  | succ room ih =>
      exact visit_goes hsurveys ih ht

end LineScopes
