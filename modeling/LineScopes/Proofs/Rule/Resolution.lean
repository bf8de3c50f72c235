import LineScopes.Proofs.Grammar.Written
import LineScopes.Proofs.Rule.Growth

/-!
# Compilations that resolve the same includes

A compilation depends on its sources only through what includes refer to. If two sources resolve the
includes of all rules in reach to the same targets, they give the same table. How deep each of the
two compilations may go does not matter as long as there is room for every target it has not met.

**Main definitions.** `Alike`, `Sources.ResolveAlike`, `Target.key`, `unknown`.

**Main statements.** `compileBody_alike`: a body is compiled alike if the nested targets are.
`compileTarget_alike`: by induction on how deep targets are nested.
-/

namespace LineScopes

/-- From a table with some property two steps of a compilation are the same, and keep it. -/
def Alike
    {α : Type}
    (P : Build → Prop)
    (x y : Compiling α) : Prop :=
  ∀ b, P b → x.run b = y.run b ∧ P (x.run b).2

section Alike

variable {α β : Type} {P : Build → Prop}

theorem alike_pure
    (a : α) :
    Alike P (pure a) (pure a) :=
  fun _ hb => ⟨rfl, hb⟩

theorem alike_get :
    Alike P get get :=
  fun _ hb => ⟨rfl, hb⟩

theorem alike_modify
    {change : Build → Build}
    (h : ∀ b, P b → P (change b)) :
    Alike P (modify change) (modify change) :=
  fun b hb => ⟨rfl, h b hb⟩

theorem Alike.bind
    {x y : Compiling α}
    {f k : α → Compiling β}
    (hx : Alike P x y)
    (hf : ∀ a, Alike P (f a) (k a)) :
    Alike P (x >>= f) (y >>= k) := by
  intro b hb
  obtain ⟨heq, hb'⟩ := hx b hb
  obtain ⟨hnext, hb''⟩ := hf (x.run b).1 (x.run b).2 hb'
  refine ⟨?_, hb''⟩
  simp only [StateT.run_bind]
  rw [← heq]
  exact hnext

theorem Alike.map
    {x y : Compiling α}
    (hx : Alike P x y)
    (f : α → β) :
    Alike P (f <$> x) (f <$> y) := by
  intro b hb
  obtain ⟨heq, hb'⟩ := hx b hb
  refine ⟨?_, hb'⟩
  simp only [StateT.run_map]
  rw [heq]

end Alike

/-- Two sources resolve all includes of the rules in reach to the same targets, and no compilation
leaves what is in reach. -/
structure Sources.ResolveAlike
    (A B : Sources)
    (T : Target → Prop) : Prop where
  enter : ∀ {s p}, T (.rule s p) → T (.rule (s.enter p) p)
  inner : ∀ {s p q}, T (.rule s p) → q ∈ innerRules p → T (.rule (s.within p) q)
  root : ∀ {g q}, T (.root g) → q ∈ rootRules g → T (.rule (.root g) q)
  resolve : ∀ {s p text}, T (.rule s p) → p.rule.reference = some text →
    targetOf? A s (.ofText text) = targetOf? B s (.ofText text) ∧
      ∀ t, targetOf? A s (.ofText text) = some t → T t

section Bodies

variable {A B : Sources} {T : Target → Prop} {P : Build → Prop}
variable {visitor visitor' : Visitor}
variable (hsources : A.ResolveAlike B T)
  (hvisitor : ∀ t, T t → Alike P (visitor t) (visitor' t))
variable (hpush : ∀ b r, P b → P (b.push r)) (hoverflow : ∀ b, P b → P b.noteOverflow)
  (hmissing : ∀ b text scope, P b → P (b.noteMissing text scope))

section References

include hsources hvisitor hmissing

theorem compileReference_alike
    {s : Surroundings}
    {p : PlacedRule}
    {text : String}
    (hp : T (.rule s p))
    (htext : p.rule.reference = some text) :
    Alike P (compileReference A visitor s text) (compileReference B visitor' s text) := by
  obtain ⟨hsame, hwithin⟩ := hsources.resolve hp htext
  unfold compileReference
  rw [← hsame]
  cases htarget : targetOf? A s (.ofText text) with
  | none =>
      exact (alike_modify fun b => hmissing b _ _).bind fun _ => alike_pure _
  | some t =>
      exact (hvisitor t (hwithin t htarget)).bind fun _ => alike_pure _

theorem compilePattern_alike
    {s : Surroundings}
    {p : PlacedRule}
    (hp : T (.rule s p)) :
    Alike P (compilePattern A visitor s p) (compilePattern B visitor' s p) := by
  unfold compilePattern
  cases htext : p.rule.reference with
  | none =>
      exact (hvisitor _ hp).map _
  | some text =>
      exact compileReference_alike hsources hvisitor hmissing hp htext

theorem compilePatterns_alike
    {s : Surroundings}
    {patterns : List PlacedRule}
    (hpatterns : ∀ p ∈ patterns, T (.rule s p)) :
    Alike P (compilePatterns A visitor s patterns) (compilePatterns B visitor' s patterns) := by
  induction patterns with
  | nil =>
      exact alike_pure _
  | cons p rest ih =>
      have hrest := ih fun q hq => hpatterns q (List.mem_cons_of_mem _ hq)
      unfold compilePatterns
      refine (compilePattern_alike hsources hvisitor hmissing
        (hpatterns p List.mem_cons_self)).bind fun found => ?_
      cases found with
      | none =>
          exact hrest.bind fun _ => alike_pure _
      | some id =>
          exact alike_get.bind fun _ => hrest.bind fun _ => alike_pure _

end References

section Captures

include hvisitor hpush

theorem compileCapture_alike
    {s : Surroundings}
    {owner : RuleAddress}
    {role : CaptureRole}
    {entry : Nat × String × RawRule}
    (hentry : T (.rule s ⟨owner.step (.capture role entry.2.1), entry.2.2⟩))
    (slots : List (Option RuleId)) :
    Alike P (compileCapture visitor s owner role slots entry)
      (compileCapture visitor' s owner role slots entry) := by
  obtain ⟨n, key, r⟩ := entry
  have hagain : Alike P
      (compileRetokenized visitor s ⟨owner.step (.capture role key), r⟩)
      (compileRetokenized visitor' s ⟨owner.step (.capture role key), r⟩) := by
    unfold compileRetokenized
    split
    · exact (hvisitor _ hentry).map _
    · exact alike_pure _
  unfold compileCapture
  refine hagain.bind fun retokenize => alike_get.bind fun _ => ?_
  exact (alike_modify fun b => hpush b _).bind fun _ => alike_pure _

include hoverflow

theorem compileCaptures_alike
    {s : Surroundings}
    {owner : RuleAddress}
    {role : CaptureRole}
    {captures : Captures}
    (hcaptures : ∀ e ∈ captures, T (.rule s ⟨owner.step (.capture role e.1), e.2⟩)) :
    Alike P (compileCaptures visitor s owner role captures)
      (compileCaptures visitor' s owner role captures) := by
  have hfold : ∀ entries : List (Nat × String × RawRule),
      (∀ e ∈ entries, T (.rule s ⟨owner.step (.capture role e.2.1), e.2.2⟩)) → ∀ slots,
      Alike P (entries.foldlM (compileCapture visitor s owner role) slots)
        (entries.foldlM (compileCapture visitor' s owner role) slots) := by
    intro entries
    induction entries with
    | nil =>
        exact fun _ slots => alike_pure _
    | cons entry rest ih =>
        intro hall slots
        rw [List.foldlM_cons, List.foldlM_cons]
        exact (compileCapture_alike hvisitor hpush (hall entry List.mem_cons_self) slots).bind
          (ih fun e he => hall e (List.mem_cons_of_mem _ he))
  have hwanted : ∀ e ∈ numbered captures,
      T (.rule s ⟨owner.step (.capture role e.2.1), e.2.2⟩) := by
    intro e he
    obtain ⟨e', he', hkey⟩ := List.mem_filterMap.mp he
    obtain ⟨n, -, rfl⟩ := Option.map_eq_some_iff.mp hkey
    exact hcaptures e' he'
  unfold compileCaptures
  dsimp only
  split
  · exact (alike_modify hoverflow).bind fun _ => hfold _ hwanted _
  · exact hfold _ hwanted _

/-- The captures of a delimiter are rules inside its rule, whether they are its own or shared. -/
theorem compileDelimiterCaptures_alike
    {s : Surroundings}
    {p : PlacedRule}
    (hinner : ∀ q ∈ innerRules p, T (.rule s q))
    {role : CaptureRole}
    {own : Option Captures}
    (hown : ∀ captures, own = some captures → (role, captures) ∈ p.rule.captureLists) :
    Alike P (compileDelimiterCaptures visitor s p role own)
      (compileDelimiterCaptures visitor' s p role own) := by
  have hlist : ∀ {role captures}, (role, captures) ∈ p.rule.captureLists →
      ∀ e ∈ captures, T (.rule s ⟨p.address.step (.capture role e.1), e.2⟩) := by
    intro role captures hmem e he
    refine hinner _ (List.mem_append_right _ (List.mem_flatMap.mpr ⟨_, hmem, ?_⟩))
    exact List.mem_map.mpr ⟨e, he, rfl⟩
  unfold compileDelimiterCaptures
  split
  · exact compileCaptures_alike hvisitor hpush hoverflow (hlist (hown _ rfl))
  · rename_i captures hshared
    refine compileCaptures_alike hvisitor hpush hoverflow (hlist ?_)
    simp [RawRule.captureLists, hshared]
  · exact alike_pure _

end Captures

include hsources hvisitor hmissing

theorem compileHeld_alike
    {s : Surroundings}
    {p : PlacedRule}
    (hp : T (.rule s p))
    (hinner : ∀ q ∈ innerRules p, T (.rule s q)) :
    Alike P (compileHeld A visitor s p) (compileHeld B visitor' s p) := by
  unfold compileHeld
  split
  · rename_i text hpatterns htext
    refine (compileReference_alike hsources hvisitor hmissing hp htext).bind fun found => ?_
    cases found <;> exact alike_pure _
  · exact compilePatterns_alike hsources hvisitor hmissing
      fun q hq => hinner q (List.mem_append_left _ hq)

include hpush hoverflow

theorem compileRule_alike
    {s : Surroundings}
    {p : PlacedRule}
    (hp : T (.rule s p)) :
    Alike P (compileRule A visitor s p) (compileRule B visitor' s p) := by
  have hwithin : ∀ q ∈ innerRules p, T (.rule (s.within p) q) := fun q hq => hsources.inner hp hq
  unfold compileRule
  dsimp only
  split
  · rename_i pattern hmatch
    have hinner : ∀ q ∈ innerRules p, T (.rule s q) := by
      simpa [Surroundings.within, PlacedRule.isGroup, hmatch] using hwithin
    exact (compileDelimiterCaptures_alike hvisitor hpush hoverflow hinner (by simp)).bind
      fun _ => alike_pure _
  · rename_i opening hmatch hbegin
    have hinner : ∀ q ∈ innerRules p, T (.rule s q) := by
      simpa [Surroundings.within, PlacedRule.isGroup, hbegin] using hwithin
    have hcaptures : ∀ {role own}, (∀ captures, own = some captures →
        (role, captures) ∈ p.rule.captureLists) →
        Alike P (compileDelimiterCaptures visitor s p role own)
          (compileDelimiterCaptures visitor' s p role own) :=
      compileDelimiterCaptures_alike hvisitor hpush hoverflow hinner
    refine (compilePatterns_alike hsources hvisitor hmissing
      fun q hq => hinner q (List.mem_append_left _ hq)).bind fun _ => ?_
    split
    · exact (hcaptures (by simp +contextual [RawRule.captureLists])).bind fun _ =>
        (hcaptures (by simp +contextual [RawRule.captureLists])).bind fun _ => alike_pure _
    · exact (hcaptures (by simp +contextual [RawRule.captureLists])).bind fun _ =>
        (hcaptures (by simp +contextual [RawRule.captureLists])).bind fun _ => alike_pure _
  · rename_i hmatch hbegin
    have hinner : ∀ q ∈ innerRules p, T (.rule (s.enter p) q) := by
      simpa [Surroundings.within, PlacedRule.isGroup, hmatch, hbegin] using hwithin
    exact (compileHeld_alike hsources hvisitor hmissing (hsources.enter hp) hinner).bind
      fun _ => alike_pure _

/-- A body is compiled alike if the targets it refers to are. -/
theorem compileBody_alike
    {t : Target}
    (ht : T t) :
    Alike P (compileBody A visitor t) (compileBody B visitor' t) := by
  cases t with
  | rule s p =>
      exact compileRule_alike hsources hvisitor hpush hoverflow hmissing ht
  | root g =>
      exact (compilePatterns_alike hsources hvisitor hmissing
        fun q hq => hsources.root ht (List.mem_append_left _ hq)).bind fun _ => alike_pure _

end Bodies

/-- What a target is known by: the address of a rule, or the scope of a grammar. -/
def Target.key : Target → RuleAddress ⊕ String
  | .rule _ p => .inl p.address
  | .root g => .inr g.scopeName

namespace Build

/-- Whether the target with a key has been met. -/
def knows
    (b : Build) : RuleAddress ⊕ String → Bool
  | .inl a => (b.ruleIds.lookup a).isSome
  | .inr scope => (b.grammarIds.lookup scope).isSome

theorem knows_key
    (b : Build)
    (t : Target) :
    b.knows t.key = (b.idOf? t).isSome := by
  cases t <;> rfl

theorem knows_reserve_self
    (b : Build)
    (t : Target) :
    (b.reserve t).knows t.key := by
  cases t <;> simp [reserve, knows, Target.key]

theorem knows_reserve
    {b : Build}
    (t : Target)
    {key : RuleAddress ⊕ String}
    (h : b.knows key) :
    (b.reserve t).knows key := by
  cases t with
  | rule s p =>
      cases key with
      | inl a =>
          simp only [reserve, knows, List.lookup_cons] at h ⊢
          split
          · rfl
          · exact h
      | inr scope =>
          exact h
  | root g =>
      cases key with
      | inl a =>
          exact h
      | inr scope =>
          simp only [reserve, knows, List.lookup_cons] at h ⊢
          split
          · rfl
          · exact h

/-- How many targets have not been met. -/
def unknown
    (keys : List (RuleAddress ⊕ String))
    (b : Build) : Nat :=
  keys.countP fun key => !b.knows key

/-- A new target that gets its number is known from then on. -/
theorem unknown_reserve_lt
    {keys : List (RuleAddress ⊕ String)}
    {b : Build}
    {t : Target}
    (hkey : t.key ∈ keys)
    (hnew : b.idOf? t = none) :
    unknown keys (b.reserve t) < unknown keys b := by
  refine countP_lt_countP ?_ hkey ?_ ?_
  · intro key _ hunknown
    simp only [Bool.not_eq_true'] at hunknown ⊢
    exact Bool.eq_false_iff.mpr fun h => Bool.eq_false_iff.mp hunknown (knows_reserve t h)
  · simp [knows_reserve_self]
  · simp [knows_key, hnew]

end Build

/-- Sources that resolve all includes in reach alike compile every target in reach alike, if both
compilations have room for the targets they have not met. -/
theorem compileTarget_alike
    {A B : Sources}
    {T : Target → Prop}
    (hsources : A.ResolveAlike B T)
    {keys keys' : List (RuleAddress ⊕ String)}
    (hkeys : ∀ t, T t → t.key ∈ keys ∧ t.key ∈ keys')
    (bound bound' : Nat)
    {t : Target}
    (ht : T t) :
    Alike (fun b => b.unknown keys < bound ∧ b.unknown keys' < bound')
      (compileTarget A bound t) (compileTarget B bound' t) := by
  induction bound generalizing bound' t with
  | zero =>
      rintro b ⟨hroom, -⟩
      omega
  | succ bound ih =>
      cases bound' with
      | zero =>
          rintro b ⟨-, hroom⟩
          omega
      | succ bound' =>
          rintro b ⟨hroom, hroom'⟩
          simp only [compileTarget]
          cases hid : b.idOf? t with
          | some id =>
              rw [run_visit_of_known hid, run_visit_of_known hid]
              exact ⟨rfl, hroom, hroom'⟩
          | none =>
              obtain ⟨hkey, hkey'⟩ := hkeys t ht
              have hlt := Build.unknown_reserve_lt hkey hid
              have hlt' := Build.unknown_reserve_lt hkey' hid
              obtain ⟨hbody, hleft, hleft'⟩ := compileBody_alike hsources
                (fun t ht => ih bound' ht) (fun b r h => h) (fun b h => h)
                (fun b text scope h => h) ht (b.reserve t) ⟨by omega, by omega⟩
              rw [run_visit_of_new hid, run_visit_of_new hid, ← hbody]
              exact ⟨rfl, Nat.lt_succ_of_lt hleft, Nat.lt_succ_of_lt hleft'⟩

end LineScopes
