import LineScopes.Proofs.Scan.Frames
import Mathlib.Data.List.Chain

/-!
# How frames are stacked

The lowest frame belongs to the root patterns and has the scopes of the grammar. The scopes of every
other frame stand inside those of the frame under it. In the scan of a whole line every other frame
was opened by a rule that stays open; in the scan of a group there may also be frames of rules whose
groups are being scanned.

**Main definitions.** `ScopeList.Extends`, `Frame.Opened`, `Frame.SitsOn`, `State.Stacked`.

**Main statements.** `Cursor.handling_stacked`: what a match does with the stack.
`step_stacked`, `run_stacked`, `startLine_stacked`: what a step, a run and the start of a line do.
-/

namespace LineScopes

namespace ScopeList

/-- A scope list that has another one around it, with its metadata. -/
structure Extends (inner outer : ScopeList) : Prop where
  names : outer.names <+: inner.names
  metadata : outer.metadata <:+ inner.metadata

namespace Extends

theorem refl
    (l : ScopeList) :
    l.Extends l :=
  ⟨List.prefix_rfl, List.suffix_rfl⟩

theorem trans
    {l l' l'' : ScopeList}
    (h : l.Extends l')
    (h' : l'.Extends l'') :
    l.Extends l'' :=
  ⟨h'.names.trans h.names, h'.metadata.trans h.metadata⟩

end Extends

theorem extends_push
    (a : Attribution)
    (l : ScopeList)
    (name : String) :
    (l.push a name).Extends l :=
  ⟨by simp, List.suffix_cons _ _⟩

theorem extends_foldl_push
    (a : Attribution)
    (l : ScopeList)
    (names : List String) :
    (names.foldl (push a) l).Extends l := by
  induction names generalizing l with
  | nil =>
      exact .refl l
  | cons name rest ih =>
      exact (ih (l.push a name)).trans (extends_push a l name)

theorem extends_pushName
    (a : Attribution)
    (l : ScopeList)
    (name : Option String) :
    (l.pushName a name).Extends l := by
  cases name with
  | none =>
      exact .refl l
  | some name =>
      exact extends_foldl_push a l _

theorem extends_pushTemplate
    (s : LineScanner)
    (l : ScopeList)
    (name : Option NameTemplate)
    (text : String)
    (groups : Groups) :
    (s.pushTemplate l name text groups).Extends l :=
  extends_pushName _ l _

end ScopeList

namespace Frame

/-- What is said about a frame on a stack: its rule, its resolved end pattern and its scopes. -/
def shape (f : Frame) : RuleId × Option String × ScopeList × ScopeList :=
  (f.rule, f.closing, f.nameScopes, f.contentScopes)

@[simp] theorem shape_keepInside
    (g : Grammar)
    (f : Frame) :
    (g.keepInside f).shape = f.shape := by
  obtain ⟨patterns, heq⟩ := g.exists_keepInside_eq f
  rw [heq]
  rfl

@[simp] theorem shape_keepOnward
    (g : Grammar)
    (f : Frame) :
    (g.keepOnward f).shape = f.shape := by
  obtain ⟨patterns, heq⟩ := g.exists_keepOnward_eq f
  rw [heq]
  rfl

/-- The frame of the root patterns: it has the scopes of the grammar and no end. -/
structure IsRoot
    (root : ScopeList)
    (f : Frame) : Prop where
  rule : f.rule = rootRule
  closing : f.closing = none
  nameScopes : f.nameScopes = root
  contentScopes : f.contentScopes = root

/-- A frame of a rule that stays open. Its end pattern is resolved if it refers to groups. -/
inductive Opened
    (g : Grammar)
    (f : Frame) : Prop
  | region (r : RegionRule) (hrule : g.rule? f.rule = some (.region r))
    (hclosing : f.closing.isSome = r.closing.hasBackReferences)
  | lines (r : WhileRule) (hrule : g.rule? f.rule = some (.lines r))
    (hclosing : f.closing.isSome = r.continuing.hasBackReferences)

/-- The scopes of a frame stand inside those of another one. -/
structure SitsOn (f below : Frame) : Prop where
  name : f.nameScopes.Extends below.contentScopes
  content : f.contentScopes.Extends f.nameScopes

section Shape

variable {f f' : Frame} (h : f'.shape = f.shape)
include h

theorem rule_of_shape :
    f'.rule = f.rule :=
  congrArg Prod.fst h

theorem closing_of_shape :
    f'.closing = f.closing :=
  congrArg (fun p => p.2.1) h

theorem nameScopes_of_shape :
    f'.nameScopes = f.nameScopes :=
  congrArg (fun p => p.2.2.1) h

theorem contentScopes_of_shape :
    f'.contentScopes = f.contentScopes :=
  congrArg (fun p => p.2.2.2) h

theorem IsRoot.of_shape
    {root : ScopeList}
    (hf : f.IsRoot root) :
    f'.IsRoot root :=
  ⟨(rule_of_shape h).trans hf.rule, (closing_of_shape h).trans hf.closing,
    (nameScopes_of_shape h).trans hf.nameScopes, (contentScopes_of_shape h).trans hf.contentScopes⟩

theorem Opened.of_shape
    {g : Grammar}
    (hf : f.Opened g) :
    f'.Opened g := by
  cases hf with
  | region r hrule hclosing =>
      exact .region r (by rwa [rule_of_shape h]) (by rwa [closing_of_shape h])
  | lines r hrule hclosing =>
      exact .lines r (by rwa [rule_of_shape h]) (by rwa [closing_of_shape h])

theorem SitsOn.of_shape
    {b b' : Frame}
    (hb : b'.shape = b.shape)
    (hf : f.SitsOn b) :
    f'.SitsOn b' :=
  ⟨by rw [nameScopes_of_shape h, contentScopes_of_shape hb]; exact hf.name,
    by rw [nameScopes_of_shape h, contentScopes_of_shape h]; exact hf.content⟩

end Shape

end Frame

/-- Frames that are stacked on a root frame, the first one on top. In the scan of a whole line all
of them but the root frame were opened by rules that stay open. -/
def Stacked
    (g : Grammar)
    (whole : Bool)
    (root : ScopeList) : Frame → List Frame → Prop
  | f, [] => f.IsRoot root
  | f, b :: rest => f.SitsOn b ∧ (whole = true → f.Opened g) ∧ Stacked g whole root b rest

/-- The frames of a state are stacked on a root frame. -/
def State.Stacked
    (g : Grammar)
    (whole : Bool)
    (root : ScopeList)
    (s : State) : Prop :=
  LineScopes.Stacked g whole root s.top s.below

/-- The lowest frame. -/
def State.bottom (s : State) : Frame :=
  s.frames.getLast (List.cons_ne_nil _ _)

namespace State.Stacked

variable {g : Grammar} {whole : Bool} {root : ScopeList} {s : State}

theorem push
    (hs : s.Stacked g whole root)
    {f : Frame}
    (hsits : f.SitsOn s.top)
    (hopened : whole = true → f.Opened g) :
    (s.push f).Stacked g whole root :=
  ⟨hsits, hopened, hs⟩

theorem pop
    (hs : s.Stacked g whole root) :
    s.pop.Stacked g whole root := by
  obtain ⟨top, below⟩ := s
  cases below with
  | nil =>
      exact hs
  | cons b rest =>
      exact hs.2.2

/-- The stack of a line is one on which a group can be scanned. -/
theorem weaken
    (hs : s.Stacked g whole root) :
    s.Stacked g false root := by
  obtain ⟨top, below⟩ := s
  induction below generalizing top with
  | nil =>
      exact hs
  | cons b rest ih =>
      exact ⟨hs.1, nofun, ih b hs.2.2⟩

/-- Only the shapes of frames matter. -/
theorem of_shape
    (hs : s.Stacked g whole root)
    {t : State}
    (h : t.frames.map Frame.shape = s.frames.map Frame.shape) :
    t.Stacked g whole root := by
  obtain ⟨f, below⟩ := s
  obtain ⟨f', below'⟩ := t
  obtain ⟨htop, hbelow⟩ := List.cons.inj h
  clear h
  induction below generalizing f f' below' with
  | nil =>
      obtain rfl : below' = [] := List.map_eq_nil_iff.mp hbelow
      exact Frame.IsRoot.of_shape htop hs
  | cons b rest ih =>
      cases below' with
      | nil =>
          cases hbelow
      | cons b' rest' =>
          obtain ⟨hsits, hopened, hrest⟩ := hs
          obtain ⟨hb, hrest'⟩ := List.cons.inj hbelow
          exact ⟨.of_shape htop hb hsits, fun hwhole => .of_shape htop (hopened hwhole),
            ih b hrest b' rest' hb hrest'⟩

/-- The frame on top may change as long as it keeps its place. -/
theorem mapTop
    (hs : s.Stacked g whole root)
    {change : Frame → Frame}
    (hroot : s.top.IsRoot root → (change s.top).IsRoot root)
    (hsits : ∀ b, s.top.SitsOn b → (change s.top).SitsOn b)
    (hopened : s.top.Opened g → (change s.top).Opened g) :
    (s.mapTop change).Stacked g whole root := by
  obtain ⟨top, below⟩ := s
  cases below with
  | nil =>
      exact hroot hs
  | cons b rest =>
      exact ⟨hsits b hs.1, fun hwhole => hopened (hs.2.1 hwhole), hs.2.2⟩

theorem of_mem_suffixes
    (hs : s.Stacked g whole root)
    {t : State}
    (ht : t ∈ s.suffixes) :
    t.Stacked g whole root := by
  obtain ⟨top, below⟩ := s
  induction below generalizing top with
  | nil =>
      obtain rfl : t = ⟨top, []⟩ := by simpa [suffixes, suffixes.go] using ht
      exact hs
  | cons b rest ih =>
      rcases List.mem_cons.mp ht with rfl | ht
      · exact hs
      · exact ih b hs.2.2 ht

/-- All scopes on the stack extend those of the root frame. -/
theorem extends_root
    (hs : s.Stacked g whole root) :
    s.top.nameScopes.Extends root ∧ s.top.contentScopes.Extends root := by
  obtain ⟨top, below⟩ := s
  induction below generalizing top with
  | nil =>
      obtain ⟨-, -, hname, hcontent⟩ := hs
      rw [hname, hcontent]
      exact ⟨.refl root, .refl root⟩
  | cons b rest ih =>
      obtain ⟨-, hbelow⟩ := ih b hs.2.2
      have hname := hs.1.name.trans hbelow
      exact ⟨hname, hs.1.content.trans hname⟩

theorem bottom
    (hs : s.Stacked g whole root) :
    s.bottom.IsRoot root := by
  obtain ⟨top, below⟩ := s
  induction below generalizing top with
  | nil =>
      exact hs
  | cons b rest ih =>
      exact ih b hs.2.2

/-- The frames above the root frame are those of rules that stay open. -/
theorem opened_of_mem_dropLast
    (hs : s.Stacked g true root)
    {f : Frame}
    (hf : f ∈ s.frames.dropLast) :
    f.Opened g := by
  obtain ⟨top, below⟩ := s
  induction below generalizing top with
  | nil =>
      cases hf
  | cons b rest ih =>
      rcases List.mem_cons.mp hf with rfl | hf
      · exact hs.2.1 rfl
      · exact ih b hs.2.2 hf

theorem isChain
    (hs : s.Stacked g whole root) :
    s.frames.IsChain fun f below => f.nameScopes.Extends below.contentScopes := by
  obtain ⟨top, below⟩ := s
  induction below generalizing top with
  | nil =>
      exact .singleton top
  | cons b rest ih =>
      exact .cons_cons hs.1.name (ih b hs.2.2)

theorem content_extends
    (hs : s.Stacked g whole root)
    {f : Frame}
    (hf : f ∈ s.frames) :
    f.contentScopes.Extends f.nameScopes := by
  obtain ⟨top, below⟩ := s
  induction below generalizing top with
  | nil =>
      obtain rfl := List.mem_singleton.mp hf
      rw [Frame.IsRoot.contentScopes hs, Frame.IsRoot.nameScopes hs]
      exact .refl root
  | cons b rest ih =>
      rcases List.mem_cons.mp hf with rfl | hf
      · exact hs.1.content
      · exact ih b hs.2.2 hf

theorem reset
    (hs : s.Stacked g whole root) :
    s.reset.Stacked g whole root := by
  refine hs.of_shape ?_
  simp [frames, State.reset, Function.comp_def, Frame.shape, Frame.reset]

theorem keepContinuations
    (hs : s.Stacked g whole root) :
    (keepContinuations g s).Stacked g whole root := by
  have hkeep : ∀ f : Frame,
      (if (g.linesRule? f.rule).isSome then g.keepOnward f else f).shape = f.shape := by
    intro f
    split
    · exact Frame.shape_keepOnward g f
    · rfl
  refine hs.of_shape ?_
  simp [frames, LineScopes.keepContinuations, Function.comp_def, hkeep]

/-- The end of a region is covered with the scopes of its delimiters. -/
theorem delimited
    (hs : s.Stacked g whole root) :
    s.delimited.Stacked g whole root := by
  refine hs.mapTop ?_ ?_ ?_
  · intro h
    exact ⟨h.rule, h.closing, h.nameScopes, h.nameScopes⟩
  · intro b h
    exact ⟨h.name, .refl _⟩
  · intro h
    cases h with
    | region r hrule hclosing =>
        exact .region r hrule hclosing
    | lines r hrule hclosing =>
        exact .lines r hrule hclosing

end State.Stacked

/-- A state with the root frame alone. -/
theorem State.stacked_root
    (g : Grammar)
    (scopes : ScopeList) :
    (State.root scopes).Stacked g true scopes :=
  ⟨rfl, rfl, rfl, rfl⟩

section Scan

variable {s : LineScanner} {rescan : Rescan} {text : String} {c : Cursor}
variable {whole : Bool} {root : ScopeList}

theorem Cursor.kept_stacked
    (hc : c.state.Stacked s.grammar whole root) :
    (c.kept s.grammar).state.Stacked s.grammar whole root := by
  refine hc.of_shape ?_
  simp [kept, State.mapTop, State.frames]

/-- A rule is entered with scopes inside those of the frame on top. -/
theorem Cursor.entered_stacked
    (hc : c.state.Stacked s.grammar whole root)
    (m : PatternMatch)
    (id : RuleId)
    (rule : Rule) :
    (c.entered s text m id rule).Stacked s.grammar false root :=
  hc.weaken.push ⟨ScopeList.extends_pushTemplate _ _ _ _ _, .refl _⟩ nofun

/-- The frame of a rule that stays open: its rule is one, and its end pattern is resolved if it
refers to groups. -/
theorem Cursor.opened_top
    (c : Cursor)
    (text : String)
    (m : PatternMatch)
    {id : RuleId}
    {rule : Rule}
    (hrule : s.grammar.rule? id = some rule)
    {captures : List (Option RuleId)}
    {closing : PatternSource}
    (hopening : openingOf? rule = some (captures, closing)) :
    (c.opened s text m id rule closing).top.Opened s.grammar ∧
      (c.opened s text m id rule closing).top.SitsOn c.state.top ∧
      (c.opened s text m id rule closing).below = c.state.frames := by
  have hsits : ∀ f : Frame,
      f.nameScopes = s.pushTemplate c.state.top.contentScopes rule.name text m.groups →
      f.contentScopes = s.pushTemplate f.nameScopes rule.contentName text m.groups →
      f.SitsOn c.state.top := by
    intro f hname hcontent
    refine ⟨?_, ?_⟩
    · rw [hname]
      exact ScopeList.extends_pushTemplate _ _ _ _ _
    · rw [hcontent]
      exact ScopeList.extends_pushTemplate _ _ _ _ _
  have hopened : ∀ f : Frame, f.rule = id → f.closing.isSome = closing.hasBackReferences →
      f.Opened s.grammar := by
    rintro f rfl hclosing
    cases rule with
    | region r =>
        obtain ⟨-, rfl⟩ := Prod.mk.inj (Option.some.inj hopening)
        exact .region r hrule hclosing
    | lines r =>
        obtain ⟨-, rfl⟩ := Prod.mk.inj (Option.some.inj hopening)
        exact .lines r hrule hclosing
    | _ => cases hopening
  unfold opened resolveClosing
  dsimp only
  split
  · rename_i hrefers
    exact ⟨hopened _ rfl (by rw [hrefers]; rfl), hsits _ rfl rfl, rfl⟩
  · rename_i hplain
    refine ⟨hopened _ rfl ?_, hsits _ rfl rfl, rfl⟩
    rw [Bool.not_eq_true] at hplain
    rw [hplain]
    rfl

/-- The states that a match leads to are stacked: the one in which it is covered as in the scan of
a group, the others as before. -/
structure Handling.Stacked
    (g : Grammar)
    (whole : Bool)
    (root : ScopeList)
    (k : Handling) : Prop where
  state : k.state.Stacked g false root
  next : k.next.Stacked g whole root
  recovery : ∀ r, k.recovery = some r → r.Stacked g whole root

theorem Cursor.handling_stacked
    (hc : c.state.Stacked s.grammar whole root)
    {m : PatternMatch}
    {k : Handling}
    (hk : c.handling s text m = some k) :
    k.Stacked s.grammar whole root := by
  have hrecovery : ∀ {b : Prop} [Decidable b] {t : State}, t.Stacked s.grammar whole root →
      ∀ r, (if b then some t else none) = some r → r.Stacked s.grammar whole root := by
    intro b _ t ht r hr
    split at hr
    · obtain rfl : t = r := Option.some.inj hr
      exact ht
    · cases hr
  unfold handling at hk
  split at hk
  · obtain rfl := Option.some.inj hk
    exact ⟨hc.delimited.weaken, hc.delimited.pop, hrecovery hc.delimited⟩
  · cases hk
  · rename_i id hlabel
    split at hk
    · cases hk
    · rename_i rule hrule
      have hentered : (c.entered s text m id rule).Stacked s.grammar false root :=
        entered_stacked hc m id rule
      split at hk
      · rename_i captures closing hopening
        obtain rfl := Option.some.inj hk
        have hopened : (c.opened s text m id rule closing).Stacked s.grammar whole root := by
          obtain ⟨htop, hsits, hbelow⟩ := opened_top c text m hrule hopening
          unfold State.Stacked
          rw [hbelow]
          exact ⟨hsits, fun _ => htop, hc⟩
        exact ⟨hentered, hopened, hrecovery hopened.pop⟩
      · obtain rfl := Option.some.inj hk
        exact ⟨hentered, hc, hrecovery hc.pop⟩

theorem step_stacked
    (hc : c.state.Stacked s.grammar whole root)
    {p : Progress}
    (h : (step s rescan text c).outcome = .ok p) :
    p.state.Stacked s.grammar whole root := by
  have hkept := Cursor.kept_stacked hc
  rcases step_eq_ok h with rfl | ⟨m, k, coverage, -, hk, -, rfl⟩
  · exact hkept
  · obtain ⟨-, hnext, hrecovery⟩ := Cursor.handling_stacked hkept hk
    rcases Cursor.state_resume with hstate | hstate
    · rw [hstate]
      exact hnext
    · exact hrecovery _ hstate

theorem run_stacked
    {bound : Nat}
    {limit : TimeLimit}
    {newest : List Entry}
    {e : ScanEnd}
    (hc : c.state.Stacked s.grammar whole root)
    (h : (run s rescan text bound limit c newest).outcome = .ok e) :
    e.cursor.state.Stacked s.grammar whole root := by
  induction bound generalizing limit c newest with
  | zero =>
      simp [run] at h
  | succ bound ih =>
      rcases run_succ_eq_ok h with ⟨-, rfl⟩ | ⟨p, hstep, hp⟩
      · exact hc
      · have hstate := step_stacked hc hstep
        rcases hp with ⟨rfl, -⟩ | ⟨d, rfl, hrun⟩
        · exact hstate
        · exact ih hstate hrun

/-- The rules that last line by line all go on, or one of their frames is left. -/
theorem state_continueRules
    {rules : List (WhileRule × State)}
    {c d : Cursor}
    (h : (continueRules s rescan text rules c).outcome = .ok d) :
    d.state = c.state ∨ ∃ r t, (r, t) ∈ rules ∧ d.state = t.pop := by
  induction rules generalizing c with
  | nil =>
      obtain rfl : c = d := by simpa [continueRules] using h
      exact .inl rfl
  | cons rule rest ih =>
      obtain ⟨r, t⟩ := rule
      simp only [continueRules, Reported.outcome_bind_eq_ok, Reported.outcome_liftM] at h
      obtain ⟨found, -, h⟩ := h
      cases found with
      | none =>
          simp only [Reported.outcome_reportIf_bind, Reported.outcome_pure, Except.ok.injEq] at h
          subst h
          exact .inr ⟨r, t, List.mem_cons_self, rfl⟩
      | some m =>
          dsimp only at h
          split at h
          · simp only [Reported.outcome_bind_eq_ok] at h
            obtain ⟨next, hnext, h⟩ := h
            rcases ih h with hsame | ⟨r', t', hmem, hleft⟩
            · exact .inl (hsame.trans (state_handleContinuation hnext))
            · exact .inr ⟨r', t', List.mem_cons_of_mem _ hmem, hleft⟩
          · simp only [Reported.outcome_reportIf_bind, Reported.outcome_pure,
              Except.ok.injEq] at h
            subst h
            exact .inr ⟨r, t, List.mem_cons_self, rfl⟩

/-- The frames of rules that last line by line, with what is under them. -/
theorem mem_suffixes_of_linesFrames
    {g : Grammar}
    {state : State}
    {r : WhileRule}
    {t : State}
    (h : (r, t) ∈ linesFrames g state) :
    t ∈ state.suffixes := by
  simp only [linesFrames, List.mem_reverse, List.mem_filterMap, Option.map_eq_some_iff] at h
  obtain ⟨u, hu, rule, -, hpair⟩ := h
  obtain rfl : u = t := (Prod.mk.inj hpair).2
  exact hu

theorem startLine_stacked
    {firstLine : Bool}
    {state : State}
    (hstate : state.Stacked s.grammar whole root)
    {coverage : Coverage}
    (h : (startLine s rescan text firstLine state coverage).outcome = .ok c) :
    c.state.Stacked s.grammar whole root := by
  have hkept := hstate.keepContinuations
  rcases state_continueRules h with hsame | ⟨r, t, hmem, hleft⟩
  · rw [hsame]
    exact hkept
  · rw [hleft]
    exact (hkept.of_mem_suffixes (mem_suffixes_of_linesFrames hmem)).pop

end Scan

end LineScopes
