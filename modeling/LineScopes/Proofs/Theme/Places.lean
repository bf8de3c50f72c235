import LineScopes.Proofs.Theme.Marks

/-!
# Where parent names are met

Parent names occur along the outer scopes if there is a place for each of them, one further out than
the other, and right behind the one before for a name that has to be met at once. They are looked for
without going back: each name is met at the first scope that it covers. This finds places wherever
there are some, unless a name covers a scope in front of which the names that have to follow at once
are not met, though they are met further out.

**Main definitions.** `Places`, `Nearest`, `Steady`, `MarksLead`.

**Main statements.** `walkOutward_iff`: what the walk finds. `walkOutward_of_places`: when it finds what
there is. `parentsMatch_iff_places`.
-/

namespace LineScopes

/-- Places along the outer scopes, one for each name. Each name covers the scope at its place, the
places lie further and further out, and a name that has to be met at once is at the first place that
is left. -/
def Places (outer : List String) : (next : Nat) → List ParentName → List Nat → Prop
  | _, [], [] => True
  | next, p :: names, place :: places =>
    next ≤ place ∧ (p.direct = true → place = next) ∧
      (∃ scope, outer[place]? = some scope ∧ Scope.covers p.name scope = true) ∧
      Places outer (place + 1) names places
  | _, _, _ => False

/-- No name covers a scope between the place before and its own place. -/
def Nearest (outer : List String) : (next : Nat) → List ParentName → List Nat → Prop
  | next, p :: names, place :: places =>
    (∀ between, next ≤ between → between < place →
      ∀ scope, outer[between]? = some scope → Scope.covers p.name scope = false) ∧
      Nearest outer (place + 1) names places
  | _, _, _ => True

section Walk

variable {outer rest : List String} {scope : String} {next : Nat}
variable {p : ParentName} {names : List ParentName} {places : List Nat}

/-- There is no place for a name where no scope is left. -/
theorem not_places_of_drop_eq_nil
    (h : [] = outer.drop next) :
    ¬ Places outer next (p :: names) places := by
  intro hplaces
  have hlength : outer.length ≤ next :=
    List.drop_eq_nil_iff.mp h.symm
  cases places with
  | nil =>
      cases hplaces
  | cons place places =>
      obtain ⟨hle, -, ⟨scope, hscope, -⟩, -⟩ := hplaces
      obtain ⟨hlt, -⟩ := List.getElem?_eq_some_iff.mp hscope
      omega

/-- A name that need not be met at once may be met as far out as before from a place further in. -/
theorem Places.of_le
    {earlier : Nat}
    (h : Places outer next (p :: names) places)
    (hdirect : p.direct = false)
    (hle : earlier ≤ next) :
    Places outer earlier (p :: names) places := by
  cases places with
  | nil =>
      cases h
  | cons place places =>
      obtain ⟨hnext, -, hcovers, hlater⟩ := h
      exact ⟨Nat.le_trans hle hnext, by simp [hdirect], hcovers, hlater⟩

/-- What is left of the outer scopes begins with the scope at the next place. -/
theorem getElem?_of_drop
    (h : scope :: rest = outer.drop next) :
    outer[next]? = some scope ∧ rest = outer.drop (next + 1) := by
  constructor
  · rw [← List.head?_drop, ← h]
    rfl
  · rw [← List.tail_drop, ← h]
    rfl

/-- A name that covers the next scope is met there. -/
theorem exists_nearest_of_covers
    (hscope : outer[next]? = some scope)
    (hcovers : Scope.covers p.name scope = true) :
    (∃ places, Places outer next (p :: names) places ∧ Nearest outer next (p :: names) places) ↔
      ∃ places, Places outer (next + 1) names places ∧ Nearest outer (next + 1) names places := by
  constructor
  · rintro ⟨places, hplaces, hnearest⟩
    cases places with
    | nil =>
        cases hplaces
    | cons place places =>
        obtain ⟨hle, -, -, hlater⟩ := hplaces
        obtain rfl : next = place := by
          by_contra hne
          have hfree := hnearest.1 next (Nat.le_refl next) (Nat.lt_of_le_of_ne hle hne) scope hscope
          rw [hcovers] at hfree
          cases hfree
        exact ⟨places, hlater, hnearest.2⟩
  · rintro ⟨places, hplaces, hnearest⟩
    refine ⟨next :: places, ⟨Nat.le_refl next, fun _ => rfl, ⟨scope, hscope, hcovers⟩, hplaces⟩,
      ?_, hnearest⟩
    intro between hle hlt
    omega

/-- A name that does not cover the next scope is met further out, if it may be. -/
theorem places_of_not_covers
    (hscope : outer[next]? = some scope)
    (hcovers : Scope.covers p.name scope = false) :
    Places outer next (p :: names) places ↔
      p.direct = false ∧ Places outer (next + 1) (p :: names) places := by
  constructor
  · intro h
    cases places with
    | nil =>
        cases h
    | cons place places =>
        obtain ⟨hle, hdirect, ⟨scope', hscope', hcovers'⟩, hlater⟩ := h
        have hne : place ≠ next := by
          rintro rfl
          rw [Option.some.inj (hscope.symm.trans hscope'), hcovers'] at hcovers
          cases hcovers
        exact ⟨by simpa using mt hdirect hne, by omega, fun h => absurd (hdirect h) hne,
          ⟨scope', hscope', hcovers'⟩, hlater⟩
  · rintro ⟨hdirect, h⟩
    exact h.of_le hdirect (Nat.le_succ next)

theorem nearest_of_not_covers
    (hscope : outer[next]? = some scope)
    (hcovers : Scope.covers p.name scope = false) :
    Nearest outer next (p :: names) places ↔ Nearest outer (next + 1) (p :: names) places := by
  cases places with
  | nil =>
      exact Iff.rfl
  | cons place places =>
      refine and_congr_left fun _ => ⟨fun h between hle => h between (by omega), ?_⟩
      intro h between hle hlt scope' hscope'
      by_cases heq : between = next
      · subst heq
        rwa [← Option.some.inj (hscope.symm.trans hscope')]
      · exact h between (by omega) hlt scope' hscope'

/-- The walk meets all names just if there are places for them, each one the nearest. -/
theorem walkOutward_iff
    (hrest : rest = outer.drop next) :
    walkOutward rest names = true ↔
      ∃ places, Places outer next names places ∧ Nearest outer next names places := by
  induction rest generalizing next names with
  | nil =>
      cases names with
      | nil =>
          exact ⟨fun _ => ⟨[], trivial, trivial⟩, fun _ => rfl⟩
      | cons p names =>
          refine ⟨fun h => Bool.noConfusion h, ?_⟩
          rintro ⟨places, hplaces, -⟩
          exact absurd hplaces (not_places_of_drop_eq_nil hrest)
  | cons scope rest ih =>
      obtain ⟨hscope, hrest⟩ := getElem?_of_drop hrest
      cases names with
      | nil =>
          exact ⟨fun _ => ⟨[], trivial, trivial⟩, fun _ => rfl⟩
      | cons p names =>
          rw [walkOutward]
          cases hcovers : Scope.covers p.name scope with
          | true =>
              rw [exists_nearest_of_covers hscope hcovers, if_pos rfl]
              exact ih hrest
          | false =>
              simp only [places_of_not_covers hscope hcovers, nearest_of_not_covers hscope hcovers,
                and_assoc, exists_and_left, ← ih hrest]
              simp

end Walk

section Steady

/-- Names cover scopes one by one from the first scope on. -/
def CoverFront : (names scopes : List String) → Prop
  | [], _ => True
  | _ :: _, [] => False
  | name :: names, scope :: scopes => Scope.covers name scope = true ∧ CoverFront names scopes

instance decidableCoverFront : (names scopes : List String) → Decidable (CoverFront names scopes)
  | [], _ => .isTrue trivial
  | _ :: _, [] => .isFalse id
  | _ :: names, _ :: scopes =>
    have := decidableCoverFront names scopes
    inferInstanceAs (Decidable (_ ∧ _))

/-- The names at the front that have to be met at once. -/
def following (names : List ParentName) : List String :=
  (names.takeWhile (·.direct)).map (·.name)

/-- If a name that may be met further out covers a scope, and if it is met together with the names
that have to follow it at once anywhere further out, then these follow it at that scope too. -/
def Steady
    (outer : List String)
    (names : List ParentName) : Prop :=
  ∀ p later, p :: later <:+ names → p.direct = false → ∀ near far, near ≤ far →
    CoverFront [p.name] (outer.drop near) →
    CoverFront (p.name :: following later) (outer.drop far) →
    CoverFront (p.name :: following later) (outer.drop near)

variable {outer rest : List String} {next : Nat} {names : List ParentName} {places : List Nat}

theorem Steady.of_suffix
    {later : List ParentName}
    (h : Steady outer names)
    (hsuffix : later <:+ names) :
    Steady outer later :=
  fun p others hothers => h p others (hothers.trans hsuffix)

theorem coverFront_cons_iff
    {name : String}
    {others : List String} :
    CoverFront (name :: others) (outer.drop next) ↔
      (∃ scope, outer[next]? = some scope ∧ Scope.covers name scope = true) ∧
        CoverFront others (outer.drop (next + 1)) := by
  cases hrest : outer.drop next with
  | nil =>
      have hnone : outer[next]? = none := by
        rw [← List.head?_drop, hrest]
        rfl
      simp [CoverFront, hnone]
  | cons scope rest =>
      obtain ⟨hscope, rfl⟩ := getElem?_of_drop hrest.symm
      simp [CoverFront, hscope]

/-- Names that have to be met at once cover the scopes from the next place on. -/
theorem Places.coverFront
    (h : Places outer next names places) :
    CoverFront (following names) (outer.drop next) := by
  induction names generalizing next places with
  | nil =>
      exact trivial
  | cons p names ih =>
      cases places with
      | nil =>
          cases h
      | cons place places =>
          obtain ⟨-, hdirect, hcovers, hlater⟩ := h
          cases hp : p.direct with
          | false =>
              simp [following, hp, CoverFront]
          | true =>
              obtain rfl := hdirect hp
              have hfollowing : following (p :: names) = p.name :: following names := by
                simp [following, hp]
              rw [hfollowing]
              exact coverFront_cons_iff.mpr ⟨hcovers, ih hlater⟩

/-- If the names that have to be met at once cover the scopes further in as well, all names have
places there. -/
theorem Places.exists_of_coverFront
    {earlier : Nat}
    (h : Places outer next names places)
    (hle : earlier ≤ next)
    (hfront : CoverFront (following names) (outer.drop earlier)) :
    ∃ places, Places outer earlier names places := by
  induction names generalizing next earlier places with
  | nil =>
      exact ⟨[], trivial⟩
  | cons p names ih =>
      cases hp : p.direct with
      | false =>
          exact ⟨places, h.of_le hp hle⟩
      | true =>
          cases places with
          | nil =>
              cases h
          | cons place places =>
              obtain ⟨-, hdirect, -, hlater⟩ := h
              obtain rfl := hdirect hp
              have hfollowing : following (p :: names) = p.name :: following names := by
                simp [following, hp]
              rw [hfollowing, coverFront_cons_iff] at hfront
              obtain ⟨later, hplaces⟩ := ih hlater (Nat.succ_le_succ hle) hfront.2
              exact ⟨earlier :: later, Nat.le_refl earlier, fun _ => rfl, hfront.1, hplaces⟩

/-- A steady name may be met at the next scope if it covers this scope. -/
theorem Places.exists_of_covers
    {p : ParentName}
    {scope : String}
    (h : Places outer next (p :: names) places)
    (hsteady : Steady outer (p :: names))
    (hscope : outer[next]? = some scope)
    (hcovers : Scope.covers p.name scope = true) :
    ∃ places, Places outer (next + 1) names places := by
  cases places with
  | nil =>
      cases h
  | cons place places =>
      obtain ⟨hle, hdirect, hplace, hlater⟩ := h
      cases hp : p.direct with
      | true =>
          obtain rfl := hdirect hp
          exact ⟨places, hlater⟩
      | false =>
          have hnear : CoverFront [p.name] (outer.drop next) :=
            coverFront_cons_iff.mpr ⟨⟨scope, hscope, hcovers⟩, trivial⟩
          have hfar : CoverFront (p.name :: following names) (outer.drop place) :=
            coverFront_cons_iff.mpr ⟨hplace, hlater.coverFront⟩
          have hfront := hsteady p names List.suffix_rfl hp next place hle hnear hfar
          exact hlater.exists_of_coverFront (Nat.succ_le_succ hle) (coverFront_cons_iff.mp hfront).2

/-- Names that are steady are met by the walk if there are places for them. -/
theorem walkOutward_of_places
    (hsteady : Steady outer names)
    (h : Places outer next names places)
    (hrest : rest = outer.drop next) :
    walkOutward rest names = true := by
  induction rest generalizing next names places with
  | nil =>
      cases names with
      | nil =>
          rfl
      | cons p names =>
          exact absurd h (not_places_of_drop_eq_nil hrest)
  | cons scope rest ih =>
      obtain ⟨hscope, hrest⟩ := getElem?_of_drop hrest
      cases names with
      | nil =>
          rfl
      | cons p names =>
          rw [walkOutward]
          cases hcovers : Scope.covers p.name scope with
          | true =>
              obtain ⟨later, hlater⟩ := h.exists_of_covers hsteady hscope hcovers
              exact ih (hsteady.of_suffix (List.suffix_cons p names)) hlater hrest
          | false =>
              obtain ⟨hdirect, hfurther⟩ := (places_of_not_covers hscope hcovers).mp h
              rw [hdirect]
              exact ih hsteady hfurther hrest

end Steady

/-- Every mark has a name behind it: none is last, and no two follow each other. -/
def MarksLead (parents : List String) : Prop :=
  parents.getLast? ≠ some ">" ∧ ¬ [">", ">"] <:+: parents

instance (parents : List String) : Decidable (MarksLead parents) :=
  inferInstanceAs (Decidable (_ ∧ _))

/-- Parent names match just if each one has the nearest place that it covers behind the place before.
If they are steady, they match just if there are places for them at all. -/
theorem parentsMatch_iff_places
    {outer parents : List String}
    (h : MarksLead parents) :
    (parentsMatch outer parents = true ↔
      ∃ places, Places outer 0 (readParents parents) places ∧
        Nearest outer 0 (readParents parents) places) ∧
    (Steady outer (readParents parents) →
      (parentsMatch outer parents = true ↔
        ∃ places, Places outer 0 (readParents parents) places)) := by
  rw [parentsMatch_eq_walkOutward outer h.1]
  have hfound : walkOutward outer (readParents parents) = true ↔ _ :=
    walkOutward_iff List.drop_zero.symm
  refine ⟨hfound, fun hsteady => ⟨fun hwalk => ?_, ?_⟩⟩
  · obtain ⟨places, hplaces, -⟩ := hfound.mp hwalk
    exact ⟨places, hplaces⟩
  · rintro ⟨places, hplaces⟩
    exact walkOutward_of_places hsteady hplaces List.drop_zero.symm

/-- The scopes around a tag of a script in a page that is inside a script of another page. -/
def scripts : List String :=
  ["meta.tag", "source.js", "text.html", "source.js", "text.html"]

/-- The parents of a direct child of a tag in a script that is a direct child of a page. -/
def taggedInScript : List String :=
  [">", "meta.tag", "source", ">", "text"]

/-- Every script is the direct child of a page. -/
theorem steady_scripts :
    Steady scripts (readParents taggedInScript) := by
  have hfront : ∀ near < 5, CoverFront ["source"] (scripts.drop near) →
      CoverFront ["source", "text"] (scripts.drop near) := by
    decide +kernel
  have hread : readParents taggedInScript =
      [⟨true, "meta.tag"⟩, ⟨false, "source"⟩, ⟨true, "text"⟩] := by
    decide +kernel
  intro p later hsuffix hdirect near far _ hnear _
  have hp : p = ⟨false, "source"⟩ ∧ later = [⟨true, "text"⟩] := by
    simp only [hread, List.suffix_cons_iff, List.suffix_nil, List.cons.injEq] at hsuffix
    rcases hsuffix with ⟨rfl, -⟩ | hp | ⟨rfl, -⟩ | hnil
    · cases hdirect
    · exact hp
    · cases hdirect
    · cases hnil
  obtain ⟨rfl, rfl⟩ := hp
  by_cases hlt : near < 5
  · exact hfront near hlt hnear
  · have hnil : scripts.drop near = [] :=
      List.drop_eq_nil_of_le (Nat.not_lt.mp hlt)
    rw [hnil] at hnear
    cases hnear

/-- The tag is met at once, the script further out, and the page right behind it. -/
theorem parentsMatch_iff_places_script :
    MarksLead taggedInScript ∧ Steady scripts (readParents taggedInScript) ∧
      Places scripts 0 (readParents taggedInScript) [0, 1, 2] ∧
      parentsMatch scripts taggedInScript = true := by
  have hmarks : MarksLead taggedInScript := by
    decide +kernel
  have hplaces : Places scripts 0 (readParents taggedInScript) [0, 1, 2] := by
    refine ⟨by decide, by decide, ⟨"meta.tag", rfl, by decide +kernel⟩, ?_⟩
    refine ⟨by decide, by decide, ⟨"source.js", rfl, by decide +kernel⟩, ?_⟩
    refine ⟨by decide, by decide, ⟨"text.html", rfl, by decide +kernel⟩, trivial⟩
  exact ⟨hmarks, steady_scripts, hplaces,
    ((parentsMatch_iff_places hmarks).2 steady_scripts).mpr ⟨[0, 1, 2], hplaces⟩⟩

/-- A string in a tag inside another tag, the outer one of which is the direct child of a script: the
walk looks for the script around the inner tag only. -/
theorem parentsMatch_of_inner_tag :
    MarksLead ["meta.tag", ">", "source"] ∧
      Places ["meta.tag", "text", "meta.tag", "source"] 0
        (readParents ["meta.tag", ">", "source"]) [2, 3] ∧
      parentsMatch ["meta.tag", "text", "meta.tag", "source"] ["meta.tag", ">", "source"] =
        false := by
  refine ⟨by decide +kernel, ?_, by decide +kernel⟩
  refine ⟨by decide, by decide, ⟨"meta.tag", rfl, by decide +kernel⟩, ?_⟩
  refine ⟨by decide, by decide, ⟨"source", rfl, by decide +kernel⟩, trivial⟩

end LineScopes
