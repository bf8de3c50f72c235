import LineScopes.Journal

/-!
# Outcomes of two computations

Two computations are compared by their outcomes: both fail with the same error, or both end well
with related values.

**Main definitions.** `SameOutcome`.

**Main statements.** `SameOutcome.bind`: related computations go on in a related way.
`Reported.bind_eq_of_ok`: what is reported by a composition.
-/

namespace LineScopes

/-- Both outcomes are the same error, or both are values that are related. -/
inductive SameOutcome
    {α β : Type}
    (R : α → β → Prop) : Except Error α → Except Error β → Prop
  | error (e : Error) : SameOutcome R (.error e) (.error e)
  | ok {a : α} {b : β} (h : R a b) : SameOutcome R (.ok a) (.ok b)

namespace SameOutcome

variable {α β γ δ : Type} {R : α → β → Prop} {S : γ → δ → Prop}
variable {x : Except Error α} {y : Except Error β}

theorem refl
    {R : α → α → Prop}
    (hR : ∀ a, R a a)
    (x : Except Error α) :
    SameOutcome R x x := by
  cases x with
  | error e =>
      exact .error e
  | ok a =>
      exact .ok (hR a)

theorem bind
    (h : SameOutcome R x y)
    {f : α → Except Error γ}
    {k : β → Except Error δ}
    (hfk : ∀ a b, x = .ok a → y = .ok b → R a b → SameOutcome S (f a) (k b)) :
    SameOutcome S (x.bind f) (y.bind k) := by
  cases h with
  | error e =>
      exact .error e
  | ok hR =>
      exact hfk _ _ rfl rfl hR

theorem map
    (h : SameOutcome R x y)
    {f : α → γ}
    {k : β → δ}
    (hfk : ∀ a b, x = .ok a → y = .ok b → R a b → S (f a) (k b)) :
    SameOutcome S (x.map f) (y.map k) := by
  cases h with
  | error e =>
      exact .error e
  | ok hR =>
      exact .ok (hfk _ _ rfl rfl hR)

theorem imp
    (h : SameOutcome R x y)
    {R' : α → β → Prop}
    (hR : ∀ a b, x = .ok a → y = .ok b → R a b → R' a b) :
    SameOutcome R' x y := by
  cases h with
  | error e =>
      exact .error e
  | ok h =>
      exact .ok (hR _ _ rfl rfl h)

theorem eq
    {x y : Except Error α}
    (h : SameOutcome (· = ·) x y) :
    x = y := by
  cases h with
  | error e =>
      rfl
  | ok h =>
      rw [h]

/-- If one computation ends well, so does the other one. -/
theorem exists_of_ok
    {b : β}
    (h : SameOutcome R x (.ok b)) :
    ∃ a, x = .ok a ∧ R a b := by
  cases h with
  | ok hR =>
      exact ⟨_, rfl, hR⟩

end SameOutcome

/-- A composition that ended well has a first part that ended well. -/
theorem exists_of_bind_eq_ok
    {ε α β : Type}
    {f : α → Except ε β}
    {x : Except ε α}
    {b : β}
    (h : x.bind f = .ok b) :
    ∃ a, x = .ok a ∧ f a = .ok b := by
  cases x with
  | error e =>
      cases h
  | ok a =>
      exact ⟨a, rfl, h⟩

/-- A composition that failed has a part that failed. -/
theorem error_of_bind_eq_error
    {α β : Type}
    {f : α → Except Error β}
    {x : Except Error α}
    {e : Error}
    (h : x.bind f = .error e) :
    x = .error e ∨ ∃ a, x = .ok a ∧ f a = .error e := by
  cases x with
  | error e =>
      exact .inl (by cases h; rfl)
  | ok a =>
      exact .inr ⟨a, rfl, h⟩

/-- What is said about the value of an outcome is said about an outcome that ended well. -/
theorem exists_of_map_eq_ok
    {ε α β : Type}
    {f : α → β}
    {x : Except ε α}
    {b : β}
    (h : x.map f = .ok b) :
    ∃ a, x = .ok a ∧ f a = b := by
  cases x with
  | error e =>
      cases h
  | ok a =>
      exact ⟨a, rfl, Except.ok.inj h⟩

namespace Reported

variable {α β : Type}

/-- A computation that gives its value at once reports nothing. -/
theorem liftM_ok_bind
    (a : α)
    (k : α → Reported β) :
    ((liftM (Except.ok a : Except Error α) : Reported α) >>= k) = k a := by
  rfl

/-- What follows a computation that ended well is reported behind it. -/
theorem bind_eq_of_ok
    {x : Reported α}
    {a : α}
    (h : x.outcome = .ok a)
    (k : α → Reported β) :
    (x >>= k) = ⟨x.entries ++ (k a).entries, (k a).outcome⟩ := by
  change andThen x k = _
  unfold andThen
  rw [h]

end Reported

end LineScopes
