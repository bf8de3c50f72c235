import LineScopes.Error

/-!
# Computations that report

Loading, compiling and tokenizing report what they do. A report never influences a result: a
computation is a list of entries beside an outcome, and the outcome of a composition depends on
outcomes only.

**Main definitions.** `Entry`, `Reported`, `report`, `fail`.

**Main statements.** `outcome_bind`: outcomes compose without the entries. `outcome_bind_eq_ok`:
a composition ends well if both parts do.
-/

namespace LineScopes

/-- How important an entry is, the most important first. -/
inductive Level where
  | warn
  | debug
  | trace
deriving DecidableEq, Repr

namespace Level

/-- The name written in front of an entry. -/
def label : Level → String
  | warn => "WARN"
  | debug => "DEBUG"
  | trace => "TRACE"

/-- A rank that grows with the amount of detail. -/
def rank : Level → Nat
  | warn => 0
  | debug => 1
  | trace => 2

end Level

/-- One reported line. -/
structure Entry where
  level : Level
  text : String
deriving DecidableEq, Repr

/-- A computation that ends with a value or an error and has reported some entries. -/
structure Reported (α : Type) where
  entries : List Entry
  outcome : Except Error α

namespace Reported

variable {α β : Type}

/-- A computation that reports nothing. -/
def ofExcept (x : Except Error α) : Reported α :=
  ⟨[], x⟩

/-- Runs one computation, then the next on its value. The entries of both are kept in order. -/
def andThen
    (x : Reported α)
    (f : α → Reported β) : Reported β :=
  match x.outcome with
  | .ok a =>
    let y := f a
    ⟨x.entries ++ y.entries, y.outcome⟩
  | .error e => ⟨x.entries, .error e⟩

instance : Monad Reported where
  pure a := ⟨[], .ok a⟩
  bind := andThen

instance : MonadLift (Except Error) Reported where
  monadLift := ofExcept

/-- Reports an entry. -/
def report
    (level : Level)
    (text : String) : Reported Unit :=
  ⟨[⟨level, text⟩], .ok ()⟩

/-- Reports an entry if a condition holds; the text is only built then. -/
def reportIf
    (on : Bool)
    (level : Level)
    (text : Unit → String) : Reported Unit :=
  if on then report level (text ()) else pure ()

/-- Ends with an error. -/
def fail (e : Error) : Reported α :=
  ⟨[], .error e⟩

@[simp] theorem outcome_pure
    (a : α) :
    (pure a : Reported α).outcome = .ok a := by
  rfl

@[simp] theorem outcome_bind
    (x : Reported α)
    (f : α → Reported β) :
    (x >>= f).outcome = x.outcome >>= fun a => (f a).outcome := by
  show (andThen x f).outcome = _
  unfold andThen
  cases h : x.outcome <;> simp [bind, Except.bind]

@[simp] theorem outcome_ofExcept
    (x : Except Error α) :
    (ofExcept x).outcome = x := by
  rfl

@[simp] theorem outcome_liftM
    (x : Except Error α) :
    (liftM x : Reported α).outcome = x := by
  rfl

theorem outcome_bind_eq_ok
    {x : Reported α}
    {f : α → Reported β}
    {b : β} :
    (x >>= f).outcome = .ok b ↔ ∃ a, x.outcome = .ok a ∧ (f a).outcome = .ok b := by
  rw [outcome_bind]
  cases x.outcome with
  | error e => simp [bind, Except.bind]
  | ok a => simp [bind, Except.bind]

@[simp] theorem outcome_report
    (level : Level)
    (text : String) :
    (report level text).outcome = .ok () := by
  rfl

@[simp] theorem outcome_reportIf
    (on : Bool)
    (level : Level)
    (text : Unit → String) :
    (reportIf on level text).outcome = .ok () := by
  unfold reportIf
  split <;> simp

@[simp] theorem outcome_reportIf_bind
    (on : Bool)
    (level : Level)
    (text : Unit → String)
    (f : Unit → Reported β) :
    (reportIf on level text >>= f).outcome = (f ()).outcome := by
  rw [outcome_bind, outcome_reportIf]
  rfl

/-- What follows a computation and always ends well only changes its value. -/
theorem outcome_bind_eq_map
    {x : Reported α}
    {f : α → Reported β}
    {k : α → β}
    (h : ∀ a, (f a).outcome = .ok (k a)) :
    (x >>= f).outcome = x.outcome.map k := by
  rw [outcome_bind]
  cases x.outcome with
  | error e => rfl
  | ok a => exact h a

@[simp] theorem outcome_fail
    (e : Error) :
    (fail e : Reported α).outcome = .error e := by
  rfl

end Reported

end LineScopes
