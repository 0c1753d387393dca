import Vx6.Lib.Checks

/-!
# Computations that may panic

A function of the Go libraries may be defined on some arguments only and panic on the others. A
`Panicking` computation panics, fails with an error, or returns a value; `guarded` is a call of such a
function under its precondition. `Safe` says that a computation does not panic, with one rule for each
way it is put together. `Refines` says that it is safe and does what a computation without panics
does.
-/

set_option autoImplicit false

namespace Vx6.Lib

variable {ε α β γ : Type}

/-- A computation that panics (`none`), fails with an error, or returns a value. -/
abbrev Panicking (ε α : Type) := ExceptT ε Option α

/-- A step that cannot panic. -/
def attempt (x : Except ε α) : Panicking ε α := ExceptT.mk (some x)

/-- A call under a precondition. -/
def guarded (pre : Prop) [Decidable pre] (a : α) : Panicking ε α :=
  if pre then pure a else ExceptT.mk none

/-- The computation does not panic. -/
def Safe (x : Panicking ε α) : Prop := x.run ≠ none

/-! ## Safe computations -/

theorem safe_attempt (x : Except ε α) : Safe (attempt x) := Option.some_ne_none x

theorem safe_pure (a : α) : Safe (pure a : Panicking ε α) := by
  simp [Safe]

/-- A step that cannot panic hands over to the rest. -/
theorem safe_attempt_bind_iff {x : Except ε α} {f : α → Panicking ε β} :
    Safe (attempt x >>= f) ↔ ∀ a, x = .ok a → Safe (f a) := by
  cases x with
  | error e =>
    simp [Safe, attempt, ExceptT.run, ExceptT.mk, bind, ExceptT.bind, ExceptT.bindCont, pure]
  | ok b =>
    simp [Safe, attempt, ExceptT.run, ExceptT.mk, bind, ExceptT.bind, ExceptT.bindCont]

theorem safe_guarded_bind_iff {pre : Prop} [Decidable pre] {a : α} {f : α → Panicking ε β} :
    Safe ((guarded pre a : Panicking ε α) >>= f) ↔ pre ∧ Safe (f a) := by
  by_cases h : pre
  · simp [guarded, h, Safe]
  · simp [guarded, h, Safe, ExceptT.run, ExceptT.mk, bind, ExceptT.bind]

/-- The outcome of a computation as a value, for a caller that goes on after an error. -/
def caught {ε' : Type} (x : Panicking ε α) : Panicking ε' (Except ε α) :=
  ExceptT.mk (x.run.map Except.ok)

theorem safe_caught_bind_iff {ε' : Type} {x : Panicking ε α} {f : Except ε α → Panicking ε' β} :
    Safe (caught x >>= f) ↔ ∃ r, x.run = some r ∧ Safe (f r) := by
  cases hx : x.run with
  | none =>
    have hcaught : (caught x : Panicking ε' (Except ε α)) = ExceptT.mk none := by
      rw [caught, hx]
      rfl
    rw [hcaught]
    simp [Safe, ExceptT.run, ExceptT.mk, bind, ExceptT.bind]
  | some r =>
    have hcaught : (caught x : Panicking ε' (Except ε α)) = attempt (.ok r) := by
      rw [caught, hx]
      rfl
    rw [hcaught, safe_attempt_bind_iff]
    simp

/-- A last step that only builds the result. -/
theorem safe_bind_return_iff (x : Panicking ε α) (f : α → β) :
    Safe (x >>= fun a => return f a) ↔ Safe x := by
  rw [Safe, Safe, ← map_eq_pure_bind, ExceptT.run_map]
  cases x.run <;> simp

/-! ## Returned values -/

/-- The computation returns `a`. -/
def Returns (x : Panicking ε α) (a : α) : Prop := x.run = some (.ok a)

theorem returns_attempt_iff {x : Except ε α} {a : α} : Returns (attempt x) a ↔ x = .ok a := by
  simp [Returns, attempt, ExceptT.run, ExceptT.mk]

theorem returns_pure_iff {a b : α} : Returns (pure a : Panicking ε α) b ↔ a = b := by
  simp [Returns]

theorem returns_guarded_iff {pre : Prop} [Decidable pre] {a b : α} :
    Returns (guarded pre a : Panicking ε α) b ↔ pre ∧ a = b := by
  by_cases h : pre
  · simp [guarded, h, Returns]
  · simp [guarded, h, Returns, ExceptT.run, ExceptT.mk]

/-- A sequence returns what its second part returns on the value of the first. -/
theorem returns_bind_iff {x : Panicking ε α} {f : α → Panicking ε β} {b : β} :
    Returns (x >>= f) b ↔ ∃ a, Returns x a ∧ Returns (f a) b := by
  rw [Returns, ExceptT.run_bind]
  rcases hx : x.run with _ | (e | a)
  · simp [Returns, hx]
  · simp [Returns, hx]
  · simp [Returns, hx]

/-! ## Refinement -/

/-- The computation does not panic and has the results of `y`, seen through `view`. -/
def Refines (x : Panicking ε α) (y : Except ε β) (view : β → α) : Prop := x.run = some (y.map view)

theorem Refines.safe {x : Panicking ε α} {y : Except ε β} {view : β → α} (h : Refines x y view) :
    Safe x := by
  rw [Safe, h]
  exact Option.some_ne_none _

theorem refines_attempt (x : Except ε α) : Refines (attempt x) x id := by
  rw [Refines]
  cases x <;> rfl

theorem Refines.safe_bind {x : Panicking ε α} {y : Except ε β} {view : β → α} (h : Refines x y view)
    {f : α → Panicking ε γ} (hf : ∀ b, Safe (f (view b))) : Safe (x >>= f) := by
  cases y with
  | error e =>
    have hx : x = attempt (.error e) := h
    rw [hx]
    exact safe_attempt_bind_iff.2 fun a ha => nomatch ha
  | ok b =>
    have hx : x = attempt (.ok (view b)) := h
    rw [hx]
    exact hf b

/-- A step that cannot panic is taken on both sides. -/
theorem Refines.attempt_bind {x : Except ε α} {f : α → Panicking ε β} {g : α → Except ε γ}
    {view : γ → β} (h : ∀ a, x = .ok a → Refines (f a) (g a) view) :
    Refines (attempt x >>= f) (x >>= g) view := by
  cases x with
  | error e => rfl
  | ok a => exact h a rfl

/-- A step that refines another one is taken on both sides. -/
theorem Refines.bind {δ : Type} {x : Panicking ε α} {y : Except ε β} {view : β → α}
    {f : α → Panicking ε γ} {g : β → Except ε δ} {view' : δ → γ} (h : Refines x y view)
    (hf : ∀ b, y = .ok b → Refines (f (view b)) (g b) view') : Refines (x >>= f) (y >>= g) view' := by
  cases y with
  | error e =>
    have hx : x = attempt (.error e) := h
    rw [hx]
    rfl
  | ok b =>
    have hx : x = attempt (.ok (view b)) := h
    rw [hx]
    exact hf b rfl

/-- What the computation without panics returns in the end does not matter to a view that is
constant. -/
theorem Refines.of_return {a : α} {x : Panicking ε α} {y : Except ε β} (h : Refines x y fun _ => a)
    (f : β → γ) : Refines x (y >>= fun b => return f b) fun _ => a := by
  rw [Refines, h]
  cases y <;> rfl

/-- The errors of a computation, wrapped. -/
def wrap {ε' : Type} (f : ε → ε') (x : Panicking ε α) : Panicking ε' α :=
  ExceptT.mk (x.run.map fun r => r.mapError f)

theorem returns_wrap_iff {ε' : Type} {f : ε → ε'} {x : Panicking ε α} {a : α} :
    Returns (wrap f x) a ↔ Returns x a := by
  rw [Returns, Returns, wrap, ExceptT.run_mk]
  rcases x.run with _ | (e | b)
  · simp
  · simp [Except.mapError]
  · simp [Except.mapError]

theorem Refines.wrap {ε' : Type} {x : Panicking ε α} {y : Except ε β} {view : β → α}
    (h : Refines x y view) (f : ε → ε') : Refines (wrap f x) (y.mapError f) view := by
  rw [Refines, Lib.wrap, ExceptT.run_mk, h]
  cases y <;> rfl

end Vx6.Lib
