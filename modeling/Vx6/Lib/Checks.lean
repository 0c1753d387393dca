import Mathlib.Tactic

/-!
# Sequences of checks

Validation code is a sequence of tests, each of which may end the function with an error. In
`Except` such a sequence is a `do` block over `rejectIf` and `orReject`; the lemmas below turn a
successful run into the conjunction of its tests.
-/

set_option autoImplicit false

namespace Vx6.Lib

universe u

variable {ε : Type u} {α β : Type}

/-- Fail with `e` when the test holds. -/
def rejectIf (test : Bool) (e : ε) : Except ε Unit := if test then .error e else .ok ()

/-- The value of an option, or the error `e`. -/
def orReject (o : Option α) (e : ε) : Except ε α :=
  match o with
  | some a => .ok a
  | none => .error e

/-- The value of an option together with the fact that the option holds it, or the error `e`. -/
def orRejectSub (o : Option α) (e : ε) : Except ε {a // o = some a} :=
  match o with
  | some a => .ok ⟨a, rfl⟩
  | none => .error e

theorem rejectIf_eq_ok {test : Bool} {e : ε} {u : Unit} :
    rejectIf test e = .ok u ↔ test = false := by
  cases test <;> simp [rejectIf]

theorem orReject_eq_ok {o : Option α} {e : ε} {a : α} : orReject o e = .ok a ↔ o = some a := by
  cases o <;> simp [orReject]

theorem orRejectSub_of_eq {o : Option α} {a : α} (h : o = some a) (e : ε) :
    orRejectSub o e = .ok ⟨a, h⟩ := by
  subst h
  rfl

theorem bind_eq_ok {x : Except ε α} {f : α → Except ε β} {b : β} :
    (x >>= f) = .ok b ↔ ∃ a, x = .ok a ∧ f a = .ok b := by
  cases x with
  | error e => simp [bind, Except.bind]
  | ok a => simp [bind, Except.bind]

theorem check_bind_eq_ok {x : Except ε Unit} {f : Unit → Except ε β} {b : β} :
    (x >>= f) = .ok b ↔ x = .ok () ∧ f () = .ok b := by
  rw [bind_eq_ok]
  exact ⟨fun ⟨_, hx, hf⟩ => ⟨hx, hf⟩, fun ⟨hx, hf⟩ => ⟨(), hx, hf⟩⟩

theorem pure_eq_ok {a b : α} : (pure a : Except ε α) = .ok b ↔ a = b := by
  simp [pure, Except.pure]

theorem mapError_eq_ok {ε ε' α : Type} {f : ε → ε'} {x : Except ε α} {a : α} :
    x.mapError f = .ok a ↔ x = .ok a := by
  cases x <;> simp [Except.mapError]

theorem ok_of_isOk {x : Except ε Unit} (h : x.isOk = true) : x = .ok () := by
  cases x with
  | error e => cases h
  | ok u => rfl

/-! A computation fails with the error of its first step that fails. -/

theorem rejectIf_eq_error {test : Bool} {e e' : ε} :
    rejectIf test e = .error e' ↔ test = true ∧ e = e' := by
  cases test <;> simp [rejectIf]

theorem bind_eq_error {x : Except ε α} {f : α → Except ε β} {e : ε} :
    (x >>= f) = .error e ↔ x = .error e ∨ ∃ a, x = .ok a ∧ f a = .error e := by
  cases x with
  | error e => simp [bind, Except.bind]
  | ok a => simp [bind, Except.bind]

theorem mapError_eq_error {ε ε' α : Type} {f : ε → ε'} {x : Except ε α} {e' : ε'} :
    x.mapError f = .error e' ↔ ∃ e, x = .error e ∧ f e = e' := by
  cases x <;> simp [Except.mapError]

theorem ok_of_toOption {x : Except ε α} {a : α} (h : x.toOption = some a) : x = .ok a := by
  cases x with
  | error e => simp [Except.toOption] at h
  | ok b => simpa [Except.toOption] using h

end Vx6.Lib
