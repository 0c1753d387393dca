import Mathlib.Logic.Relation

/-!
# Runs of a labelled step function

A component takes labelled steps, each of which may fail. `Reach` relates two states when the first
reaches the second by successful steps that each meet a condition; `Reach.invariant` carries a
property of states along a run.

A loop over a range that may be left early is a `foldlM` in `Except`, with what the loop returns as
the error. `Leaves` gives a property of the state it goes on with and one of what it returns;
`Leaves.foldlM_range` carries both through the loop.
-/

set_option autoImplicit false

namespace Vx6.Lib

universe u v

variable {σ : Type u} {α : Type v}

/-- One successful step that meets the condition `ok`. -/
def Step (step : σ → α → Option σ) (ok : σ → α → Prop) (s t : σ) : Prop :=
  ∃ a, ok s a ∧ step s a = some t

/-- A run of successful steps that all meet the condition `ok`. -/
abbrev Reach (step : σ → α → Option σ) (ok : σ → α → Prop) : σ → σ → Prop :=
  Relation.ReflTransGen (Step step ok)

variable {step : σ → α → Option σ} {ok : σ → α → Prop}

/-- What every step preserves holds at the end of a run when it holds at its start. -/
theorem Reach.invariant {inv : σ → Prop}
    (hstep : ∀ s a t, inv s → ok s a → step s a = some t → inv t) {s t : σ}
    (h : Reach step ok s t) (hs : inv s) : inv t := by
  induction h with
  | refl => exact hs
  | tail _ hlast ih =>
    obtain ⟨a, hok, ha⟩ := hlast
    exact hstep _ a _ ih hok ha

/-- A list of steps that all succeed is a run, when the steps are taken with a check of the condition. -/
theorem Reach.of_checkedM {checked : σ → α → Option σ}
    (hchecked : ∀ s a t, checked s a = some t → Step step ok s t) (as : List α) {s t : σ}
    (h : as.foldlM checked s = some t) : Reach step ok s t := by
  induction as generalizing s with
  | nil =>
    cases h
    exact .refl
  | cons a as ih =>
    rw [List.foldlM_cons, Option.bind_eq_bind, Option.bind_eq_some_iff] at h
    obtain ⟨u, hfirst, hrest⟩ := h
    exact .head (hchecked s a u hfirst) (ih hrest)

/-- The same with a test that is enough for the condition. -/
theorem Reach.of_testedM {test : σ → α → Bool} (htest : ∀ s a, test s a = true → ok s a) (as : List α)
    {s t : σ} (h : as.foldlM (fun s a => if test s a then step s a else none) s = some t) :
    Reach step ok s t := by
  refine Reach.of_checkedM (fun s a u hstep => ?_) as h
  cases hok : test s a with
  | true => exact ⟨a, htest s a hok, by simpa [hok] using hstep⟩
  | false => simp [hok] at hstep

/-- A list of steps that all succeed is a run, when every step may be taken. -/
theorem Reach.of_foldlM (hok : ∀ s a, ok s a) (as : List α) {s t : σ}
    (h : as.foldlM step s = some t) : Reach step ok s t :=
  Reach.of_checkedM (fun s a _ hstep => ⟨a, hok s a, hstep⟩) as h

/-- What no turn of a loop changes, the loop does not change. -/
theorem foldl_same {β : Type*} {f : σ → α → σ} {p : σ → β} (h : ∀ s a, p (f s a) = p s)
    (as : List α) (s : σ) : p (as.foldl f s) = p s := by
  induction as generalizing s with
  | nil => rfl
  | cons a as ih => rw [List.foldl_cons, ih, h]

variable {ε : Type v}

/-- The loop goes on with a state for which `inv` holds, or is left with a result for which `post`
holds. -/
def Leaves (post : ε → Prop) (inv : σ → Prop) : Except ε σ → Prop
  | .ok s => inv s
  | .error e => post e

theorem Leaves.imp {post post' : ε → Prop} {inv inv' : σ → Prop} {r : Except ε σ}
    (h : Leaves post inv r) (hpost : ∀ e, post e → post' e) (hinv : ∀ s, inv s → inv' s) :
    Leaves post' inv' r := by
  cases r with
  | ok s => exact hinv s h
  | error e => exact hpost e h

theorem Leaves.and {post post' : ε → Prop} {inv inv' : σ → Prop} {r : Except ε σ}
    (h : Leaves post inv r) (h' : Leaves post' inv' r) :
    Leaves (fun e => post e ∧ post' e) (fun s => inv s ∧ inv' s) r := by
  cases r with
  | ok s => exact ⟨h, h'⟩
  | error e => exact ⟨h, h'⟩

/-- The rule for a loop over a range: `inv i` holds before the turn `i`. -/
theorem Leaves.foldlM_range {f : σ → Nat → Except ε σ} (inv : Nat → σ → Prop) {post : ε → Prop}
    {s : σ} (m : Nat) (hstep : ∀ i s, i < m → inv i s → Leaves post (inv (i + 1)) (f s i))
    (hstart : inv 0 s) : Leaves post (inv m) ((List.range m).foldlM f s) := by
  induction m with
  | zero => exact hstart
  | succ m ih =>
    have hbefore := ih fun i s hi => hstep i s (by omega)
    rw [List.range_succ, List.foldlM_append]
    cases hrun : (List.range m).foldlM f s with
    | error e =>
      rw [hrun] at hbefore
      exact hbefore
    | ok t =>
      rw [hrun] at hbefore
      have hlast := hstep m t (by omega) hbefore
      cases hturn : f t m with
      | error e =>
        rw [hturn] at hlast
        simpa [bind, Except.bind, hturn] using hlast
      | ok u =>
        rw [hturn] at hlast
        simpa [bind, Except.bind, pure, Except.pure, hturn] using hlast

end Vx6.Lib
