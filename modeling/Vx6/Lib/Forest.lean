import Mathlib.Logic.Function.Basic
import Mathlib.Data.Option.Basic
import Mathlib.Tactic.Common

/-!
# Numbered forests

Items are taken up one after the other, each as a root or below an item that is there already. A new root
gets a number above all numbers in use, an item below another one gets the number of that one. `Numbered`
says what this keeps, and `Numbered.same_iff` what the numbers are for: two items have the same number just
when they descend from the same root.
-/

set_option autoImplicit false

namespace Vx6.Lib

universe u

variable {κ : Type u}

/-- The item descends from the root; `parent` is `some none` for a root and `none` for what is not there. -/
inductive DescendsFrom (parent : κ → Option (Option κ)) : κ → κ → Prop
  | root {k : κ} (h : parent k = some none) : DescendsFrom parent k k
  | child {k p r : κ} (h : parent k = some (some p)) (hp : DescendsFrom parent p r) :
      DescendsFrom parent k r

namespace DescendsFrom

variable {parent parent' : κ → Option (Option κ)} {k r : κ}

theorem parent_root (h : DescendsFrom parent k r) : parent r = some none := by
  induction h with
  | root h => exact h
  | child _ _ ih => exact ih

/-- A root descends from itself only. -/
theorem eq_of_root (h : DescendsFrom parent k r) (hk : parent k = some none) : r = k := by
  cases h with
  | root _ => rfl
  | child hparent _ =>
    rw [hk] at hparent
    cases hparent

/-- An item that is there keeps its root if the items there keep their parents. -/
theorem mono (h : DescendsFrom parent k r) (hkeeps : ∀ k p, parent k = some p → parent' k = some p) :
    DescendsFrom parent' k r := by
  induction h with
  | root h => exact .root (hkeeps _ _ h)
  | child h _ ih => exact .child (hkeeps _ _ h) ih

end DescendsFrom

/-- The items have the numbers of their roots, and those are different and at most `top`. -/
structure Numbered (parent : κ → Option (Option κ)) (number : κ → Option Int) (top : Int) : Prop where
  there : ∀ k, (number k).isSome = (parent k).isSome
  inherits : ∀ k p, parent k = some (some p) → number k = number p
  below : ∀ k n, number k = some n → n ≤ top
  apart : ∀ r r', parent r = some none → parent r' = some none → number r = number r' → r = r'
  rooted : ∀ k p, parent k = some p → ∃ r, DescendsFrom parent k r

namespace Numbered

variable {parent : κ → Option (Option κ)} {number : κ → Option Int} {top top' : Int} {k k' p : κ}

theorem empty (top : Int) : Numbered (fun _ : κ => none) (fun _ => none) top where
  there _ := rfl
  inherits k p h := by cases h
  below k n h := by cases h
  apart r r' h := by cases h
  rooted k p h := by cases h

theorem mono (h : Numbered parent number top) (hbelow : ∀ k n, number k = some n → n ≤ top') :
    Numbered parent number top' :=
  ⟨h.there, h.inherits, hbelow, h.apart, h.rooted⟩

theorem number_root (h : Numbered parent number top) (hk : DescendsFrom parent k p) :
    number k = number p := by
  induction hk with
  | root _ => rfl
  | child hparent _ ih => rw [h.inherits _ _ hparent, ih]

/-- Items have the same number just when they descend from the same root. -/
theorem same_iff (h : Numbered parent number top) (hk : (parent k).isSome = true)
    (hk' : (parent k').isSome = true) :
    number k = number k' ↔ ∃ r, DescendsFrom parent k r ∧ DescendsFrom parent k' r := by
  constructor
  · intro hsame
    obtain ⟨p, hp⟩ := Option.isSome_iff_exists.1 hk
    obtain ⟨p', hp'⟩ := Option.isSome_iff_exists.1 hk'
    obtain ⟨r, hr⟩ := h.rooted k p hp
    obtain ⟨r', hr'⟩ := h.rooted k' p' hp'
    have hroots : r = r' := by
      apply h.apart r r' hr.parent_root hr'.parent_root
      rw [← h.number_root hr, hsame, h.number_root hr']
    exact ⟨r, hr, hroots ▸ hr'⟩
  · rintro ⟨r, hr, hr'⟩
    rw [h.number_root hr, h.number_root hr']

/-- What is below another item is below one that is there. -/
theorem parent_there (h : Numbered parent number top) (hk : parent k = some (some p)) :
    (parent p).isSome = true := by
  rw [← h.there p, ← h.inherits k p hk, h.there k, hk]
  rfl

variable [DecidableEq κ]

/-- An item without descendants is taken up: as a root with a number above the others, or below another item
with its number. -/
theorem take (h : Numbered parent number top) {q : Option κ} {m : Int}
    (hold : ∀ p, parent k = some p → p = q) (hleaf : ∀ k', parent k' ≠ some (some k))
    (hq : q = none ∧ top < m ∨ ∃ p, q = some p ∧ p ≠ k ∧ number p = some m)
    (htop : top ≤ top') (hm : m ≤ top') :
    Numbered (Function.update parent k (some q)) (Function.update number k (some m)) top' := by
  have hkeeps : ∀ k' p', parent k' = some p' → Function.update parent k (some q) k' = some p' := by
    intro k' p' hp'
    by_cases heq : k' = k
    · subst heq
      rw [Function.update_self, hold p' hp']
    · rw [Function.update_of_ne heq, hp']
  -- a root with the number of the item is the item
  have hfresh : ∀ r, Function.update parent k (some q) k = some none → r ≠ k → number r ≠ some m := by
    intro r hk hne hr
    rw [Function.update_self] at hk
    rcases hq with ⟨-, hlarge⟩ | ⟨p, rfl, -, -⟩
    · have := h.below r m hr
      omega
    · cases hk
  refine ⟨?_, ?_, ?_, ?_, ?_⟩
  · intro k'
    by_cases heq : k' = k
    · rw [heq, Function.update_self, Function.update_self]
      rfl
    · rw [Function.update_of_ne heq, Function.update_of_ne heq, h.there]
  · intro k' p' hp'
    by_cases heq : k' = k
    · rw [heq, Function.update_self] at hp' ⊢
      rcases hq with ⟨rfl, -⟩ | ⟨p, rfl, hne, hp⟩
      · cases hp'
      · cases hp'
        rw [Function.update_of_ne hne, hp]
    · rw [Function.update_of_ne heq] at hp' ⊢
      have hne : p' ≠ k := by
        rintro rfl
        exact hleaf k' hp'
      rw [Function.update_of_ne hne, h.inherits _ _ hp']
  · intro k' n hn
    by_cases heq : k' = k
    · rw [heq, Function.update_self] at hn
      cases hn
      exact hm
    · rw [Function.update_of_ne heq] at hn
      have := h.below _ _ hn
      omega
  · intro r r' hr hr' hsame
    by_cases heq : r = k <;> by_cases heq' : r' = k
    · rw [heq, heq']
    · rw [heq, Function.update_self, Function.update_of_ne heq'] at hsame
      exact absurd hsame.symm (hfresh r' (heq ▸ hr) heq')
    · rw [heq', Function.update_self, Function.update_of_ne heq] at hsame
      exact absurd hsame (hfresh r (heq' ▸ hr') heq)
    · rw [Function.update_of_ne heq] at hr hsame
      rw [Function.update_of_ne heq'] at hr' hsame
      exact h.apart r r' hr hr' hsame
  · intro k' p' hp'
    by_cases heq : k' = k
    · subst heq
      rcases hq with ⟨rfl, -⟩ | ⟨p, rfl, hne, hp⟩
      · exact ⟨k', .root (Function.update_self ..)⟩
      · have hthere : (parent p).isSome = true := by
          rw [← h.there, hp]
          rfl
        obtain ⟨q, hq⟩ := Option.isSome_iff_exists.1 hthere
        obtain ⟨r, hr⟩ := h.rooted p q hq
        exact ⟨r, .child (Function.update_self ..) (hr.mono hkeeps)⟩
    · rw [Function.update_of_ne heq] at hp'
      obtain ⟨r, hr⟩ := h.rooted _ _ hp'
      exact ⟨r, hr.mono hkeeps⟩

/-- A new item is taken up. -/
theorem take_new (h : Numbered parent number top) {q : Option κ} {m : Int} (hnew : parent k = none)
    (hq : q = none ∧ top < m ∨ ∃ p, q = some p ∧ number p = some m) (htop : top ≤ top') (hm : m ≤ top') :
    Numbered (Function.update parent k (some q)) (Function.update number k (some m)) top' := by
  have hnumber : number k = none := by
    have hthere := h.there k
    rwa [hnew, Option.isSome_none, Option.isSome_eq_false_iff, Option.isNone_iff_eq_none] at hthere
  refine h.take ?_ ?_ ?_ htop hm
  · intro p hp
    rw [hnew] at hp
    cases hp
  · intro k' hk'
    have hthere := h.parent_there hk'
    rw [hnew] at hthere
    cases hthere
  · rcases hq with hroot | ⟨p, hp, hn⟩
    · exact .inl hroot
    · refine .inr ⟨p, hp, ?_, hn⟩
      rintro rfl
      rw [hnumber] at hn
      cases hn

end Numbered

end Vx6.Lib
