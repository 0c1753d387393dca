import Mathlib.Data.List.Sort
import Mathlib.Tactic
import Vx6.Lib.Dict

/-!
# Orders that the language leaves open

A `range` loop visits the keys of a map in any order, which a `RangeOrder` stands for.

`sort.Slice` arranges the elements of a slice. Which arrangement it chooses is fixed by its contract
only where the comparison is a strict weak order, and even then not for equal elements. `SliceSort` is
any function that the program may run in its place: it keeps the elements, and if some elements compare
before all others, whatever the comparison does among themselves, they come first. Partitioning around a
pivot, insertion and heaps all have this property.
-/

set_option autoImplicit false

namespace Vx6.Go

/-- The order in which a `range` loop visits the keys of a map. -/
structure RangeOrder where
  arrange : List String → List String
  perm : ∀ keys, (arrange keys).Perm keys

/-- The order into which `Shuffle` of a random source brings a list. -/
structure Shuffle (α : Type) where
  arrange : List α → List α
  perm : ∀ l, (arrange l).Perm l

/-- The keys as they come. -/
def RangeOrder.asStored : RangeOrder := ⟨id, fun _ => .refl _⟩

/-- A function in the place of `sort.Slice`. -/
structure SliceSort where
  slice : {α : Type} → (α → α → Bool) → List α → List α
  /-- The elements are the same. -/
  perm : ∀ {α : Type} (less : α → α → Bool) (l : List α), (slice less l).Perm l
  /-- Elements that compare before all others come first. -/
  separates : ∀ {α : Type} (less : α → α → Bool) (first : α → Bool) (l : List α),
    (∀ a b, first a = true → first b = false → less a b = true ∧ less b a = false) →
      (slice less l).Pairwise fun a b => first b = true → first a = true

namespace SliceSort

section Insertion

variable {α : Type} {less : α → α → Bool} {first : α → Bool}

theorem pairwise_orderedInsert (a : α) {l : List α}
    (hless : ∀ b ∈ a :: l, ∀ c ∈ a :: l, first b = true → first c = false → less b c = true ∧
      less c b = false)
    (hl : l.Pairwise fun a b => first b = true → first a = true) :
    (l.orderedInsert (fun a b => !less b a) a).Pairwise fun a b => first b = true → first a = true := by
  induction l with
  | nil => simp
  | cons b l ih =>
    obtain ⟨hb, hl⟩ := List.pairwise_cons.1 hl
    rw [List.orderedInsert]
    split_ifs with hbefore
    · -- the new element comes first, so the next one does not compare before it
      refine List.pairwise_cons.2 ⟨fun c hc hfirst => ?_, List.pairwise_cons.2 ⟨hb, hl⟩⟩
      have hfront : first b = true := by
        rcases List.mem_cons.1 hc with rfl | hc
        · exact hfirst
        · exact hb c hc hfirst
      by_contra hlast
      simp [(hless b (by simp) a (by simp) hfront (Bool.not_eq_true _ ▸ hlast)).1] at hbefore
    · have hrest : ∀ x ∈ a :: l, ∀ y ∈ a :: l, first x = true → first y = false → less x y = true ∧
        less y x = false :=
        fun x hx y hy => hless x (List.cons_subset_cons a (List.subset_cons_self b l) hx) y
          (List.cons_subset_cons a (List.subset_cons_self b l) hy)
      refine List.pairwise_cons.2 ⟨fun c hc hfirst => ?_, ih hrest hl⟩
      rcases (List.mem_orderedInsert _).1 hc with rfl | hc
      · by_contra hlast
        simp [(hless c (by simp) b (by simp) hfirst (Bool.not_eq_true _ ▸ hlast)).2] at hbefore
      · exact hb c hc hfirst

/-- Insertion puts elements first that compare before all others of the slice. -/
theorem pairwise_insertionSort {l : List α}
    (hless : ∀ a ∈ l, ∀ b ∈ l, first a = true → first b = false → less a b = true ∧ less b a = false) :
    (l.insertionSort fun a b => !less b a).Pairwise fun a b => first b = true → first a = true := by
  induction l with
  | nil => exact List.Pairwise.nil
  | cons a l ih =>
    have hsub : a :: l.insertionSort (fun a b => !less b a) ⊆ a :: l :=
      List.cons_subset_cons a (List.perm_insertionSort _ l).subset
    refine pairwise_orderedInsert a (fun b hb c hc => hless b (hsub hb) c (hsub hc))
      (ih fun b hb c hc => ?_)
    exact hless b (List.mem_cons_of_mem a hb) c (List.mem_cons_of_mem a hc)

/-- Insertion, which keeps equal elements in order. -/
def insertion : SliceSort where
  slice less l := l.insertionSort fun a b => !less b a
  perm _ l := List.perm_insertionSort _ l
  separates _ _ _ hless := pairwise_insertionSort fun a _ b _ => hless a b

end Insertion

variable (sort : SliceSort) {α : Type} (less : α → α → Bool) (l : List α)

@[simp] theorem mem_slice {a : α} : a ∈ sort.slice less l ↔ a ∈ l := (sort.perm less l).mem_iff

section Key

variable {sort less l} {κ : Type} [LinearOrder κ] {key : α → κ}

end Key

section Total

variable {sort less} {κ : Type} [LinearOrder κ] {key : α → κ}

/-- What was sorted by a comparison of keys is in the order of the keys. -/
theorem pairwise_slice_total (hless : ∀ a b, less a b = true ↔ key a < key b) (l : List α) :
    (sort.slice less l).Pairwise fun a b => key a ≤ key b := by
  rw [List.pairwise_iff_forall_sublist]
  intro a b hsub
  have hfirst := sort.separates less (fun c => decide (key c ≤ key b)) l fun c d hle hgt => by
    have hlt : key c < key d := (of_decide_eq_true hle).trans_lt (not_le.1 (of_decide_eq_false hgt))
    exact ⟨(hless c d).2 hlt, Bool.eq_false_iff.2 fun hdc => hlt.asymm ((hless d c).1 hdc)⟩
  have hpair := (List.pairwise_iff_forall_sublist.1 hfirst) hsub (decide_eq_true le_rfl)
  exact of_decide_eq_true hpair

/-- What was sorted is in increasing order if no two elements have the same key. -/
theorem increasing_slice (hless : ∀ a b, less a b = true ↔ key a < key b) {l : List α}
    (hnodup : (l.map key).Nodup) : (sort.slice less l).Pairwise fun a b => key a < key b := by
  have hslice : ((sort.slice less l).map key).Nodup := ((sort.perm less l).map key).nodup_iff.2 hnodup
  exact (pairwise_slice_total hless l).imp₂ (fun _ _ hle hne => lt_of_le_of_ne hle hne)
    (List.pairwise_map.1 hslice)

end Total

end SliceSort

end Vx6.Go
