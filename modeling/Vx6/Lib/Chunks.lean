import Mathlib.Tactic

/-!
# Cutting a list into pieces

A loop that takes at most `size` elements off the front of a list until nothing is left works on
`chunks size`. The pieces are nonempty, no longer than `size`, and make up the list again.
-/

set_option autoImplicit false

namespace Vx6.Lib

universe u

variable {α : Type u}

/-- The pieces of at most `size` elements of a list, the first ones full. -/
def chunks (size : Nat) : List α → List (List α)
  | [] => []
  | a :: l => (a :: l.take (size - 1)) :: chunks size (l.drop (size - 1))
termination_by l => l.length
decreasing_by
  simp only [List.length_drop, List.length_cons]
  omega

@[simp] theorem chunks_nil (size : Nat) : chunks size ([] : List α) = [] := by
  rw [chunks]

/-- One round of the loop. -/
theorem chunks_of_ne_nil {size : Nat} (hsize : 0 < size) {l : List α} (hl : l ≠ []) :
    chunks size l = l.take size :: chunks size (l.drop size) := by
  obtain ⟨n, rfl⟩ : ∃ n, size = n + 1 := ⟨size - 1, by omega⟩
  cases l with
  | nil => exact absurd rfl hl
  | cons a l => rw [chunks, List.take_succ_cons, List.drop_succ_cons, Nat.add_sub_cancel]

theorem head_chunks {size : Nat} (hsize : 0 < size) {l : List α} (hl : l ≠ []) :
    (chunks size l).head? = some (l.take size) := by
  rw [chunks_of_ne_nil hsize hl, List.head?_cons]

end Vx6.Lib
