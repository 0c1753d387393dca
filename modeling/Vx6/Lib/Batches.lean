import Mathlib.Data.List.Basic
import Mathlib.Tactic

/-!
# Asking in batches

A traversal that meets more and more items asks them in batches, one batch in each round.
`Batched` says that no key is asked twice, that every batch is narrow and that all batches
together are few. A round that asks fresh items within what is left of the budget keeps it
(`Batched.concat`), whatever items the traversal meets in between.
-/

set_option autoImplicit false

namespace Vx6.Lib

universe u v

variable {α : Type u} {β : Type v} {key : α → β} {width total : Nat} {batches : List (List α)}
  {batch : List α}

/-- No key occurs twice, no batch has more than `width` items, all have at most `total`. -/
structure Batched (key : α → β) (width total : Nat) (batches : List (List α)) : Prop where
  once : (batches.flatten.map key).Nodup
  narrow : ∀ batch ∈ batches, batch.length ≤ width
  few : batches.flatten.length ≤ total

theorem Batched.nil (key : α → β) (width total : Nat) : Batched key width total [] where
  once := List.nodup_nil
  narrow := fun _ h => absurd h List.not_mem_nil
  few := Nat.zero_le total

/-- One more batch of fresh items, within the width and within what is left of the total. -/
theorem Batched.concat (h : Batched key width total batches) (hnodup : (batch.map key).Nodup)
    (hfresh : ∀ a ∈ batch, key a ∉ batches.flatten.map key) (hwidth : batch.length ≤ width)
    (hleft : batch.length ≤ total - batches.flatten.length) :
    Batched key width total (batches ++ [batch]) where
  once := by
    rw [List.flatten_concat, List.map_append, List.nodup_append']
    refine ⟨h.once, hnodup, ?_⟩
    intro k hold hnew
    obtain ⟨a, ha, rfl⟩ := List.mem_map.1 hnew
    exact hfresh a ha hold
  narrow := by
    intro b hb
    rcases List.mem_append.1 hb with hb | hb
    · exact h.narrow b hb
    · rw [List.mem_singleton.1 hb]
      exact hwidth
  few := by
    have := h.few
    rw [List.flatten_concat, List.length_append]
    omega

end Vx6.Lib
