import Mathlib.Data.List.Sort
import Mathlib.Tactic

/-!
# Ranking by distance

Items are ranked by a distance, and by name where the distances are equal. Two distances rank a list
of items with distinct names in the same way exactly when they agree on every pair
(`ranked_eq_iff`).
-/

set_option autoImplicit false

namespace Vx6.Lib

universe u v

variable {α : Type u} {β : Type v} [LinearOrder β]

/-- The first item is closer, or equally close with the smaller name. -/
def Before (d : α → Nat) (name : α → β) (a b : α) : Prop :=
  d a < d b ∨ (d a = d b ∧ name a < name b)

instance (d : α → Nat) (name : α → β) (a b : α) : Decidable (Before d name a b) :=
  inferInstanceAs (Decidable (_ ∨ _))

/-- The items by distance, then by name. -/
def ranked (d : α → Nat) (name : α → β) (l : List α) : List α :=
  l.insertionSort fun a b => ¬ Before d name b a

section Order

variable {d d' : α → Nat} {name : α → β} {l : List α} {a b c : α}

theorem Before.irrefl : ¬ Before d name a a := by
  rintro (h | ⟨-, h⟩)
  · exact Nat.lt_irrefl _ h
  · exact lt_irrefl _ h

theorem Before.asymm (h : Before d name a b) : ¬ Before d name b a := by
  rcases h with h | ⟨h, hname⟩
  · rintro (h' | ⟨h', -⟩) <;> omega
  · rintro (h' | ⟨-, hname'⟩)
    · omega
    · exact lt_asymm hname hname'

/-- Two items neither of which is before the other have the same distance and name. -/
theorem eq_of_not_before (h : ¬ Before d name a b) (h' : ¬ Before d name b a) :
    d a = d b ∧ name a = name b := by
  simp only [Before, not_or, not_and, not_lt] at h h'
  have hd : d a = d b := by omega
  exact ⟨hd, le_antisymm (h'.2 hd.symm) (h.2 hd)⟩

theorem not_before_trans (h : ¬ Before d name b a) (h' : ¬ Before d name c b) :
    ¬ Before d name c a := by
  simp only [Before, not_or, not_and, not_lt] at h h' ⊢
  refine ⟨by omega, fun hd => ?_⟩
  exact le_trans (h.2 (by omega)) (h'.2 (by omega))

theorem ranked_perm (d : α → Nat) (name : α → β) (l : List α) : (ranked d name l).Perm l :=
  List.perm_insertionSort _ l

/-- In the ranking no item is before an earlier one. -/
theorem ranked_pairwise (d : α → Nat) (name : α → β) (l : List α) :
    (ranked d name l).Pairwise fun a b => ¬ Before d name b a := by
  have htotal : Std.Total fun a b : α => ¬ Before d name b a :=
    ⟨fun a b => by
      by_cases h : Before d name b a
      · exact .inr h.asymm
      · exact .inl h⟩
  have htrans : IsTrans α fun a b => ¬ Before d name b a := ⟨fun _ _ _ => not_before_trans⟩
  exact List.pairwise_insertionSort _ l

/-- Two distances rank items with distinct names in the same way exactly when they agree on every
pair. -/
theorem ranked_eq_iff (hname : ∀ a ∈ l, ∀ b ∈ l, name a = name b → a = b) :
    ranked d name l = ranked d' name l ↔
      ∀ a ∈ l, ∀ b ∈ l, Before d name a b ↔ Before d' name a b := by
  constructor
  · intro heq a ha b hb
    by_cases hab : a = b
    · subst hab
      exact iff_of_false Before.irrefl Before.irrefl
    -- one of the two comes first in the common ranking, and no distance puts the other before it
    have hpair := (ranked_pairwise d name l).and (heq ▸ ranked_pairwise d' name l)
    have hmem : ∀ {c}, c ∈ l → c ∈ ranked d name l := fun hc => (ranked_perm d name l).mem_iff.2 hc
    have hsymm : Std.Symm fun a b =>
        (¬ Before d name b a ∧ ¬ Before d' name b a) ∨ (¬ Before d name a b ∧ ¬ Before d' name a b) :=
      ⟨fun _ _ h => h.symm⟩
    have heither := hpair.imp fun {a b} h =>
      (Or.inl h : _ ∨ (¬ Before d name a b ∧ ¬ Before d' name a b))
    rcases heither.forall (hmem ha) (hmem hb) hab with ⟨h, h'⟩ | ⟨h, h'⟩
    · refine iff_of_true ?_ ?_
      · by_contra hn
        exact hab (hname a ha b hb (eq_of_not_before hn h).2)
      · by_contra hn
        exact hab (hname a ha b hb (eq_of_not_before hn h').2)
    · exact iff_of_false h h'
  · intro hagree
    have hsorted : (ranked d name l).Pairwise fun a b => ¬ Before d' name b a := by
      refine (ranked_pairwise d name l).imp_of_mem fun {a b} ha hb h => ?_
      rwa [← hagree b ((ranked_perm d name l).mem_iff.1 hb) a ((ranked_perm d name l).mem_iff.1 ha)]
    refine List.Perm.eq_of_pairwise (fun a b ha hb h h' => ?_) hsorted (ranked_pairwise d' name l)
      ((ranked_perm d name l).trans (ranked_perm d' name l).symm)
    exact hname a ((ranked_perm d name l).mem_iff.1 ha) b ((ranked_perm d' name l).mem_iff.1 hb)
      (eq_of_not_before h' h).2

/-- Two items in the wrong order are exchanged. -/
theorem ranked_pair_of_before (h : Before d name b a) : ranked d name [a, b] = [b, a] := by
  simp [ranked, List.insertionSort_cons, List.orderedInsert, h]

/-- All parts of two rankings agree when the rankings do. -/
theorem take_ranked_eq_iff :
    (∀ n, (ranked d name l).take n = (ranked d' name l).take n) ↔
      ranked d name l = ranked d' name l := by
  refine ⟨fun h => ?_, fun h n => by rw [h]⟩
  have hd := h l.length
  rwa [List.take_of_length_le (ranked_perm d name l).length_eq.le,
    List.take_of_length_le (ranked_perm d' name l).length_eq.le] at hd

end Order

end Vx6.Lib
