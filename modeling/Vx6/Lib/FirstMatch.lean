import Mathlib.Tactic

/-!
# First-match rule lists

A rule list is read in order and the first rule that applies to an item gives the answer. The answer
of a concatenation is the answer of its first part where that has one; a list built from blocks that
never answer differently answers as soon as one of them does (`Decides.flatMap`).
-/

set_option autoImplicit false

namespace Vx6.Lib

universe u v w x

variable {ρ : Type u} {π : Type v} {ω : Type w} {α : Type x} (applies : ρ → π → Bool)
  (answer : ρ → ω)

/-- The answer of the first rule that applies to the item. -/
def firstMatch (rules : List ρ) (item : π) : Option ω :=
  (rules.find? fun r => applies r item).map answer

theorem firstMatch_append (rules rules' : List ρ) (item : π) :
    firstMatch applies answer (rules ++ rules') item =
      (firstMatch applies answer rules item).or (firstMatch applies answer rules' item) := by
  simp [firstMatch, List.find?_append, Option.map_or]

theorem firstMatch_eq_none {rules : List ρ} {item : π} :
    firstMatch applies answer rules item = none ↔ ∀ r ∈ rules, applies r item = false := by
  simp [firstMatch]

/-- The rules answer `a` on the item if `hit` holds, and nothing otherwise. -/
def Decides (rules : List ρ) (item : π) (a : ω) (hit : Prop) : Prop :=
  (firstMatch applies answer rules item = some a ∧ hit) ∨
    (firstMatch applies answer rules item = none ∧ ¬ hit)

variable {applies answer}

theorem Decides.iff {rules : List ρ} {item : π} {a : ω} {hit hit' : Prop}
    (h : Decides applies answer rules item a hit) (hiff : hit ↔ hit') :
    Decides applies answer rules item a hit' := by
  rwa [← hiff]

/-- Blocks that give the same answer wherever they give one. -/
theorem Decides.flatMap {blocks : List α} {rules : α → List ρ} {item : π} {a : ω} {hit : α → Prop}
    (h : ∀ b ∈ blocks, Decides applies answer (rules b) item a (hit b)) :
    Decides applies answer (blocks.flatMap rules) item a (∃ b ∈ blocks, hit b) := by
  induction blocks with
  | nil => exact .inr ⟨rfl, by simp⟩
  | cons b blocks ih =>
    rw [Decides, List.flatMap_cons, firstMatch_append]
    rcases h b List.mem_cons_self with ⟨hb, hhit⟩ | ⟨hb, hmiss⟩
    · exact .inl ⟨by rw [hb, Option.some_or], b, List.mem_cons_self, hhit⟩
    · rw [hb, Option.none_or]
      rcases ih fun b' hb' => h b' (List.mem_cons_of_mem _ hb') with ⟨hall, b', hb', he⟩ | ⟨hall, hn⟩
      · exact .inl ⟨hall, b', List.mem_cons_of_mem _ hb', he⟩
      · refine .inr ⟨hall, ?_⟩
        rintro ⟨b', hb', he⟩
        rcases List.mem_cons.1 hb' with rfl | hb'
        · exact hmiss he
        · exact hn ⟨b', hb', he⟩

end Vx6.Lib
