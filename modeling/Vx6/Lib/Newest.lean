import Mathlib.Tactic

/-!
# Running choice under a comparison

A register that keeps the newest of the items it sees compares each arriving item with the one it
holds. Items fall into classes; only the class of the survivor matters. For a comparison `r` that
is not known to be transitive, the module gives

* `Dominates`: a class every member of which beats every item outside the class;
* `cls_foldl_of_dominates`: such a class survives every order of arrival with any repetition;
* `exists_dominates`: a comparison that is a strict total order of the classes has one.
-/

set_option autoImplicit false

namespace Vx6.Lib

universe u v

variable {α : Type u} {γ : Type v}

/-- `r` orders the classes of the items in `S` strictly and totally. -/
structure StrictOn (r : α → α → Prop) (cls : α → γ) (S : α → Prop) : Prop where
  irrefl : ∀ a b, S a → S b → cls a = cls b → ¬ r a b
  trans : ∀ a b c, S a → S b → S c → r a b → r b c → r a c
  total : ∀ a b, S a → S b → cls a ≠ cls b → r a b ∨ r b a

/-- The class of `m` beats every item of `S` outside it. -/
def Dominates (r : α → α → Prop) (cls : α → γ) (S : α → Prop) (m : α) : Prop :=
  ∀ c, S c → cls c = cls m → ∀ x, S x → cls x ≠ cls m → r c x

/-- A choice between the item held and an arriving one: one of the two, and across classes the
arriving item exactly when it beats the one held. -/
structure Chooses (r : α → α → Prop) (cls : α → γ) (choose : α → α → α) : Prop where
  either : ∀ cur x, choose cur x = cur ∨ choose cur x = x
  takes : ∀ cur x, cls x ≠ cls cur → r x cur → choose cur x = x
  keeps : ∀ cur x, cls x ≠ cls cur → ¬ r x cur → choose cur x = cur

variable {r : α → α → Prop} {cls : α → γ} {S : α → Prop} {choose : α → α → α}

/-- Items of one class hand the register over only within the class. -/
theorem cls_choose_of_eq (hc : Chooses r cls choose) {cur x : α} (h : cls x = cls cur) :
    cls (choose cur x) = cls cur := by
  rcases hc.either cur x with e | e
  · rw [e]
  · rw [e, h]

/-- A dominating class, once seen, is the class of the item held for good. -/
theorem cls_foldl_of_dominates (hasym : ∀ a b, r a b → ¬ r b a) (hc : Chooses r cls choose) {m : α}
    (hm : Dominates r cls S m) :
    ∀ (l : List α) (a : α), S a → (∀ x ∈ l, S x) → (∃ y ∈ a :: l, cls y = cls m) →
      cls (l.foldl choose a) = cls m := by
  intro l
  induction l with
  | nil =>
    intro a _ _ hex
    obtain ⟨y, hy, he⟩ := hex
    rw [List.mem_singleton] at hy
    subst hy
    exact he
  | cons x l ih =>
    intro a ha hl hex
    have hx : S x := hl x List.mem_cons_self
    have hl' : ∀ y ∈ l, S y := fun y hy => hl y (List.mem_cons_of_mem _ hy)
    rw [List.foldl_cons]
    have hstay : S (choose a x) := by
      rcases hc.either a x with e | e <;> rw [e] <;> assumption
    by_cases hcx : cls x = cls a
    · refine ih _ hstay hl' ?_
      obtain ⟨y, hy, he⟩ := hex
      rcases List.mem_cons.1 hy with rfl | hy
      · exact ⟨_, List.mem_cons_self, (cls_choose_of_eq hc hcx).trans he⟩
      · rcases List.mem_cons.1 hy with rfl | hy
        · exact ⟨_, List.mem_cons_self, (cls_choose_of_eq hc hcx).trans (hcx.symm.trans he)⟩
        · exact ⟨y, List.mem_cons_of_mem _ hy, he⟩
    · refine ih _ hstay hl' ?_
      obtain ⟨y, hy, he⟩ := hex
      rcases List.mem_cons.1 hy with rfl | hy
      · -- the item held is in the class, so the arriving one does not beat it
        have hr : r y x := hm y ha he x hx (fun h => hcx (h.trans he.symm))
        rw [hc.keeps y x hcx (hasym y x hr)]
        exact ⟨y, List.mem_cons_self, he⟩
      · rcases List.mem_cons.1 hy with rfl | hy
        · have hr : r y a := hm y hx he a ha (fun h => hcx (he.trans h.symm))
          rw [hc.takes a y hcx hr]
          exact ⟨y, List.mem_cons_self, he⟩
        · exact ⟨y, List.mem_cons_of_mem _ hy, he⟩

/-- Under a strict total order, an item that beats the others makes its class beat them. -/
theorem StrictOn.dominates_of_beats (h : StrictOn r cls S) {m : α} (hm : S m)
    (hbeats : ∀ x, S x → cls x ≠ cls m → r m x) : Dominates r cls S m := by
  intro c hcS hcm x hx hxm
  rcases h.total c x hcS hx (fun e => hxm (e.symm.trans hcm)) with hr | hr
  · exact hr
  · exact absurd (h.trans m x c hm hx hcS (hbeats x hx hxm) hr) (h.irrefl m c hm hcS hcm.symm)

/-- What beats `m` beats an item that `m` beats or that shares the class of `m`. -/
theorem StrictOn.beats_through (h : StrictOn r cls S) {y m x : α} (hy : S y) (hm : S m) (hx : S x)
    (hym : r y m) (hne : cls x ≠ cls y) (hmx : cls x ≠ cls m → r m x) : r y x := by
  by_cases hxm : cls x = cls m
  · rcases h.total y x hy hx (fun e => hne e.symm) with hr | hr
    · exact hr
    · exact absurd (h.trans x y m hx hy hm hr hym) (h.irrefl x m hx hm hxm)
  · exact h.trans y m x hy hm hx hym (hmx hxm)

/-- Every nonempty list of items has a dominating one under a strict total order. -/
theorem exists_dominates (a : α) (l : List α) (h : StrictOn r cls (· ∈ a :: l)) :
    ∃ m ∈ a :: l, Dominates r cls (· ∈ a :: l) m := by
  classical
  have key : ∀ l' : List α, (∀ x ∈ l', x ∈ a :: l) →
      ∃ m ∈ a :: l, ∀ x ∈ a :: l', cls x ≠ cls m → r m x := by
    intro l'
    induction l' with
    | nil =>
      intro _
      refine ⟨a, List.mem_cons_self, fun x hx hne => ?_⟩
      rw [List.mem_singleton] at hx
      exact absurd (congrArg cls hx) hne
    | cons y l' ih =>
      intro hsub
      have hy := hsub y List.mem_cons_self
      obtain ⟨m, hm, hbeats⟩ := ih fun x hx => hsub x (List.mem_cons_of_mem _ hx)
      by_cases hym : r y m
      · refine ⟨y, hy, fun x hx hne => ?_⟩
        rcases List.mem_cons.1 hx with rfl | hx
        · exact h.beats_through hy hm List.mem_cons_self hym hne (hbeats x List.mem_cons_self)
        · rcases List.mem_cons.1 hx with rfl | hx
          · exact absurd rfl hne
          · exact h.beats_through hy hm (hsub x (List.mem_cons_of_mem _ hx)) hym hne
              (hbeats x (List.mem_cons_of_mem _ hx))
      · refine ⟨m, hm, fun x hx hne => ?_⟩
        rcases List.mem_cons.1 hx with rfl | hx
        · exact hbeats x List.mem_cons_self hne
        · rcases List.mem_cons.1 hx with rfl | hx
          · exact (h.total x m hy hm hne).resolve_left hym
          · exact hbeats x (List.mem_cons_of_mem _ hx) hne
  obtain ⟨m, hm, hbeats⟩ := key l fun x hx => List.mem_cons_of_mem _ hx
  exact ⟨m, hm, h.dominates_of_beats hm hbeats⟩

end Vx6.Lib
