import Mathlib.Data.List.Dedup
import Mathlib.Tactic

/-!
# Selection within a quota

A list is built from candidates in order of preference: each is taken unless there are `limit` items
already or one with the same key. `pick` is the whole loop. What it takes first stays
(`prefix_pick_append`), and it takes one candidate for each key, up to the limit (`length_pick`).
-/

set_option autoImplicit false

namespace Vx6.Lib

universe u v

variable {α : Type u} {κ : Type v} [DecidableEq κ] (key : α → κ) (limit : Nat)

/-- The list with one more item, unless it is full or has an item with the same key. -/
def enlist (out : List α) (a : α) : List α :=
  if limit ≤ out.length ∨ key a ∈ out.map key then out else out ++ [a]

/-- The selection from a list of candidates. -/
def pick (l : List α) : List α := l.foldl (enlist key limit) []

variable {key limit} {out l l' : List α} {a : α}

theorem mem_enlist {b : α} (h : b ∈ enlist key limit out a) : b ∈ out ∨ b = a := by
  unfold enlist at h
  split_ifs at h
  · exact .inl h
  · simpa using h

theorem prefix_enlist : out <+: enlist key limit out a := by
  unfold enlist
  split_ifs
  · exact List.prefix_rfl
  · exact List.prefix_append out [a]

theorem prefix_foldl_enlist : out <+: l.foldl (enlist key limit) out := by
  induction l generalizing out with
  | nil => exact List.prefix_rfl
  | cons a l ih => exact prefix_enlist.trans ih

/-- The item is in the list afterwards, under its key, unless the list is full. -/
theorem key_mem_enlist :
    key a ∈ (enlist key limit out a).map key ∨ limit ≤ (enlist key limit out a).length := by
  unfold enlist
  split_ifs with hskip
  · exact hskip.symm
  · exact .inl (by simp)

theorem nodup_enlist (h : (out.map key).Nodup) : ((enlist key limit out a).map key).Nodup := by
  unfold enlist
  split_ifs with hskip
  · exact h
  · rw [List.map_append]
    exact h.append (List.nodup_singleton _) (List.disjoint_singleton.2 fun hmem => hskip (.inr hmem))

theorem length_enlist_le (h : out.length ≤ limit) : (enlist key limit out a).length ≤ limit := by
  unfold enlist
  split_ifs with hskip
  · exact h
  · rw [List.length_append, List.length_singleton]
    omega

/-- Only candidates are picked. -/
theorem mem_of_mem_pick (h : a ∈ pick key limit l) : a ∈ l := by
  have hloop : ∀ (l out : List α), a ∈ l.foldl (enlist key limit) out → a ∈ out ∨ a ∈ l := by
    intro l
    induction l with
    | nil => exact fun out hmem => .inl hmem
    | cons b l ih =>
      intro out hmem
      rcases ih _ hmem with hmem | hmem
      · rcases mem_enlist hmem with hmem | rfl
        · exact .inl hmem
        · exact .inr List.mem_cons_self
      · exact .inr (List.mem_cons_of_mem b hmem)
  exact (hloop l [] h).resolve_left List.not_mem_nil

/-- The keys of the picked items are distinct. -/
theorem nodup_pick : ((pick key limit l).map key).Nodup :=
  List.foldlRecOn (motive := fun out : List α => (out.map key).Nodup) l _ List.nodup_nil
    fun _ hout _ _ => nodup_enlist hout

theorem length_pick_le : (pick key limit l).length ≤ limit :=
  List.foldlRecOn (motive := fun out : List α => out.length ≤ limit) l _ (Nat.zero_le limit)
    fun _ hout _ _ => length_enlist_le hout

/-- The first candidates are picked as if there were no others. -/
theorem prefix_pick_append : pick key limit l <+: pick key limit (l ++ l') := by
  rw [pick, pick, List.foldl_append]
  exact prefix_foldl_enlist

/-- The key of a candidate is picked, unless the selection is full. -/
theorem key_mem_pick (h : a ∈ l) :
    key a ∈ (pick key limit l).map key ∨ limit ≤ (pick key limit l).length := by
  obtain ⟨l₁, l₂, rfl⟩ := List.append_of_mem h
  -- what holds after the turn of the candidate holds at the end
  have hturn : (pick key limit (l₁ ++ [a])) <+: pick key limit (l₁ ++ a :: l₂) := by
    rw [show l₁ ++ a :: l₂ = (l₁ ++ [a]) ++ l₂ by simp]
    exact prefix_pick_append
  have hlast : pick key limit (l₁ ++ [a]) = enlist key limit (pick key limit l₁) a := by
    rw [pick, List.foldl_append]
    rfl
  rw [hlast] at hturn
  have hcase : key a ∈ (enlist key limit (pick key limit l₁) a).map key ∨
      limit ≤ (enlist key limit (pick key limit l₁) a).length := key_mem_enlist
  rcases hcase with hin | hfull
  · exact .inl (List.map_subset key hturn.subset hin)
  · exact .inr (hfull.trans hturn.length_le)

/-- A full selection stays. -/
theorem pick_append_of_full (h : limit ≤ (pick key limit l).length) :
    pick key limit (l ++ l') = pick key limit l := by
  have hinitial : pick key limit l <+: pick key limit (l ++ l') := prefix_pick_append
  exact (hinitial.eq_of_length_le (length_pick_le.trans h)).symm

/-- If a candidate at the front is not picked, all that is picked is from the front. -/
theorem mem_front_of_not_picked (h : a ∈ l) (hnot : key a ∉ (pick key limit (l ++ l')).map key) {b : α}
    (hb : b ∈ pick key limit (l ++ l')) : b ∈ l := by
  have hcase : key a ∈ (pick key limit l).map key ∨ limit ≤ (pick key limit l).length := key_mem_pick h
  rcases hcase with hin | hfull
  · exact absurd (List.map_subset key prefix_pick_append.subset hin) hnot
  · rw [pick_append_of_full hfull] at hb
    exact mem_of_mem_pick hb

/-- As many candidates are picked as there are keys, up to the limit. -/
theorem length_pick : (pick key limit l).length = min limit (l.map key).dedup.length := by
  have hsub : (pick key limit l).map key ⊆ (l.map key).dedup := fun k hk => by
    obtain ⟨b, hb, rfl⟩ := List.mem_map.1 hk
    exact List.mem_dedup.2 (List.mem_map_of_mem (mem_of_mem_pick hb))
  have hle := (List.Nodup.subperm nodup_pick hsub).length_le
  rw [List.length_map] at hle
  have hlimit : (pick key limit l).length ≤ limit := length_pick_le
  rcases Nat.lt_or_ge (pick key limit l).length limit with hroom | hfull
  · -- a selection that is not full has all keys
    have hall : (l.map key).dedup ⊆ (pick key limit l).map key := fun k hk => by
      obtain ⟨b, hb, rfl⟩ := List.mem_map.1 (List.mem_dedup.1 hk)
      have hcase : key b ∈ (pick key limit l).map key ∨ limit ≤ (pick key limit l).length :=
        key_mem_pick hb
      exact hcase.resolve_right (Nat.not_le.2 hroom)
    have hge := (List.Nodup.subperm (List.nodup_dedup _) hall).length_le
    rw [List.length_map] at hge
    omega
  · omega

end Vx6.Lib
