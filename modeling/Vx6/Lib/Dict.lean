import Mathlib.Data.List.AList
import Mathlib.Tactic

/-!
# Finite dictionaries

A Go `map[K]V` is a finite partial function whose iteration order is unspecified. `Dict` is
Mathlib's association list with distinct keys; the lemmas below give `lookup` after an update as a
case split on the key, and describe the key list by `lookup`.

`upsert` is the update `if _, ok := m[k]; !ok { m[k] = init }; m[k] = f(m[k])`, and `insertAll` the
loop that stores each item of a list under its key.
-/

set_option autoImplicit false

namespace Vx6.Lib

universe u v

variable {κ : Type u} {ν : Type v} [DecidableEq κ]

/-- A finite partial function from `κ` to `ν`. -/
abbrev Dict (κ : Type u) (ν : Type v) := AList fun _ : κ => ν

namespace Dict

theorem lookup_insert_eq (m : Dict κ ν) (k k' : κ) (v : ν) :
    (m.insert k v).lookup k' = if k' = k then some v else m.lookup k' := by
  by_cases h : k' = k
  · subst h
    simp
  · rw [AList.lookup_insert_ne h, if_neg h]

theorem lookup_erase_eq (m : Dict κ ν) (k k' : κ) :
    (m.erase k).lookup k' = if k' = k then none else m.lookup k' := by
  by_cases h : k' = k
  · subst h
    simp
  · rw [AList.lookup_erase_ne h, if_neg h]

theorem lookup_empty_eq (k : κ) : (∅ : Dict κ ν).lookup k = none := AList.lookup_empty k

theorem mem_keys_iff (m : Dict κ ν) (k : κ) : k ∈ m.keys ↔ (m.lookup k).isSome = true := by
  rw [← AList.mem_keys, AList.lookup_isSome]

theorem mem_keys_of_lookup {m : Dict κ ν} {k : κ} {v : ν} (h : m.lookup k = some v) :
    k ∈ m.keys := by
  rw [mem_keys_iff, h]
  rfl

theorem exists_lookup_of_mem_keys {m : Dict κ ν} {k : κ} (h : k ∈ m.keys) :
    ∃ v, m.lookup k = some v := by
  rw [mem_keys_iff, Option.isSome_iff_exists] at h
  exact h

/-- The entries that satisfy a test. -/
def filter (p : κ → ν → Bool) (m : Dict κ ν) : Dict κ ν :=
  ⟨m.entries.filter fun e => p e.1 e.2, m.nodupKeys.sublist List.filter_sublist⟩

theorem lookup_filter (p : κ → ν → Bool) (m : Dict κ ν) (k : κ) :
    (m.filter p).lookup k = (m.lookup k).filter (p k) := by
  ext v
  rw [← Option.mem_def, ← Option.mem_def, AList.mem_lookup_iff, Option.mem_filter_iff,
    AList.mem_lookup_iff]
  simp [filter]

/-- The dictionary with each value replaced by a function of its key and itself. -/
def mapVal {ν' : Type v} (f : κ → ν → ν') (m : Dict κ ν) : Dict κ ν' :=
  ⟨m.entries.map fun e => ⟨e.1, f e.1 e.2⟩, by
    simpa [List.NodupKeys, List.keys, Function.comp_def] using m.nodupKeys⟩

theorem lookup_mapVal {ν' : Type v} (f : κ → ν → ν') (m : Dict κ ν) (k : κ) :
    (m.mapVal f).lookup k = (m.lookup k).map (f k) := by
  ext v
  rw [← Option.mem_def, AList.mem_lookup_iff, Option.map_eq_some_iff]
  constructor
  · intro h
    obtain ⟨e, he, heq⟩ := List.mem_map.1 h
    cases heq
    exact ⟨e.2, AList.mem_lookup_iff.2 he, rfl⟩
  · rintro ⟨a, ha, rfl⟩
    exact List.mem_map.2 ⟨⟨k, a⟩, AList.mem_lookup_iff.1 ha, rfl⟩

/-- Update the value of `k`, which is `init` where the key is absent. -/
def upsert (m : Dict κ ν) (k : κ) (init : ν) (f : ν → ν) : Dict κ ν :=
  m.insert k (f ((m.lookup k).getD init))

section InsertAll

variable {α : Type*} (key : α → κ) (val : α → ν)

/-- The dictionary with a value for the key of each item of a list, later items over earlier ones. -/
def insertAll (m : Dict κ ν) (l : List α) : Dict κ ν := l.foldl (fun m a => m.insert (key a) (val a)) m

variable {key val} {m : Dict κ ν} {l : List α} {k : κ} {v : ν}

theorem lookup_insertAll_of_not_mem (h : k ∉ l.map key) :
    (insertAll key val m l).lookup k = m.lookup k := by
  induction l generalizing m with
  | nil => rfl
  | cons a l ih =>
    rw [List.map_cons, List.mem_cons, not_or] at h
    exact (ih h.2).trans ((lookup_insert_eq m _ k _).trans (if_neg h.1))

theorem lookup_insertAll_of_mem (hnodup : (l.map key).Nodup) {a : α} (ha : a ∈ l) :
    (insertAll key val m l).lookup (key a) = some (val a) := by
  induction l generalizing m with
  | nil => cases ha
  | cons b l ih =>
    rw [List.map_cons, List.nodup_cons] at hnodup
    rcases List.mem_cons.1 ha with rfl | ha
    · exact (lookup_insertAll_of_not_mem hnodup.1).trans ((lookup_insert_eq m _ _ _).trans (if_pos rfl))
    · exact ih hnodup.2 ha

/-- A key that an item has, or that was there, is there. -/
theorem isSome_lookup_insertAll (h : k ∈ l.map key ∨ (m.lookup k).isSome = true) :
    ((insertAll key val m l).lookup k).isSome = true := by
  induction l generalizing m with
  | nil => exact h.resolve_left List.not_mem_nil
  | cons a l ih =>
    refine ih ?_
    rw [lookup_insert_eq]
    by_cases hk : k = key a
    · rw [if_pos hk]
      exact .inr rfl
    · rw [if_neg hk]
      rw [List.map_cons, List.mem_cons] at h
      exact h.imp_left fun hmem => hmem.resolve_left hk

theorem item_of_lookup_insertAll (h : (insertAll key val m l).lookup k = some v) :
    (∃ a ∈ l, key a = k ∧ val a = v) ∨ m.lookup k = some v := by
  induction l generalizing m with
  | nil => exact .inr h
  | cons a l ih =>
    rcases ih h with ⟨b, hb, hkey⟩ | hbefore
    · exact .inl ⟨b, List.mem_cons_of_mem a hb, hkey⟩
    · rw [lookup_insert_eq] at hbefore
      split_ifs at hbefore with hk
      · exact .inl ⟨a, List.mem_cons_self, hk.symm, Option.some.inj hbefore⟩
      · exact .inr hbefore

end InsertAll

section SameLookup

variable {m m' : Dict κ ν}

/-- Dictionaries with the same values have the same entries, in whatever order. -/
theorem entries_perm_of_lookup (h : ∀ k, m.lookup k = m'.lookup k) : m.entries.Perm m'.entries :=
  List.lookup_ext m.nodupKeys m'.nodupKeys fun k v => by
    rw [show m.entries.dlookup k = m'.entries.dlookup k from h k]

/-- Dictionaries with the same values have the same keys once these are sorted. -/
theorem sortedKeys_congr (le : κ → κ → Prop) [DecidableRel le] [Std.Total le] [IsTrans κ le]
    [Std.Antisymm le] (h : ∀ k, m.lookup k = m'.lookup k) :
    m.keys.insertionSort le = m'.keys.insertionSort le := by
  have hperm : m.keys.Perm m'.keys := (entries_perm_of_lookup h).map Sigma.fst
  have hsorted := (List.perm_insertionSort le _).trans (hperm.trans (List.perm_insertionSort le _).symm)
  exact hsorted.eq_of_pairwise' (List.pairwise_insertionSort le _) (List.pairwise_insertionSort le _)

end SameLookup

theorem entries_eq_nil_iff {m : Dict κ ν} : m.entries = [] ↔ ∀ k, m.lookup k = none := by
  constructor
  · intro h k
    by_contra hne
    obtain ⟨v, hv⟩ := Option.ne_none_iff_exists'.1 hne
    have := AList.mem_lookup_iff.1 hv
    simp [h] at this
  · intro h
    refine List.eq_nil_iff_forall_not_mem.2 fun e he => ?_
    have := AList.mem_lookup_iff.2 (show (⟨e.1, e.2⟩ : Sigma fun _ => ν) ∈ m.entries from he)
    rw [h] at this
    cases this

end Dict

end Vx6.Lib
