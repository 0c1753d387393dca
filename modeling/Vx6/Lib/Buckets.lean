import Mathlib.Algebra.BigOperators.Fin
import Mathlib.Data.List.FinRange
import Mathlib.Tactic

/-!
# Bucketed indexes

A fixed number of buckets, each a list of items, where an item is found by its key. The operations
are those of a hash table or a routing table that keeps the recently used items of a bucket at its
front: `insert` puts an item at the front of a bucket or moves the one with its key there,
`remove` takes the first item with a key out of every bucket, `removeFirst` out of the first bucket
that has one, `append` adds at the end.

`Tidy` says that an index holds every key at most once, in the bucket of its item. In a tidy index
the operations act on the set of items (`mem_insert`, `mem_remove`, `mem_removeFirst`,
`mem_append`) and keep it tidy.
-/

set_option autoImplicit false

namespace Vx6.Lib

universe u v

/-- An index of `n` buckets. -/
abbrev Buckets (n : Nat) (α : Type u) := Fin n → List α

namespace Buckets

variable {n : Nat} {α : Type u} {κ : Type v}

/-- The item is in some bucket. -/
def Mem (b : Buckets n α) (a : α) : Prop := ∃ i, a ∈ b i

/-- The number of items. -/
def size (b : Buckets n α) : Nat := ∑ i, (b i).length

/-- Add an item at the end of a bucket. -/
def append (b : Buckets n α) (a : α) (i : Fin n) : Buckets n α :=
  Function.update b i (b i ++ [a])

/-- Every key occurs at most once, in the bucket of its item. -/
structure Tidy (key : α → κ) (slot : α → Fin n) (b : Buckets n α) : Prop where
  nodup : ∀ i, (b i).Nodup
  placed : ∀ i, ∀ a ∈ b i, slot a = i
  inj : ∀ a a', Mem b a → Mem b a' → key a = key a' → a = a'

/-! ## Items and tidiness -/

section Shape

variable {key key' : α → κ} {slot slot' : α → Fin n} {b : Buckets n α} {a a' : α} {k : κ} {i : Fin n}

@[simp] theorem not_mem_empty : ¬ Mem (fun _ => [] : Buckets n α) a := by
  rintro ⟨i, h⟩
  exact List.not_mem_nil h

/-- What an update of one bucket does to the items. -/
theorem mem_update {l : List α} :
    Mem (Function.update b i l) a ↔ a ∈ l ∨ ∃ j, j ≠ i ∧ a ∈ b j := by
  constructor
  · rintro ⟨j, hj⟩
    by_cases h : j = i
    · subst h
      rw [Function.update_self] at hj
      exact .inl hj
    · rw [Function.update_of_ne h] at hj
      exact .inr ⟨j, h, hj⟩
  · rintro (hl | ⟨j, h, hj⟩)
    · exact ⟨i, by rwa [Function.update_self]⟩
    · exact ⟨j, by rwa [Function.update_of_ne h]⟩

theorem mem_append : Mem (append b a i) a' ↔ Mem b a' ∨ a' = a := by
  rw [append, mem_update, List.mem_append, List.mem_singleton]
  constructor
  · rintro ((h | h) | ⟨j, -, h⟩)
    · exact .inl ⟨i, h⟩
    · exact .inr h
    · exact .inl ⟨j, h⟩
  · rintro (⟨j, h⟩ | h)
    · by_cases hj : j = i
      · exact .inl (.inl (hj ▸ h))
      · exact .inr ⟨j, hj, h⟩
    · exact .inl (.inr h)

/-- The items of the other buckets, counted. -/
theorem size_update (l : List α) :
    size (Function.update b i l) + (b i).length = size b + l.length := by
  have h := Finset.add_sum_erase Finset.univ (fun j => (b j).length) (Finset.mem_univ i)
  have h' := Finset.add_sum_erase Finset.univ (fun j => (Function.update b i l j).length)
    (Finset.mem_univ i)
  have hrest : ∑ j ∈ Finset.univ.erase i, (Function.update b i l j).length =
      ∑ j ∈ Finset.univ.erase i, (b j).length := by
    refine Finset.sum_congr rfl fun j hj => ?_
    rw [Function.update_of_ne (Finset.ne_of_mem_erase hj)]
  simp only [Function.update_self] at h'
  unfold size
  omega

theorem size_append : size (append b a i) = size b + 1 := by
  have h := size_update (b := b) (i := i) (b i ++ [a])
  rw [List.length_append, List.length_singleton] at h
  rw [append]
  omega

@[simp] theorem size_empty : size (fun _ => [] : Buckets n α) = 0 := by simp [size]

theorem Tidy.empty : Tidy key slot (fun _ => [] : Buckets n α) where
  nodup _ := List.nodup_nil
  placed _ _ h := absurd h List.not_mem_nil
  inj _ _ h := absurd h not_mem_empty

/-- Tidiness depends on the keys and slots of the items only. -/
theorem Tidy.congr (h : Tidy key slot b) (hkey : ∀ a, Mem b a → key' a = key a)
    (hslot : ∀ a, Mem b a → slot' a = slot a) : Tidy key' slot' b where
  nodup := h.nodup
  placed i a ha := (hslot a ⟨i, ha⟩).trans (h.placed i a ha)
  inj a a' ha ha' hk := h.inj a a' ha ha' (by rwa [hkey a ha, hkey a' ha'] at hk)

/-- An index whose buckets are duplicate-free parts of those of a tidy one is tidy. -/
theorem Tidy.sub {b' : Buckets n α} (h : Tidy key slot b) (hnodup : ∀ i, (b' i).Nodup)
    (hsub : ∀ i, ∀ a ∈ b' i, a ∈ b i) : Tidy key slot b' where
  nodup := hnodup
  placed i a ha := h.placed i a (hsub i a ha)
  inj a a' ha ha' := by
    obtain ⟨j, ha⟩ := ha
    obtain ⟨j', ha'⟩ := ha'
    exact h.inj a a' ⟨j, hsub j a ha⟩ ⟨j', hsub j' a' ha'⟩

/-- An update of one bucket by a duplicate-free part of it. -/
theorem Tidy.update_sub {l : List α} (h : Tidy key slot b) (hnodup : l.Nodup)
    (hsub : ∀ a ∈ l, a ∈ b i) : Tidy key slot (Function.update b i l) := by
  refine h.sub (fun j => ?_) fun j a ha => ?_
  · by_cases hj : j = i
    · subst hj
      rwa [Function.update_self]
    · rw [Function.update_of_ne hj]
      exact h.nodup j
  · by_cases hj : j = i
    · subst hj
      rw [Function.update_self] at ha
      exact hsub a ha
    · rwa [Function.update_of_ne hj] at ha

/-- A new item in its bucket, at the front or at the end. -/
theorem Tidy.update_add {l : List α} (h : Tidy key slot b) (hl : l.Perm (a :: b i))
    (hslot : slot a = i) (hnew : ∀ a', Mem b a' → key a' ≠ key a) :
    Tidy key slot (Function.update b i l) where
  nodup j := by
    by_cases hj : j = i
    · subst hj
      rw [Function.update_self, hl.nodup_iff, List.nodup_cons]
      exact ⟨fun ha => hnew a ⟨j, ha⟩ rfl, h.nodup j⟩
    · rw [Function.update_of_ne hj]
      exact h.nodup j
  placed j c hc := by
    by_cases hj : j = i
    · subst hj
      rw [Function.update_self, hl.mem_iff, List.mem_cons] at hc
      rcases hc with rfl | hc
      · exact hslot
      · exact h.placed j c hc
    · rw [Function.update_of_ne hj] at hc
      exact h.placed j c hc
  inj c c' hc hc' hk := by
    have hmem : ∀ c, Mem (Function.update b i l) c → c = a ∨ Mem b c := by
      intro c hc
      rw [mem_update, hl.mem_iff, List.mem_cons] at hc
      rcases hc with (rfl | hc) | ⟨j, -, hc⟩
      · exact .inl rfl
      · exact .inr ⟨i, hc⟩
      · exact .inr ⟨j, hc⟩
    rcases hmem c hc with rfl | hc
    · rcases hmem c' hc' with rfl | hc'
      · rfl
      · exact absurd hk.symm (hnew c' hc')
    · rcases hmem c' hc' with rfl | hc'
      · exact absurd hk (hnew c hc)
      · exact h.inj c c' hc hc' hk

theorem Tidy.append (h : Tidy key slot b) (hslot : slot a = i)
    (hnew : ∀ a', Mem b a' → key a' ≠ key a) : Tidy key slot (append b a i) :=
  h.update_add (List.perm_append_singleton a (b i)) hslot hnew

/-- In a tidy index no key occurs twice. -/
theorem Tidy.nodup_keys (h : Tidy key slot b) :
    ((List.finRange n).flatMap fun i => (b i).map key).Nodup := by
  rw [List.nodup_flatMap]
  refine ⟨fun i _ => ?_, (List.nodup_finRange n).pairwise_of_forall_ne fun i _ j _ hij => ?_⟩
  · exact (h.nodup i).map_on fun a ha a' ha' => h.inj a a' ⟨i, ha⟩ ⟨i, ha'⟩
  · intro k hk hk'
    obtain ⟨a, ha, rfl⟩ := List.mem_map.1 hk
    obtain ⟨a', ha', hkey⟩ := List.mem_map.1 hk'
    have haa' := h.inj a' a ⟨j, ha'⟩ ⟨i, ha⟩ hkey
    exact hij ((h.placed i a ha).symm.trans (haa' ▸ h.placed j a' ha'))

theorem length_keys : ((List.finRange n).flatMap fun i => (b i).map key).length = size b := by
  rw [List.length_flatMap, size, ← List.sum_ofFn, List.ofFn_eq_map]
  simp

theorem mem_keys :
    k ∈ ((List.finRange n).flatMap fun i => (b i).map key) ↔ ∃ a, Mem b a ∧ key a = k := by
  simp only [List.mem_flatMap, List.mem_finRange, true_and, List.mem_map, Mem]
  constructor
  · rintro ⟨i, a, ha, hk⟩
    exact ⟨a, ⟨i, ha⟩, hk⟩
  · rintro ⟨a, ⟨i, ha⟩, hk⟩
    exact ⟨i, a, ha, hk⟩

end Shape

/-! ## The operations -/

variable [DecidableEq κ]

section Operations

variable (key : α → κ)

/-- Some item has the key. -/
def has (b : Buckets n α) (k : κ) : Bool :=
  (List.finRange n).any fun i => (b i).any fun a => key a = k

/-- The list with its first item of the given key moved to the front. -/
def toFront (l : List α) (k : κ) : List α :=
  match l.find? fun a => key a = k with
  | none => l
  | some a => a :: l.eraseP fun a => key a = k

/-- Move the first item with the key to the front of a bucket. -/
def moveToFront (b : Buckets n α) (k : κ) (i : Fin n) : Buckets n α :=
  Function.update b i (toFront key (b i) k)

/-- Put an item at the front of a bucket; if the bucket has one with its key, that one is moved
there instead. -/
def insert (b : Buckets n α) (a : α) (i : Fin n) : Buckets n α :=
  if (b i).any fun a' => key a' = key a then moveToFront key b (key a) i
  else Function.update b i (a :: b i)

/-- Take the first item with the key out of every bucket. -/
def remove (b : Buckets n α) (k : κ) : Buckets n α := fun i => (b i).eraseP fun a => key a = k

/-- Take the first item with the key out of the first bucket that has one. -/
def removeFirst (b : Buckets n α) (k : κ) : Buckets n α :=
  match (List.finRange n).find? fun i => (b i).any fun a => key a = k with
  | none => b
  | some i => Function.update b i ((b i).eraseP fun a => key a = k)

end Operations

/-! ## Membership and size after an operation -/

section Basic

variable {key : α → κ} {b : Buckets n α} {a a' : α} {k : κ} {i : Fin n}

theorem has_iff : has key b k = true ↔ ∃ a, Mem b a ∧ key a = k := by
  simp only [has, List.any_eq_true, List.mem_finRange, true_and, decide_eq_true_eq]
  constructor
  · rintro ⟨i, a, ha, hk⟩
    exact ⟨a, ⟨i, ha⟩, hk⟩
  · rintro ⟨a, ⟨i, ha⟩, hk⟩
    exact ⟨i, a, ha, hk⟩

theorem has_eq_false : has key b k = false ↔ ∀ a, Mem b a → key a ≠ k := by
  rw [Bool.eq_false_iff, ne_eq, has_iff, not_exists]
  exact forall_congr' fun a => not_and

/-- `removeFirst` with its search made explicit. -/
theorem removeFirst_cases (key : α → κ) (b : Buckets n α) (k : κ) :
    (has key b k = false ∧ removeFirst key b k = b) ∨
      ∃ i a, a ∈ b i ∧ key a = k ∧
        removeFirst key b k = Function.update b i ((b i).eraseP fun a => key a = k) := by
  rw [removeFirst]
  split
  · rename_i h
    refine .inl ⟨?_, rfl⟩
    rw [List.find?_eq_none] at h
    simp only [has, List.any_eq_false]
    exact fun i _ => by simpa using h i (List.mem_finRange i)
  · rename_i i h
    have hi := List.find?_some h
    simp only [List.any_eq_true, decide_eq_true_eq] at hi
    obtain ⟨a, ha, hk⟩ := hi
    exact .inr ⟨i, a, ha, hk, rfl⟩

theorem removeFirst_eq_self (h : has key b k = false) : removeFirst key b k = b := by
  rcases removeFirst_cases key b k with ⟨-, hb⟩ | ⟨i, a, ha, hk, -⟩
  · exact hb
  · exact absurd hk (has_eq_false.1 h a ⟨i, ha⟩)

theorem size_removeFirst (h : has key b k = true) : size (removeFirst key b k) + 1 = size b := by
  rcases removeFirst_cases key b k with ⟨hn, -⟩ | ⟨i, a, ha, hk, hb⟩
  · rw [hn] at h
    cases h
  · have hlen : ((b i).eraseP fun a => key a = k).length = (b i).length - 1 :=
      List.length_eraseP_of_mem ha (by simpa using hk)
    have hpos := List.length_pos_of_mem ha
    have hsize := size_update (b := b) (i := i) ((b i).eraseP fun a => key a = k)
    rw [hb]
    omega

theorem mem_of_mem_removeFirst (h : Mem (removeFirst key b k) a) : Mem b a := by
  rcases removeFirst_cases key b k with ⟨-, hb⟩ | ⟨i, _, -, -, hb⟩
  · rwa [hb] at h
  · rw [hb, mem_update] at h
    rcases h with h | ⟨j, -, h⟩
    · exact ⟨i, List.mem_of_mem_eraseP h⟩
    · exact ⟨j, h⟩

theorem toFront_perm (l : List α) (k : κ) : (toFront key l k).Perm l := by
  rw [toFront]
  split
  · exact .refl l
  · rename_i a h
    obtain ⟨before, after, rfl, hbefore⟩ := List.find?_eq_some_iff_append.1 h |>.2
    have ha : key a = k := by simpa using List.find?_some h
    rw [List.eraseP_append_right _ (by simpa using hbefore), List.eraseP_cons_of_pos (by simpa using ha)]
    exact List.perm_middle.symm

theorem mem_moveToFront : Mem (moveToFront key b k i) a ↔ Mem b a := by
  rw [moveToFront, mem_update, (toFront_perm (b i) k).mem_iff]
  constructor
  · rintro (h | ⟨j, -, h⟩)
    · exact ⟨i, h⟩
    · exact ⟨j, h⟩
  · rintro ⟨j, h⟩
    by_cases hj : j = i
    · exact .inl (hj ▸ h)
    · exact .inr ⟨j, hj, h⟩

end Basic

/-! ## The operations on a tidy index -/

section Tidy

variable {key : α → κ} {slot : α → Fin n} {b : Buckets n α} {a a' : α} {k : κ} {i : Fin n}

theorem Tidy.mem_eraseP (h : Tidy key slot b) :
    a ∈ (b i).eraseP (fun a => key a = k) ↔ a ∈ b i ∧ key a ≠ k := by
  constructor
  · intro ha
    refine ⟨List.mem_of_mem_eraseP ha, fun hk => ?_⟩
    -- the first item with the key is `a` itself, and it occurs once
    obtain ⟨c, l₁, l₂, hl₁, hc, hb, he⟩ :=
      List.exists_of_eraseP (List.mem_of_mem_eraseP ha) (p := fun a => decide (key a = k))
        (by simpa using hk)
    have hmem : c ∈ b i := by rw [hb]; simp
    have hca : c = a :=
      h.inj c a ⟨i, hmem⟩ ⟨i, List.mem_of_mem_eraseP ha⟩ ((by simpa using hc : key c = k).trans hk.symm)
    have hnodup := h.nodup i
    rw [hb, List.nodup_middle] at hnodup
    rw [he] at ha
    exact (List.nodup_cons.1 hnodup).1 (hca ▸ ha)
  · rintro ⟨ha, hk⟩
    exact (List.mem_eraseP_of_neg (by simpa using hk)).2 ha

theorem Tidy.mem_remove (h : Tidy key slot b) : Mem (remove key b k) a ↔ Mem b a ∧ key a ≠ k := by
  simp only [Mem, remove, h.mem_eraseP, exists_and_right]

theorem Tidy.remove (h : Tidy key slot b) : Tidy key slot (remove key b k) :=
  h.sub (fun i => (h.nodup i).sublist List.eraseP_sublist) fun _ _ => List.mem_of_mem_eraseP

theorem Tidy.mem_removeFirst (h : Tidy key slot b) :
    Mem (removeFirst key b k) a ↔ Mem b a ∧ key a ≠ k := by
  rcases removeFirst_cases key b k with ⟨hn, hb⟩ | ⟨i, c, hc, hck, hb⟩
  · rw [hb]
    exact ⟨fun ha => ⟨ha, has_eq_false.1 hn a ha⟩, And.left⟩
  · rw [hb, mem_update, h.mem_eraseP]
    constructor
    · rintro (⟨ha, hk⟩ | ⟨j, hj, ha⟩)
      · exact ⟨⟨i, ha⟩, hk⟩
      · refine ⟨⟨j, ha⟩, fun hk => hj ?_⟩
        have hac : a = c := h.inj a c ⟨j, ha⟩ ⟨i, hc⟩ (hk.trans hck.symm)
        rw [← h.placed j a ha, ← h.placed i c hc, hac]
    · rintro ⟨⟨j, ha⟩, hk⟩
      by_cases hj : j = i
      · exact .inl ⟨hj ▸ ha, hk⟩
      · exact .inr ⟨j, hj, ha⟩

theorem Tidy.removeFirst (h : Tidy key slot b) : Tidy key slot (removeFirst key b k) := by
  rcases removeFirst_cases key b k with ⟨-, hb⟩ | ⟨i, _, -, -, hb⟩
  · rwa [hb]
  · rw [hb]
    exact h.update_sub ((h.nodup i).sublist List.eraseP_sublist) fun _ => List.mem_of_mem_eraseP

theorem Tidy.moveToFront (h : Tidy key slot b) : Tidy key slot (moveToFront key b k i) :=
  h.update_sub ((toFront_perm (b i) k).nodup_iff.2 (h.nodup i)) fun _ =>
    (toFront_perm (b i) k).mem_iff.1

/-- An item that shares its key with no other one joins the index or is in it already. -/
theorem mem_insert (hown : ∀ a', Mem b a' → key a' = key a → a' = a) :
    Mem (insert key b a i) a' ↔ Mem b a' ∨ a' = a := by
  rw [insert]
  split
  · rename_i hin
    simp only [List.any_eq_true, decide_eq_true_eq] at hin
    obtain ⟨c, hc, hk⟩ := hin
    have hca : c = a := hown c ⟨i, hc⟩ hk
    rw [mem_moveToFront]
    refine ⟨.inl, ?_⟩
    rintro (ha | rfl)
    · exact ha
    · exact ⟨i, hca ▸ hc⟩
  · rw [mem_update, List.mem_cons]
    constructor
    · rintro ((rfl | ha) | ⟨j, -, ha⟩)
      · exact .inr rfl
      · exact .inl ⟨i, ha⟩
      · exact .inl ⟨j, ha⟩
    · rintro (⟨j, ha⟩ | rfl)
      · by_cases hj : j = i
        · exact .inl (.inr (hj ▸ ha))
        · exact .inr ⟨j, hj, ha⟩
      · exact .inl (.inl rfl)

theorem Tidy.insert (h : Tidy key slot b) (hslot : slot a = i)
    (hown : ∀ a', Mem b a' → key a' = key a → a' = a) : Tidy key slot (insert key b a i) := by
  rw [Buckets.insert]
  split
  · exact h.moveToFront
  · rename_i hout
    refine h.update_add (.refl _) hslot fun c hc hk => ?_
    -- an item with the key would be `a`, which is in no other bucket
    obtain ⟨j, hj⟩ := hc
    have hca : c = a := hown c ⟨j, hj⟩ hk
    have hij : j = i := (h.placed j c hj).symm.trans (hca ▸ hslot)
    refine hout (List.any_eq_true.2 ⟨c, hij ▸ hj, by simpa using hk⟩)

end Tidy

end Buckets

end Vx6.Lib
