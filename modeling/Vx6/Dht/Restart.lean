import Vx6.Dht.Lookup
import Vx6.Dht.PeerStore

/-!
# Restarts

A node that starts reads the peer store with `LoadCandidates` and hands the rows to `RestoreCandidates`.
Each of the steps filters, sorts and cuts off for itself.
-/

set_option autoImplicit false

namespace Vx6.Dht

open Vx6.Go Vx6.Lib

namespace PeerStore

variable {s : PeerStore} {nodeID : String} {p : PeerObservation}

/-! ## `LoadCandidates` -/

section Load

variable (sort : SliceSort)

/-- The limit that `LoadCandidates` uses. -/
def hotLimit (limit : Int) : Nat :=
  if limit ≤ 0 || (peerCacheHotLimit : Int) < limit then peerCacheHotLimit else limit.toNat

/-- The map `byID` of `LoadCandidates`, as filled from the rows. -/
def eligibleRows (s : PeerStore) (now : Time) : Dict String PeerObservation :=
  Dict.insertAll (fun p : PeerObservation => p.node.id) id ∅
    (s.loadAll.filter fun p => !expired peerAddressHintTTL p now)

/-- The IDs in an index: the keys, or the values of the diversity index. -/
def indexedIDs (s : PeerStore) (name : PeerIndex) : List String :=
  (inKeyOrder (s.index name)).filterMap fun key =>
    if name = .diversity then (s.index name).lookup key else some key

/-- The variables `peers` and `byID` of `LoadCandidates`. -/
structure Loading where
  peers : List PeerObservation
  byID : Dict String PeerObservation

/-- One turn of the loop over the members of an index; a full list is returned at once. -/
def Loading.take (limit : Nat) (l : Loading) (peer : PeerObservation) : Loading :=
  if l.peers.length = limit then l
  else if (l.byID.lookup peer.node.id).isSome then ⟨l.peers ++ [peer], l.byID.erase peer.node.id⟩
  else l

/-- The loop over the members of an index. -/
def Loading.takeIndex (limit : Nat) (l : Loading) (ids : List String) : Loading :=
  (sort.slice peerRetentionLess (ids.filterMap l.byID.lookup)).foldl (Loading.take limit) l

/-- What the loops over the indexes leave. -/
def loadIndexed (s : PeerStore) (now : Time) (limit : Nat) : Loading :=
  (loadOrder.map s.indexedIDs).foldl (Loading.takeIndex sort limit) ⟨[], s.eligibleRows now⟩

/-- The list `remaining` of `LoadCandidates`. -/
def Loading.remaining (order : RangeOrder) (l : Loading) : List PeerObservation :=
  sort.slice peerRetentionLess ((order.arrange l.byID.keys).filterMap l.byID.lookup)

/-- `LoadCandidates`. -/
def loadCandidates (s : PeerStore) (order : RangeOrder) (now : Time) (limit : Int) :
    List PeerObservation :=
  let l := s.loadIndexed sort now (hotLimit limit)
  (l.remaining sort order).foldl
    (fun peers p => if peers.length = hotLimit limit then peers else peers ++ [p]) l.peers

variable {sort} {now : Time}

theorem lookup_eligibleRows : (s.eligibleRows now).lookup nodeID =
    (s.row nodeID).filter fun p => !expired peerAddressHintTTL p now := by
  have hnodup : ((s.loadAll.filter fun p => !expired peerAddressHintTTL p now).map
      fun p => p.node.id).Nodup := s.nodup_loadAll.sublist (List.filter_sublist.map _)
  rw [eligibleRows, lookup_insertAll_peers id ∅ hnodup, Option.map_id, id_eq, Dict.lookup_empty_eq,
    Option.or_none]
  ext p
  rw [peerOf_eq_some hnodup, List.mem_filter, mem_loadAll, Option.filter_eq_some_iff]
  constructor
  · rintro ⟨⟨hrow, halive⟩, rfl⟩
    exact ⟨hrow, halive⟩
  · rintro ⟨hrow, halive⟩
    rw [id_of_row hrow]
    exact ⟨⟨hrow, halive⟩, rfl⟩

/-- What the loops over the indexes keep: every eligible row is either in the list or still in the map. -/
structure Loading.Sound (all : Dict String PeerObservation) (l : Loading) : Prop where
  keyed : ∀ nodeID p, all.lookup nodeID = some p → p.node.id = nodeID
  nodup : (l.peers.map fun p => p.node.id).Nodup
  taken : ∀ p ∈ l.peers, all.lookup p.node.id = some p
  left : ∀ nodeID, l.byID.lookup nodeID =
    if nodeID ∈ l.peers.map (fun p => p.node.id) then none else all.lookup nodeID

theorem Loading.Sound.take {all : Dict String PeerObservation} {l : Loading} {limit : Nat}
    (h : l.Sound all)
    (hp : all.lookup p.node.id = some p) : (l.take limit p).Sound all := by
  unfold Loading.take
  split_ifs with hfull hleft
  · exact h
  · have hnew : p.node.id ∉ l.peers.map fun p => p.node.id := by
      intro hmem
      rw [h.left, if_pos hmem] at hleft
      cases hleft
    refine ⟨h.keyed, ?_, fun q hq => ?_, fun nodeID => ?_⟩
    · rw [List.map_append]
      exact h.nodup.append (List.nodup_singleton _) (List.disjoint_singleton.2 hnew)
    · rcases List.mem_append.1 hq with hq | hq
      · exact h.taken q hq
      · rwa [List.mem_singleton.1 hq]
    · rw [Dict.lookup_erase_eq, h.left]
      simp only [List.map_append, List.mem_append, List.map_cons, List.map_nil, List.mem_singleton]
      by_cases hid : nodeID = p.node.id
      · rw [if_pos hid, if_pos (.inr hid)]
      · rw [if_neg hid]
        exact if_congr (by simp [hid]) rfl rfl
  · exact h

/-- What is left in the map is an eligible row that is not in the list. -/
theorem Loading.Sound.of_left {all : Dict String PeerObservation} {l : Loading} (h : l.Sound all)
    (hp : l.byID.lookup nodeID = some p) :
    nodeID ∉ l.peers.map (fun p => p.node.id) ∧ all.lookup nodeID = some p ∧ p.node.id = nodeID := by
  rw [h.left] at hp
  split_ifs at hp with hin
  exact ⟨hin, hp, h.keyed nodeID p hp⟩

theorem Loading.Sound.takeIndex {all : Dict String PeerObservation} {l : Loading} {limit : Nat}
    (h : l.Sound all) (ids : List String) : (l.takeIndex sort limit ids).Sound all := by
  refine List.foldlRecOn (motive := fun l' : Loading => l'.Sound all) _ _ h fun l' hl' p hp => hl'.take ?_
  obtain ⟨nodeID, -, hfound⟩ := List.mem_filterMap.1 ((sort.mem_slice _ _).1 hp)
  obtain ⟨-, hrow, rfl⟩ := h.of_left hfound
  exact hrow

/-- Before the loops nothing is taken. -/
theorem sound_start (s : PeerStore) (now : Time) :
    (⟨[], s.eligibleRows now⟩ : Loading).Sound (s.eligibleRows now) := by
  refine ⟨fun nodeID p hp => ?_, List.nodup_nil, by simp, by simp⟩
  rw [lookup_eligibleRows, Option.filter_eq_some_iff] at hp
  exact id_of_row hp.1

theorem sound_loadIndexed (s : PeerStore) (now : Time) (limit : Nat) :
    (s.loadIndexed sort now limit).Sound (s.eligibleRows now) :=
  List.foldlRecOn (motive := fun l : Loading => l.Sound (s.eligibleRows now)) _ _ (s.sound_start now)
    fun _ hl ids _ => hl.takeIndex ids

theorem Loading.Sound.mem_remaining {all : Dict String PeerObservation} {l : Loading} (h : l.Sound all)
    {order : RangeOrder} : p ∈ l.remaining sort order ↔ l.byID.lookup p.node.id = some p := by
  rw [Loading.remaining, SliceSort.mem_slice, List.mem_filterMap]
  constructor
  · rintro ⟨nodeID, -, hp⟩
    rwa [(h.of_left hp).2.2]
  · exact fun hp => ⟨_, (order.perm _).mem_iff.2 (Dict.mem_keys_of_lookup hp), hp⟩

/-- The list and what remains are all eligible rows. -/
theorem Loading.Sound.mem_all {all : Dict String PeerObservation} {l : Loading} (h : l.Sound all)
    {order : RangeOrder} : p ∈ l.peers ++ l.remaining sort order ↔ all.lookup p.node.id = some p := by
  rw [List.mem_append, h.mem_remaining]
  constructor
  · rintro (hp | hp)
    · exact h.taken p hp
    · exact (h.of_left hp).2.1
  · intro hp
    by_cases hin : p.node.id ∈ l.peers.map fun p => p.node.id
    · obtain ⟨q, hq, hsame⟩ := List.mem_map.1 hin
      have hother := h.taken q hq
      rw [hsame, hp] at hother
      exact .inl (Option.some.inj hother ▸ hq)
    · exact .inr (by rw [h.left, if_neg hin, hp])

/-- No row is both in the list and among what remains. -/
theorem Loading.Sound.nodup_all {all : Dict String PeerObservation} {l : Loading} (h : l.Sound all)
    (order : RangeOrder) : ((l.peers ++ l.remaining sort order).map fun p => p.node.id).Nodup := by
  rw [List.map_append]
  refine h.nodup.append ?_ fun nodeID hin hrest => ?_
  · refine ((sort.perm _ _).map _).nodup_iff.2 ?_
    exact nodup_filterMap_ids (fun hp => (h.of_left hp).2.2)
      ((order.perm _).nodup_iff.2 (AList.keys_nodup _))
  · obtain ⟨p, hp, rfl⟩ := List.mem_map.1 hrest
    exact (h.of_left (h.mem_remaining.1 hp)).1 hin

/-- A loop that appends until the list is full. -/
theorem foldl_fill {α : Type} {limit : Nat} (l out : List α) (h : out.length ≤ limit) :
    l.foldl (fun out a => if out.length = limit then out else out ++ [a]) out = (out ++ l).take limit := by
  induction l generalizing out with
  | nil => rw [List.append_nil, List.take_of_length_le h, List.foldl_nil]
  | cons a l ih =>
    rw [List.foldl_cons]
    by_cases hfull : out.length = limit
    · rw [if_pos hfull, ih _ h, ← hfull, List.take_left, List.take_left]
    · have hroom : (out ++ [a]).length ≤ limit := by
        rw [List.length_append, List.length_singleton]
        omega
      rw [if_neg hfull, ih _ hroom, List.append_assoc, List.singleton_append]

end Load

end PeerStore

namespace Table

/-! ## `RestoreCandidates` on a table without peers -/

section Restore

variable {cr : Crypto} {t t' : Table}

/-- A coordinate other than that of this node has a bucket. -/
theorem checked_bucketIndex {nodeID : String} (h : xorDistance cr t.selfID nodeID ≠ 0) :
    ∃ i, checked (t.bucketIndex cr nodeID) = some i := by
  have hle := bitIndex_le (xorDistance_lt cr t.selfID nodeID)
  have hpos : 0 ≤ t.bucketIndex cr nodeID := by
    simp [bucketIndex, bitIndex, bitLen, h]
  exact ⟨_, dif_pos ⟨hpos, Int.lt_of_le_of_lt hle (by decide)⟩⟩

/-- What a turn of the loop leaves alone, and the place it takes at most. -/
theorem frame_restoreCandidate {peer : PeerObservation} {now : Time}
    (hrestore : t.restoreCandidate cr peer now = some t') :
    t'.selfID = t.selfID ∧ t'.buckets = t.buckets ∧ t'.nameBuckets = t.nameBuckets ∧
      t'.pendingN ≤ t.pendingN + 1 := by
  have hadd : ∀ {t₁}, t.addCandidate cr peer.node = some t₁ →
      t₁.selfID = t.selfID ∧ t₁.buckets = t.buckets ∧ t₁.nameBuckets = t.nameBuckets ∧
        t₁.pendingN ≤ t.pendingN + 1 := by
    intro t₁ hadd
    rcases addCandidate_cases hadd with ⟨-, rfl⟩ | ⟨-, -, -, i, -, hcase⟩
    · exact ⟨rfl, rfl, rfl, by omega⟩
    rcases hcase with ⟨r, -, hpending, rfl⟩ | ⟨r, -, -, -, rfl⟩ | ⟨-, -, rfl⟩
    · refine ⟨rfl, rfl, rfl, ?_⟩
      show (if t.inPending peer.node.id then t.pendingN - 1 else t.pendingN) ≤ t.pendingN + 1
      rw [hpending, if_pos rfl]
      omega
    · exact ⟨rfl, rfl, rfl, le_refl _⟩
    · exact ⟨rfl, rfl, rfl, le_refl _⟩
  rcases restoreCandidate_cases hrestore with rfl | ⟨-, t₁, hfirst, hcase⟩
  · exact ⟨rfl, rfl, rfl, by omega⟩
  obtain ⟨hself, hbuckets, hnames, hcount⟩ := hadd hfirst
  rcases hcase with rfl | ⟨r, -, rfl | ⟨-, rfl⟩⟩
  · exact ⟨hself, hbuckets, hnames, hcount⟩
  · exact ⟨hself, hbuckets, hnames, hcount⟩
  · refine ⟨hself, hbuckets, hnames, le_trans ?_ hcount⟩
    have hless : (if (t₁.modify r (remember peer)).inPending peer.node.id then t₁.pendingN - 1
        else t₁.pendingN) ≤ t₁.pendingN := by
      split_ifs <;> omega
    exact hless

end Restore

end Table

end Vx6.Dht
