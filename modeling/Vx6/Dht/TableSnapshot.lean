import Vx6.Dht.TableView
import Vx6.Go.Sort
import Vx6.Lib.Quota

/-!
# What the table gives out

`SnapshotPeers` copies the peers that are worth keeping, with the ranks of the closest ones, and
`CandidateNodes` lists the peers to try again. Both run over Go maps, so the order of the iteration is
an argument, and both sort by comparisons for which the arrangement is not always determined, so the
sort is a `SliceSort`.
-/

set_option autoImplicit false

namespace Vx6.Dht

open Vx6.Go Vx6.Lib Vx6.Record

/-! ## Retention order -/

namespace PeerObservation

/-- The peer was used. -/
def used (p : PeerObservation) : Bool := 0 < p.useCount || !isZero p.lastUsed

/-- The peer is among the closest ones. -/
def closest (p : PeerObservation) : Bool := 0 < p.closestIDRank || 0 < p.closestNameRank

/-- The observation without its ranks. -/
def unranked (p : PeerObservation) : PeerObservation := { p with closestIDRank := 0, closestNameRank := 0 }

end PeerObservation

/-- `peerRetentionLess`. -/
def peerRetentionLess (a b : PeerObservation) : Bool :=
  if a.friend ≠ b.friend then a.friend
  else if a.pinned ≠ b.pinned then a.pinned
  else if a.used ≠ b.used then a.used
  else if a.lastUsed ≠ b.lastUsed then b.lastUsed < a.lastUsed
  else if a.useCount ≠ b.useCount then b.useCount < a.useCount
  else if a.closest ≠ b.closest then a.closest
  else if 0 < a.closestIDRank && 0 < b.closestIDRank && a.closestIDRank ≠ b.closestIDRank then
    a.closestIDRank < b.closestIDRank
  else if 0 < a.closestNameRank && 0 < b.closestNameRank && a.closestNameRank ≠ b.closestNameRank then
    a.closestNameRank < b.closestNameRank
  else if isZero a.offlineSince ≠ isZero b.offlineSince then isZero a.offlineSince
  else if a.firstSeen ≠ b.firstSeen then
    if isZero a.firstSeen then false else if isZero b.firstSeen then true else a.firstSeen < b.firstSeen
  else if a.successCount ≠ b.successCount then b.successCount < a.successCount
  else b.lastSuccess < a.lastSuccess

/-- `observationOf`. -/
def observationOf (e : BucketEntry) : PeerObservation where
  node := e.node
  pinned := e.pinned
  friend := e.friend
  useCount := e.useCount
  successCount := e.successCount
  firstSeen := e.firstSeen
  lastSuccess := e.lastSuccess
  lastUsed := e.lastUsed
  offlineSince := e.offlineSince
  closestIDRank := e.closestIDRank
  closestNameRank := e.closestNameRank

/-! ## Snapshots -/

section Snapshot

variable (cr : Crypto) (sort : SliceSort)

/-- The ranks of the first 50 peers of a sorted list. -/
def closestRanks (peers : List PeerObservation) : Dict String UInt16 :=
  (peers.take 50).zipIdx.foldl (fun ranks p => ranks.insert p.1.node.id (UInt16.ofNat (p.2 + 1))) ∅

/-- `assignClosestRanks`. -/
def assignClosestRanks (peers : List PeerObservation) (selfID selfNameHash : String) :
    List PeerObservation :=
  let byID := sort.slice (fun p q : PeerObservation =>
    xorDistance cr selfID p.node.id < xorDistance cr selfID q.node.id) peers
  let byName := sort.slice (fun p q : PeerObservation =>
    xorDistance cr selfNameHash (p.node.nodeNameHash cr) <
      xorDistance cr selfNameHash (q.node.nodeNameHash cr)) peers
  peers.map fun p =>
    { p with
      closestIDRank := ((closestRanks byID).lookup p.node.id).getD 0
      closestNameRank := ((closestRanks byName).lookup p.node.id).getD 0 }

/-- Ranks change nothing else. -/
theorem unranked_assignClosestRanks (peers : List PeerObservation) (selfID selfNameHash : String) :
    (assignClosestRanks cr sort peers selfID selfNameHash).map PeerObservation.unranked =
      peers.map PeerObservation.unranked := by
  simp [assignClosestRanks, PeerObservation.unranked, Function.comp_def]

namespace Table

/-- The entries that `SnapshotPeers` copies. -/
def durable (e : BucketEntry) : Bool := !e.transient && !(e.successCount = 0 && !e.pinned && !e.friend)

/-- `SnapshotPeers`, where the iteration over `peerByID` runs in the order `order`. -/
def snapshotPeers (t : Table) (order : List String) : List PeerObservation :=
  assignClosestRanks cr sort (((order.filterMap t.entry).filter durable).map BucketEntry.toPeerObservation)
    t.selfID t.selfNameHash

variable {cr sort} {t : Table} {order : List String}

/-- The copies of a snapshot, up to their ranks, are the durable entries. -/
theorem unranked_snapshotPeers : (t.snapshotPeers cr sort order).map PeerObservation.unranked =
    ((order.filterMap t.entry).filter durable).map fun e => e.toPeerObservation.unranked := by
  rw [snapshotPeers, unranked_assignClosestRanks, List.map_map]
  rfl

/-- A durable entry is in the snapshot. -/
theorem mem_snapshotPeers {nodeID : String} {e : BucketEntry} (hid : nodeID ∈ order)
    (he : t.entry nodeID = some e) (hdurable : durable e = true) :
    ∃ p ∈ t.snapshotPeers cr sort order, p.unranked = e.toPeerObservation.unranked := by
  have hmem : e.toPeerObservation.unranked ∈
      (t.snapshotPeers cr sort order).map PeerObservation.unranked := by
    rw [unranked_snapshotPeers]
    exact List.mem_map_of_mem (List.mem_filter.2 ⟨List.mem_filterMap.2 ⟨nodeID, hid, he⟩, hdurable⟩)
  exact List.mem_map.1 hmem

/-- The snapshot holds nothing else. -/
theorem entry_of_mem_snapshotPeers {p : PeerObservation} (hp : p ∈ t.snapshotPeers cr sort order) :
    ∃ nodeID e, nodeID ∈ order ∧ t.entry nodeID = some e ∧ durable e = true ∧
      p.unranked = e.toPeerObservation.unranked := by
  have hmem : p.unranked ∈ (t.snapshotPeers cr sort order).map PeerObservation.unranked :=
    List.mem_map_of_mem hp
  rw [unranked_snapshotPeers] at hmem
  obtain ⟨e, he, hsame⟩ := List.mem_map.1 hmem
  obtain ⟨he, hdurable⟩ := List.mem_filter.1 he
  obtain ⟨nodeID, hid, he⟩ := List.mem_filterMap.1 he
  exact ⟨nodeID, e, hid, he, hdurable, hsame.symm⟩

/-! ## Candidates -/

/-- `appendUnique`, with the return of `CandidateNodes` at a full list: an ID that was seen is skipped,
and a full list stays. -/
def appendUnique (limit : Nat) (out : List NodeInfo) (node : NodeInfo) : List NodeInfo :=
  enlist NodeInfo.id limit out node

/-- The limit that `CandidateNodes` uses. -/
def candidateLimit (limit : Int) : Nat :=
  if limit ≤ 0 || (maxPendingCandidates : Int) < limit then maxPendingCandidates else limit.toNat

variable (sort t)

/-- The entries that `CandidateNodes` runs over, in its order: the candidates, the marked peers and the
recent ones among those that are offline. -/
def candidateRefs (now : Time) (order offlineOrder : List String) : List Ref :=
  let less := fun r s : Ref => peerRetentionLess (observationOf (t.heap r)) (observationOf (t.heap s))
  sort.slice less ((List.finRange 256).flatMap t.pending) ++
    (order.filterMap t.peerByID.lookup).filter (fun r => (t.heap r).pinned || (t.heap r).friend) ++
    sort.slice less ((offlineOrder.filterMap t.offline.lookup).filter fun r =>
      (t.heap r).pinned || (t.heap r).friend || isZero (t.heap r).offlineSince ||
        sub now (t.heap r).offlineSince ≤ peerHistoryTTL)

/-- `CandidateNodes`. -/
def candidateNodes (limit : Int) (now : Time) (order offlineOrder : List String) : List NodeInfo :=
  ((t.candidateRefs sort now order offlineOrder).map t.node).foldl (appendUnique (candidateLimit limit)) []

variable {sort t}

/-- A marked peer is offered as a candidate, unless the list is full. -/
theorem marked_mem_candidateNodes (h : t.Keyed) {nodeID : String} {e : BucketEntry} (hid : nodeID ∈ order)
    (he : t.entry nodeID = some e) (hmark : e.pinned = true ∨ e.friend = true) (limit : Int) (now : Time)
    (offlineOrder : List String) :
    (∃ n ∈ t.candidateNodes sort limit now order offlineOrder, n.id = nodeID) ∨
      (t.candidateNodes sort limit now order offlineOrder).length = candidateLimit limit := by
  obtain ⟨r, hr, rfl⟩ := entry_eq_some.1 he
  have hmem : r ∈ t.candidateRefs sort now order offlineOrder := by
    refine List.mem_append_left _ (List.mem_append_right _ (List.mem_filter.2 ⟨?_, ?_⟩))
    · exact List.mem_filterMap.2 ⟨nodeID, hid, hr⟩
    · rwa [Bool.or_eq_true]
  have hnode : (t.node r).id = nodeID := (h nodeID r hr).2
  have hcase : nodeID ∈ (t.candidateNodes sort limit now order offlineOrder).map NodeInfo.id ∨
      candidateLimit limit ≤ (t.candidateNodes sort limit now order offlineOrder).length := by
    rw [← hnode]
    exact key_mem_pick (List.mem_map_of_mem hmem)
  rcases hcase with hin | hfull
  · exact .inl (List.mem_map.1 hin)
  · exact .inr (le_antisymm length_pick_le hfull)

end Table

end Snapshot

end Vx6.Dht
