import Vx6.Dht.TableSnapshot
import Vx6.Dht.Walk

/-!
# The peer store

`PeerStore` of `peer_store.go`: a bucket of rows, one for each node ID, and the index buckets that
`LoadCandidates` follows. A row is what is remembered of a peer, or text that does not decode. Every
transaction that writes a row uses the node ID in it as the key, which is the invariant of the
structure.

`SaveSnapshot` keeps the peers that `selectPeerRetention` picks. The order of a loop over a Go map is a
`RangeOrder`, and sorting is a `SliceSort`. The name index is written but never read, and is left out.
-/

set_option autoImplicit false

namespace Vx6.Dht

open Vx6.Go Vx6.Lib

/-! ## Peers by their ID -/

/-- The first peer of a list with the ID. -/
def peerOf (peers : List PeerObservation) (nodeID : String) : Option PeerObservation :=
  peers.find? fun p => p.node.id = nodeID

section PeerOf

variable {peers : List PeerObservation} {nodeID : String} {p : PeerObservation}

theorem peerOf_eq_none : peerOf peers nodeID = none ↔ nodeID ∉ peers.map fun p => p.node.id := by
  simp [peerOf]

theorem mem_of_peerOf (h : peerOf peers nodeID = some p) : p ∈ peers ∧ p.node.id = nodeID :=
  ⟨List.mem_of_find?_eq_some h, by simpa using List.find?_some h⟩

theorem peerOf_eq_some (hnodup : (peers.map fun p => p.node.id).Nodup) :
    peerOf peers nodeID = some p ↔ p ∈ peers ∧ p.node.id = nodeID := by
  refine ⟨mem_of_peerOf, ?_⟩
  rintro ⟨hp, rfl⟩
  cases hfound : peerOf peers p.node.id with
  | none => exact absurd (List.mem_map_of_mem hp) (peerOf_eq_none.1 hfound)
  | some q =>
    obtain ⟨hq, hid⟩ := mem_of_peerOf hfound
    rw [List.inj_on_of_nodup_map hnodup hq hp hid]

/-- The peers found for distinct IDs have distinct IDs. -/
theorem nodup_filterMap_ids {f : String → Option PeerObservation} {keys : List String}
    (hf : ∀ {nodeID p}, f nodeID = some p → p.node.id = nodeID) (hkeys : keys.Nodup) :
    ((keys.filterMap f).map fun p => p.node.id).Nodup := by
  have hids : ((keys.filterMap f).map fun p => p.node.id).Sublist keys := by
    clear hkeys
    induction keys with
    | nil => exact List.Sublist.slnil
    | cons key keys ih =>
      cases hfound : f key with
      | none =>
        rw [List.filterMap_cons_none hfound]
        exact ih.cons key
      | some p =>
        rw [List.filterMap_cons_some hfound, List.map_cons, hf hfound]
        exact ih.cons_cons key
  exact hkeys.sublist hids

/-- Later items do not matter to the peers they do not name. -/
theorem lookup_insertAll_peers {ν : Type} (f : PeerObservation → ν) (m : Dict String ν)
    (hnodup : (peers.map fun p => p.node.id).Nodup) :
    (Dict.insertAll (fun p : PeerObservation => p.node.id) f m peers).lookup nodeID =
      ((peerOf peers nodeID).map f).or (m.lookup nodeID) := by
  cases hfound : peerOf peers nodeID with
  | none => exact Dict.lookup_insertAll_of_not_mem (peerOf_eq_none.1 hfound)
  | some p =>
    obtain ⟨hp, rfl⟩ := mem_of_peerOf hfound
    have hin : (Dict.insertAll (fun p : PeerObservation => p.node.id) f m peers).lookup p.node.id =
        some (f p) := Dict.lookup_insertAll_of_mem hnodup hp
    exact hin

end PeerOf

/-! ## Rows and indexes -/

/-- The index buckets. -/
inductive PeerIndex where
  | friends
  | used
  | closestID
  | closestName
  | diversity
  | active
  | probation
  | inactive
  deriving DecidableEq

/-- The order in which `LoadCandidates` reads the indexes. -/
def loadOrder : List PeerIndex :=
  [.friends, .used, .closestID, .closestName, .diversity, .active, .probation, .inactive]

/-- `PeerStore`. A row that does not decode is `none`. -/
structure PeerStore where
  rows : Dict String (Option PeerObservation)
  index : PeerIndex → Dict String String
  /-- A row has the ID of its peer as its key. -/
  keyed : ∀ key p, rows.lookup key = some (some p) → p.node.id = key

/-- `ForEach` visits the keys of a bucket in order. -/
def inKeyOrder {ν : Type} (bucket : Dict String ν) : List String := bucket.keys.insertionSort (· ≤ ·)

theorem mem_inKeyOrder {ν : Type} {bucket : Dict String ν} {key : String} :
    key ∈ inKeyOrder bucket ↔ key ∈ bucket.keys := List.mem_insertionSort _

theorem nodup_inKeyOrder {ν : Type} (bucket : Dict String ν) : (inKeyOrder bucket).Nodup :=
  (List.perm_insertionSort _ _).nodup_iff.2 bucket.keys_nodup

namespace PeerStore

/-- The row of a peer, if it decodes. -/
def row (s : PeerStore) (nodeID : String) : Option PeerObservation := (s.rows.lookup nodeID).join

/-- `loadAll`. -/
def loadAll (s : PeerStore) : List PeerObservation := (inKeyOrder s.rows).filterMap s.row

variable {s : PeerStore} {nodeID : String} {p : PeerObservation}

theorem row_eq_some :
    s.row nodeID = some p ↔ s.rows.lookup nodeID = some (some p) := Option.join_eq_some_iff

theorem id_of_row (h : s.row nodeID = some p) : p.node.id = nodeID := s.keyed nodeID p (row_eq_some.1 h)

theorem mem_loadAll : p ∈ s.loadAll ↔ s.row p.node.id = some p := by
  rw [loadAll, List.mem_filterMap]
  constructor
  · rintro ⟨nodeID, -, hrow⟩
    rwa [id_of_row hrow]
  · intro hrow
    exact ⟨_, mem_inKeyOrder.2 (Dict.mem_keys_of_lookup (row_eq_some.1 hrow)), hrow⟩

/-- No two rows have the same ID. -/
theorem nodup_loadAll (s : PeerStore) : (s.loadAll.map fun p => p.node.id).Nodup :=
  nodup_filterMap_ids id_of_row (nodup_inKeyOrder s.rows)

/-! ## Retention -/

/-- The peers that are not kept: incomplete ones, and those neither pinned nor friends that went offline
too long ago or, if they are not offline, were last seen more than `hintTTL` ago. -/
def expired (hintTTL : Duration) (peer : PeerObservation) (now : Time) : Bool :=
  peer.node.id = "" || peer.node.addr = "" ||
    (!peer.pinned && !peer.friend &&
      ((!isZero peer.offlineSince && peerHistoryTTL < sub now peer.offlineSince) ||
        (isZero peer.offlineSince && !isZero peer.lastSeen && hintTTL < sub now peer.lastSeen)))

section Selection

variable (rt : Runtime) (sort : SliceSort)

/-- The loop of `selectPeerRetention` for coverage: the keys covered, and the peers to add. -/
def coverPeer (acc : List String × List PeerObservation) (peer : PeerObservation) :
    List String × List PeerObservation :=
  let keys := peerDiversityKeys rt peer.node.addr
  if isZero peer.offlineSince && keys.any (· ∉ acc.1) then (acc.1 ++ keys, acc.2 ++ [peer]) else acc

/-- `add` of `selectPeerRetention`. -/
def add (limit : Nat) (selected : List PeerObservation) (peer : PeerObservation) : List PeerObservation :=
  enlist (fun p => p.node.id) limit selected peer

/-- The peers in the order in which the loops of `selectPeerRetention` add them. -/
def retentionOrder (ordered : List PeerObservation) : List PeerObservation :=
  ordered.filter (fun p => p.friend) ++ (ordered.filter (fun p => p.used) ++
    ordered.filter (fun p => p.closest) ++ (ordered.foldl (coverPeer rt) ([], [])).2 ++
    ordered.filter (fun p => isZero p.offlineSince) ++
      ordered.filter (fun p => !isZero p.probationUntil) ++
    ordered.filter (fun p => !isZero p.offlineSince) ++ ordered)

/-- `selectPeerRetention`. -/
def selectPeerRetention (peers : List PeerObservation) (limit : Nat) : List PeerObservation :=
  (retentionOrder rt (sort.slice peerRetentionLess peers)).foldl (add limit) []

variable {rt sort} {peers ordered : List PeerObservation} {limit : Nat}

theorem mem_cover (h : p ∈ (ordered.foldl (coverPeer rt) ([], [])).2) : p ∈ ordered := by
  have hloop : ∀ p ∈ (ordered.foldl (coverPeer rt) ([], [])).2, p ∈ ordered := by
    refine List.foldlRecOn
      (motive := fun acc : List String × List PeerObservation => ∀ p ∈ acc.2, p ∈ ordered) ordered
      (coverPeer rt) (by simp) fun acc hacc peer hpeer p hp => ?_
    unfold coverPeer at hp
    simp only at hp
    split_ifs at hp
    · rcases List.mem_append.1 hp with hp | hp
      · exact hacc p hp
      · rwa [List.mem_singleton.1 hp]
    · exact hacc p hp
  exact hloop p h

theorem mem_retentionOrder : p ∈ retentionOrder rt ordered ↔ p ∈ ordered := by
  simp only [retentionOrder, List.mem_append, List.mem_filter]
  constructor
  · rintro (hmem | ((((((hmem | hmem) | hmem) | hmem) | hmem) | hmem) | hmem))
    · exact hmem.1
    · exact hmem.1
    · exact hmem.1
    · exact mem_cover hmem
    · exact hmem.1
    · exact hmem.1
    · exact hmem.1
    · exact hmem
  · exact fun hmem => .inr (.inr hmem)

theorem mem_of_mem_selectPeerRetention (h : p ∈ selectPeerRetention rt sort peers limit) : p ∈ peers :=
  (sort.mem_slice _ _).1 (mem_retentionOrder.1 (mem_of_mem_pick h))

theorem nodup_selectPeerRetention :
    ((selectPeerRetention rt sort peers limit).map fun p => p.node.id).Nodup := nodup_pick

end Selection

end PeerStore

end Vx6.Dht
