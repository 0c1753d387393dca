import Vx6.Dht.Distance
import Vx6.Lib.Buckets
import Vx6.Lib.Dict
import Vx6.Lib.Run

/-!
# The routing table

`RoutingTable` of `table.go`. Its five indexes hold pointers to shared, mutable entries: `Buckets`
by the distance of the node ID, `NameBuckets` by the distance of the name hash, `Pending` for
candidates, and the maps `peerByID` and `offline`. A pointer is a `Ref` into `heap`. The bucket
arrays are instances of `Lib.Buckets`, with the node ID of the entry behind a pointer as the key.

Every operation is a function on tables under its source name; one that can fail with an index out
of range returns an option. An operation that reads the clock takes the time as an argument. `Op`
and `Table.step` put the operations together for statements about runs.
-/

set_option autoImplicit false

namespace Vx6.Dht

open Vx6.Go Vx6.Lib Vx6.Record

/-! ## Constants and entries -/

/-- `maxPendingCandidates`. -/
def maxPendingCandidates : Nat := 512

/-- `staleFailureThreshold`. -/
def staleFailureThreshold : UInt8 := 3

/-- `livenessProbeInterval`. -/
def livenessProbeInterval : Duration := 5 * minute

/-- `peerProbationPeriod`. -/
def peerProbationPeriod : Duration := 2 * hour

/-- `peerAddressHintTTL`. -/
def peerAddressHintTTL : Duration := 30 * 24 * hour

/-- `peerHistoryTTL`. -/
def peerHistoryTTL : Duration := 30 * 24 * hour

/-- `peerCacheHotLimit`. -/
def peerCacheHotLimit : Nat := 512

/-- `PeerObservation`: what is remembered of a peer. -/
structure PeerObservation where
  node : NodeInfo
  failCount : UInt8 := 0
  successCount : UInt32 := 0
  lastSeen : Time := zeroTime
  firstSeen : Time := zeroTime
  lastSuccess : Time := zeroTime
  lastUsed : Time := zeroTime
  lastFailure : Time := zeroTime
  lastProbe : Time := zeroTime
  lastProbeFailure : Time := zeroTime
  offlineSince : Time := zeroTime
  probeMisses : UInt8 := 0
  probationUntil : Time := zeroTime
  nextProbeAt : Time := zeroTime
  rttMicros : UInt32 := 0
  pinned : Bool := false
  friend : Bool := false
  useCount : UInt32 := 0
  closestIDRank : UInt16 := 0
  closestNameRank : UInt16 := 0
  deriving DecidableEq, Repr

/-- `bucketEntry`: an observation that may be kept for one lookup only. -/
structure BucketEntry extends PeerObservation where
  transient : Bool := false
  deriving DecidableEq, Repr

/-- A pointer to an entry. -/
abbrev Ref := Nat

/-- One of the three bucket arrays. -/
abbrev Index := Buckets 256 Ref

/-- `RoutingTable`. Pointers below `nextRef` have been allocated. -/
structure Table where
  selfID : String
  selfNameHash : String
  heap : Ref → BucketEntry
  nextRef : Ref
  buckets : Index
  nameBuckets : Index
  pending : Index
  peerByID : Dict String Ref
  offline : Dict String Ref
  pendingN : Int

/-- `NewRoutingTable`. -/
def newRoutingTable (cr : Crypto) (selfID : String) : Table where
  selfID := selfID
  selfNameHash := nodeNameHash cr selfID
  heap := fun _ => { node := {} }
  nextRef := 0
  buckets := fun _ => []
  nameBuckets := fun _ => []
  pending := fun _ => []
  peerByID := ∅
  offline := ∅
  pendingN := 0

namespace Table

/-! ## Entries and coordinates -/

/-- The peer of an entry. -/
def node (t : Table) (r : Ref) : NodeInfo := (t.heap r).node

/-- The node ID of an entry. -/
def idOf (t : Table) (r : Ref) : String := (t.node r).id

/-- Change the entry behind a pointer. -/
def modify (t : Table) (r : Ref) (f : BucketEntry → BucketEntry) : Table :=
  { t with heap := Function.update t.heap r (f (t.heap r)) }

/-- Replace the peer of an entry. -/
def setNode (t : Table) (r : Ref) (node : NodeInfo) : Table :=
  t.modify r fun e => { e with node := node }

/-- A new entry for a node ID; its pointer is `t.nextRef`. -/
def alloc (t : Table) (nodeID : String) (entry : BucketEntry) : Table :=
  { t with
    heap := Function.update t.heap t.nextRef entry
    nextRef := t.nextRef + 1
    peerByID := t.peerByID.insert nodeID t.nextRef }

/-- The position for a distance: -1 for distance 0, at most 255 for 256-bit coordinates. -/
def bitIndex (distance : Nat) : Int := (bitLen distance : Int) - 1

/-- The bucket that `insertIndexLocked` uses for a position. -/
def clamp (idx : Int) : Fin 256 := Fin.ofNat 256 (min idx.toNat 255)

/-- The bucket of an unclamped access; `none` is a panic. -/
def checked (idx : Int) : Option (Fin 256) :=
  if h : 0 ≤ idx ∧ idx < 256 then some ⟨idx.toNat, by omega⟩ else none

section Operations

variable (cr : Crypto)

/-- `bucketIndex`. -/
def bucketIndex (t : Table) (nodeID : String) : Int := bitIndex (xorDistance cr t.selfID nodeID)

/-- `nameBucketIndex`. -/
def nameBucketIndex (t : Table) (node : NodeInfo) : Int :=
  bitIndex (xorDistance cr t.selfNameHash (node.nodeNameHash cr))

/-! ## Index helpers -/

/-- A peer with this ID is in `Buckets`. -/
def inBuckets (t : Table) (nodeID : String) : Bool := Buckets.has t.idOf t.buckets nodeID

/-- A peer with this ID is in `NameBuckets`. -/
def inNameBuckets (t : Table) (nodeID : String) : Bool := Buckets.has t.idOf t.nameBuckets nodeID

/-- A peer with this ID is in `Pending`. -/
def inPending (t : Table) (nodeID : String) : Bool := Buckets.has t.idOf t.pending nodeID

/-- `insertIndexLocked` on `Buckets`. -/
def insertActive (t : Table) (r : Ref) : Table :=
  { t with buckets := Buckets.insert t.idOf t.buckets r (clamp (t.bucketIndex cr (t.idOf r))) }

/-- `insertIndexLocked` on `NameBuckets`. -/
def insertNamed (t : Table) (r : Ref) : Table :=
  { t with
    nameBuckets := Buckets.insert t.idOf t.nameBuckets r (clamp (t.nameBucketIndex cr (t.node r))) }

/-- `removeFromIndexLocked` on `Buckets`. -/
def removeActive (t : Table) (nodeID : String) : Table :=
  { t with buckets := Buckets.remove t.idOf t.buckets nodeID }

/-- `removeFromIndexLocked` on `NameBuckets`. -/
def removeNamed (t : Table) (nodeID : String) : Table :=
  { t with nameBuckets := Buckets.remove t.idOf t.nameBuckets nodeID }

/-- `removePendingLocked`; its result is `t.inPending nodeID`. -/
def removePending (t : Table) (nodeID : String) : Table :=
  { t with
    pending := Buckets.removeFirst t.idOf t.pending nodeID
    pendingN := if t.inPending nodeID then t.pendingN - 1 else t.pendingN }

/-- `rt.Pending[idx] = append(rt.Pending[idx], entry)`. -/
def appendPending (t : Table) (r : Ref) (i : Fin 256) : Table :=
  { t with pending := Buckets.append t.pending r i }

/-- The same for a candidate that takes a new place in the count. -/
def enqueue (t : Table) (r : Ref) (i : Fin 256) : Table :=
  { t.appendPending r i with pendingN := t.pendingN + 1 }

/-- `delete(rt.offline, nodeID)`. -/
def deleteOffline (t : Table) (nodeID : String) : Table :=
  { t with offline := t.offline.erase nodeID }

/-- `rt.offline[nodeID] = entry`. -/
def setOffline (t : Table) (nodeID : String) (r : Ref) : Table :=
  { t with offline := t.offline.insert nodeID r }

/-- `delete(rt.peerByID, nodeID)`. -/
def deletePeer (t : Table) (nodeID : String) : Table :=
  { t with peerByID := t.peerByID.erase nodeID }

/-- The entry of a peer is pinned. -/
def isPinned (t : Table) (nodeID : String) : Bool :=
  match t.peerByID.lookup nodeID with
  | some r => (t.heap r).pinned
  | none => false

/-- `removePeerIfUnindexedLocked`. -/
def removePeerIfUnindexed (t : Table) (nodeID : String) : Table :=
  if t.isPinned nodeID then t
  else if t.inBuckets nodeID || t.inNameBuckets nodeID then t
  else if (t.offline.lookup nodeID).isSome then t
  else if t.inPending nodeID then t
  else t.deletePeer nodeID

/-- `moveToFrontLocked`: a position outside the array is left alone. -/
def moveToFront (index : Index) (key : Ref → String) (nodeID : String) (idx : Int) : Index :=
  match checked idx with
  | some i => Buckets.moveToFront key index nodeID i
  | none => index

/-- `moveToFrontLocked` on `Buckets`. -/
def touchActive (t : Table) (nodeID : String) : Table :=
  { t with buckets := moveToFront t.buckets t.idOf nodeID (t.bucketIndex cr nodeID) }

/-- `moveToFrontLocked` on `NameBuckets`, for the entry of a peer. -/
def touchNamed (t : Table) (r : Ref) (nodeID : String) : Table :=
  { t with
    nameBuckets := moveToFront t.nameBuckets t.idOf nodeID (t.nameBucketIndex cr (t.node r)) }

/-- The common start of `AddNode` and `UpdateKnownNode` on a known peer: the peer leaves
`NameBuckets` when its name hash changes, and its entry takes the new data. -/
def replaceNode (t : Table) (r : Ref) (node : NodeInfo) : Table :=
  if (t.node r).nodeNameHash cr ≠ node.nodeNameHash cr then (t.removeNamed node.id).setNode r node
  else t.setNode r node

/-! ## Operations -/

/-- The entries that `SetSelfNameHash` puts back: those of the active peers, by node ID. -/
def activeEntries (t : Table) : List Ref :=
  ((t.peerByID.entries.map fun e => e.2).insertionSort fun r r' => t.idOf r ≤ t.idOf r').filter
    fun r => t.inBuckets (t.idOf r)

/-- `SetSelfNameHash`. -/
def setSelfNameHash (t : Table) (hash : String) : Table :=
  t.activeEntries.foldl (fun t r => t.insertNamed cr r)
    { t with selfNameHash := hash, nameBuckets := fun _ => [] }

/-- `initialProbeDelay`. -/
def initialProbeDelay (nodeID : String) : Duration :=
  (bigEndian ((cr.sum nodeID).take 8) : Int) % livenessProbeInterval

/-- A counter that stops at its largest value. -/
def increment (count : UInt32) : UInt32 := if count < 0xffffffff then count + 1 else count

/-- The entry of a peer after a successful exchange. -/
def noteExchange (now : Time) (e : BucketEntry) : BucketEntry :=
  { e with
    transient := false
    failCount := 0
    lastSeen := now
    firstSeen := if isZero e.firstSeen then now else e.firstSeen
    lastSuccess := now
    lastProbe := now
    nextProbeAt := now + initialProbeDelay cr e.node.id
    probeMisses := 0
    lastProbeFailure := zeroTime
    offlineSince := zeroTime
    successCount := increment e.successCount }

/-- A known peer without any success so far is put on probation again. -/
def startProbation (now : Time) (e : BucketEntry) : BucketEntry :=
  if isZero e.probationUntil && e.successCount = 0 && !e.pinned then
    { e with probationUntil := now + peerProbationPeriod }
  else e

/-- The guard of the operations that take a peer: its ID and address are set and it is not this
node. -/
def acceptable (t : Table) (node : NodeInfo) : Bool :=
  node.id ≠ "" && node.id ≠ t.selfID && node.addr ≠ ""

/-- The peer of an entry answered: it is neither offline nor a candidate any more. -/
def welcome (t : Table) (r : Ref) (now : Time) : Table :=
  ((t.deleteOffline (t.idOf r)).modify r (noteExchange cr now)).removePending (t.idOf r)

/-- The second half of `AddNode`, from the entry of the peer on. -/
def activate (t : Table) (r : Ref) (now : Time) : Table :=
  let t := (t.welcome cr r now).insertActive cr r
  if t.selfNameHash ≠ "" then t.insertNamed cr r else t

/-- `AddNode`. -/
def addNode (t : Table) (node : NodeInfo) (now : Time) : Table :=
  if t.acceptable node then
    match t.peerByID.lookup node.id with
    | none =>
      (t.alloc node.id { node := node, probationUntil := now + peerProbationPeriod }).activate cr
        t.nextRef now
    | some r => ((t.replaceNode cr r node).modify r (startProbation now)).activate cr r now
  else t

/-- `UpdateKnownNode`; the second component is its result. -/
def updateKnownNode (t : Table) (node : NodeInfo) (now : Time) : Table × Bool :=
  if t.acceptable node && (verifyNodeInfo cr node now).isOk then
    match t.peerByID.lookup node.id with
    | none => (t, false)
    | some r =>
      if endpointRecordNewer (endpointRecordFromNodeInfo node)
          (endpointRecordFromNodeInfo (t.node r)) then
        let t := t.replaceNode cr r node
        if t.inBuckets node.id && t.selfNameHash ≠ "" then (t.insertNamed cr r, true) else (t, true)
      else (t, false)
  else (t, false)

/-- `AddLookupCandidate`; `none` is a panic. -/
def addLookupCandidate (t : Table) (node : NodeInfo) : Option (Table × Bool) :=
  if t.acceptable node then
    if (t.peerByID.lookup node.id).isSome || maxPendingCandidates ≤ t.pendingN then some (t, false)
    else do
      let i ← checked (t.bucketIndex cr node.id)
      return ((t.alloc node.id { node := node, transient := true }).enqueue t.nextRef i, true)
  else some (t, false)

/-- The new data of a candidate, which leaves its list. -/
def refresh (t : Table) (r : Ref) (node : NodeInfo) : Table :=
  ((t.removePending node.id).setNode r node).deleteOffline node.id

/-- The new data of a known peer that becomes a candidate. -/
def adopt (t : Table) (r : Ref) (node : NodeInfo) : Table :=
  (t.modify r fun e => { e with node := node, transient := false }).deleteOffline node.id

/-- `AddCandidate`; `none` is a panic. A refreshed candidate is taken out of its list and appended
again. -/
def addCandidate (t : Table) (node : NodeInfo) : Option Table :=
  if t.acceptable node then
    if t.inBuckets node.id || t.inNameBuckets node.id then some t
    else
      match t.peerByID.lookup node.id with
      | some r =>
        if t.inPending node.id then do
          let i ← checked (t.bucketIndex cr node.id)
          return (t.refresh r node).appendPending r i
        else if maxPendingCandidates ≤ t.pendingN then some t
        else do
          let i ← checked (t.bucketIndex cr node.id)
          return (t.adopt r node).enqueue r i
      | none =>
        if maxPendingCandidates ≤ t.pendingN then some t
        else do
          let i ← checked (t.bucketIndex cr node.id)
          return ((t.alloc node.id { node := node }).deleteOffline node.id).enqueue t.nextRef i
  else some t

/-- The peers that `RestoreCandidates` skips. -/
def tooOld (peer : PeerObservation) (now : Time) : Bool :=
  peer.node.id = "" || peer.node.addr = "" ||
    (!peer.pinned && !peer.friend &&
      ((!isZero peer.offlineSince && peerHistoryTTL < sub now peer.offlineSince) ||
        (isZero peer.offlineSince && !isZero peer.lastSeen &&
          peerAddressHintTTL < sub now peer.lastSeen)))

/-- The entry with everything remembered of the peer; the peer itself stays. -/
def remember (peer : PeerObservation) (e : BucketEntry) : BucketEntry :=
  { peer with node := e.node, transient := e.transient }

/-- One turn of the loop of `RestoreCandidates`. -/
def restoreCandidate (t : Table) (peer : PeerObservation) (now : Time) : Option Table :=
  if tooOld peer now then some t
  else do
    let t ← t.addCandidate cr peer.node
    match t.peerByID.lookup peer.node.id with
    | none => return t
    | some r =>
      let t := t.modify r (remember peer)
      if isZero peer.offlineSince then return t
      else return (t.removePending peer.node.id).setOffline peer.node.id r

/-- The peers that `RestoreCandidates` keeps. The order among equally recent ones is that of the
argument. -/
def hotPeers (peers : List PeerObservation) : List PeerObservation :=
  if peerCacheHotLimit < peers.length then
    (peers.insertionSort fun p q => q.lastSuccess ≤ p.lastSuccess).take peerCacheHotLimit
  else peers

/-- `RestoreCandidates`. -/
def restoreCandidates (t : Table) (peers : List PeerObservation) (now : Time) : Option Table :=
  (hotPeers peers).foldlM (fun t peer => t.restoreCandidate cr peer now) t

/-- The first entry of `Pending` with the ID. -/
def firstPending (t : Table) (nodeID : String) : Option Ref :=
  ((List.finRange 256).flatMap t.pending).find? fun r => t.idOf r = nodeID

/-- `PromoteCandidate`. No entry has an empty ID, so its loop ends at the first entry it finds. -/
def promoteCandidate (t : Table) (nodeID : String) (now : Time) : Table :=
  match t.firstPending nodeID with
  | none => t
  | some r =>
    let t' := t.removePending nodeID
    if (t.idOf r) ≠ "" then t'.addNode cr (t.node r) now else t'

/-- `DiscardCandidate`. -/
def discardCandidate (t : Table) (nodeID : String) : Table :=
  if t.inPending nodeID then (t.removePending nodeID).removePeerIfUnindexed nodeID else t

/-- A byte counter that stops at its largest value. -/
def incrementByte (count : UInt8) : UInt8 := if count < 0xff then count + 1 else count

/-- `NoteFailureAt`. -/
def noteFailureAt (t : Table) (nodeID : String) (now : Time) : Table :=
  match t.peerByID.lookup nodeID with
  | none => t
  | some r =>
    if nodeID = t.selfID then t
    else t.modify r fun e => { e with lastFailure := now, failCount := incrementByte e.failCount }

/-- The loop of `BeginLivenessProbe` over the node IDs in some order. -/
def dueForProbe (t : Table) (order : List String) (now : Time) : Option Ref :=
  (order.filterMap t.peerByID.lookup).foldl (fun selected r =>
    if !t.inBuckets (t.idOf r) || now < (t.heap r).nextProbeAt then selected
    else
      match selected with
      | none => some r
      | some s => if (t.heap r).lastProbe < (t.heap s).lastProbe then some r else some s) none

/-- The entry of a peer that is probed now. -/
def noteProbe (now : Time) (e : BucketEntry) : BucketEntry :=
  { e with lastProbe := now, nextProbeAt := now + livenessProbeInterval }

/-- `BeginLivenessProbe`; the order of the map iteration is an argument. -/
def beginLivenessProbe (t : Table) (order : List String) (now : Time) : Table × Option NodeInfo :=
  match t.dueForProbe order now with
  | none => (t, none)
  | some r => (t.modify r (noteProbe now), some (t.node r))

/-- The entry after a successful liveness probe. -/
def noteAlive (now : Time) (e : BucketEntry) : BucketEntry :=
  { e with
    probeMisses := 0
    failCount := 0
    lastSeen := now
    lastSuccess := now
    lastFailure := zeroTime
    lastProbeFailure := zeroTime
    offlineSince := zeroTime
    probationUntil :=
      if isZero e.probationUntil then now + peerProbationPeriod else e.probationUntil }

/-- The entry after a liveness probe without an answer. -/
def noteMiss (now : Time) (e : BucketEntry) : BucketEntry :=
  { e with
    probeMisses := incrementByte e.probeMisses
    lastFailure := now
    lastProbeFailure := now }

/-- A miss that comes less than an interval after the last one does not count. -/
def tooSoon (now : Time) (e : BucketEntry) : Bool :=
  !isZero e.lastProbeFailure && sub now e.lastProbeFailure < livenessProbeInterval

/-- The entry of a peer that goes offline. -/
def noteOffline (now : Time) (e : BucketEntry) : BucketEntry :=
  { e with offlineSince := if isZero e.offlineSince then now else e.offlineSince }

/-- The last part of `RecordLivenessResult`, for a peer with enough misses. -/
def takeOffline (t : Table) (r : Ref) (nodeID : String) (now : Time) : Table × Bool :=
  if t.inBuckets nodeID || t.inNameBuckets nodeID then
    ((((((t.removeActive nodeID).removeNamed nodeID).modify r (noteOffline now)).setOffline nodeID
      r).removePeerIfUnindexed nodeID), true)
  else
    let t := t.removePending nodeID
    if 0 < (t.heap r).successCount || (t.heap r).pinned then
      ((t.modify r (noteOffline now)).setOffline nodeID r, false)
    else (t.deletePeer nodeID, false)

/-- `RecordLivenessResult`; the second component is its result. -/
def recordLivenessResult (t : Table) (nodeID : String) (now : Time) (alive : Bool) :
    Table × Bool :=
  match t.peerByID.lookup nodeID with
  | none => (t, false)
  | some r =>
    let t := t.modify r (noteProbe now)
    if alive then (t.modify r (noteAlive now), false)
    else if tooSoon now (t.heap r) then (t, false)
    else
      let t := t.modify r (noteMiss now)
      if (t.heap r).probeMisses < staleFailureThreshold then (t, false)
      else t.takeOffline r nodeID now

/-- The smoothed round trip time after a measurement of `rtt` nanoseconds. -/
def smoothRTT (old : UInt32) (rtt : Duration) : UInt32 :=
  if 0 < rtt then
    let micros := min (rtt.toNat / 1000) 0xffffffff
    if old = 0 then UInt32.ofNat micros else UInt32.ofNat ((old.toNat * 7 + micros) / 8)
  else old

/-- The entry of a peer after it was used. -/
def noteUse (now : Time) (rtt : Duration) (e : BucketEntry) : BucketEntry :=
  { e with
    lastUsed := now
    useCount := increment e.useCount
    lastSeen := now
    failCount := 0
    probeMisses := 0
    lastProbeFailure := zeroTime
    lastProbe := now
    nextProbeAt := now + livenessProbeInterval
    rttMicros := smoothRTT e.rttMicros rtt }

/-- The peer with its name hash filled in. -/
def withNameHash (node : NodeInfo) : NodeInfo := { node with nameHash := node.nodeNameHash cr }

/-- `RecordUse`. -/
def recordUse (t : Table) (nodeID : String) (now : Time) (rtt : Duration) : Table :=
  match t.peerByID.lookup nodeID with
  | none => t
  | some r =>
    let t := (t.modify r (noteUse now rtt)).touchActive cr nodeID
    if t.selfNameHash ≠ "" then (t.setNode r (withNameHash cr (t.node r))).touchNamed cr r nodeID
    else t

/-- `SetPinned`; the second component is its result. -/
def setPinned (t : Table) (nodeID : String) (pinned : Bool) : Table × Bool :=
  match t.peerByID.lookup nodeID with
  | none => (t, false)
  | some r =>
    let t := t.modify r fun e => { e with pinned := pinned }
    (if pinned then t else t.removePeerIfUnindexed nodeID, true)

/-- `SetFriend`; the second component is its result. -/
def setFriend (t : Table) (nodeID : String) (friend : Bool) : Table × Bool :=
  match t.peerByID.lookup nodeID with
  | none => (t, false)
  | some r => (t.modify r fun e => { e with friend := friend }, true)

/-- The offline entries that `PruneOffline` drops. -/
def prunable (now : Time) (e : BucketEntry) : Bool :=
  !e.pinned && !e.friend && !isZero e.offlineSince && peerHistoryTTL < sub now e.offlineSince

/-- The node IDs that `PruneOffline` drops. -/
def prunes (t : Table) (now : Time) (nodeID : String) : Bool :=
  match t.offline.lookup nodeID with
  | some r => prunable now (t.heap r)
  | none => false

/-- `PruneOffline`. -/
def pruneOffline (t : Table) (now : Time) : Table :=
  { t with
    offline := t.offline.filter fun nodeID _ => !t.prunes now nodeID
    peerByID := t.peerByID.filter fun nodeID _ => !t.prunes now nodeID }

/-! ## Reading -/

/-- The node IDs of an index, bucket by bucket. -/
def ids (t : Table) (index : Index) : List String :=
  (List.finRange 256).flatMap fun i => (index i).map t.idOf

/-- The order of `sort.Strings` with repetitions dropped. -/
def distinctSorted (ids : List String) : List String := (ids.insertionSort (· ≤ ·)).dedup

/-- `Nodes`; `none` is the dereference of a missing entry. -/
def nodes (t : Table) : Option (List NodeInfo) :=
  (distinctSorted (t.ids t.buckets)).mapM fun nodeID => (t.peerByID.lookup nodeID).map t.node

end Operations

end Table

/-- The operations of a table, with their arguments. -/
inductive Op where
  | addNode (node : NodeInfo) (now : Time)
  | updateKnownNode (node : NodeInfo) (now : Time)
  | addCandidate (node : NodeInfo)
  | addLookupCandidate (node : NodeInfo)
  | restoreCandidates (peers : List PeerObservation) (now : Time)
  | promoteCandidate (nodeID : String) (now : Time)
  | discardCandidate (nodeID : String)
  | noteFailureAt (nodeID : String) (now : Time)
  | beginLivenessProbe (order : List String) (now : Time)
  | recordLivenessResult (nodeID : String) (now : Time) (alive : Bool)
  | recordUse (nodeID : String) (now : Time) (rtt : Duration)
  | setPinned (nodeID : String) (pinned : Bool)
  | setFriend (nodeID : String) (friend : Bool)
  | setSelfNameHash (hash : String)
  | pruneOffline (now : Time)

/-- The table after an operation; `none` when the operation panics. -/
def Table.step (cr : Crypto) (t : Table) : Op → Option Table
  | .addNode node now => some (t.addNode cr node now)
  | .updateKnownNode node now => some (t.updateKnownNode cr node now).1
  | .addCandidate node => t.addCandidate cr node
  | .addLookupCandidate node => (t.addLookupCandidate cr node).map Prod.fst
  | .restoreCandidates peers now => t.restoreCandidates cr peers now
  | .promoteCandidate nodeID now => some (t.promoteCandidate cr nodeID now)
  | .discardCandidate nodeID => some (t.discardCandidate nodeID)
  | .noteFailureAt nodeID now => some (t.noteFailureAt nodeID now)
  | .beginLivenessProbe order now => some (t.beginLivenessProbe order now).1
  | .recordLivenessResult nodeID now alive => some (t.recordLivenessResult nodeID now alive).1
  | .recordUse nodeID now rtt => some (t.recordUse cr nodeID now rtt)
  | .setPinned nodeID pinned => some (t.setPinned nodeID pinned).1
  | .setFriend nodeID friend => some (t.setFriend nodeID friend).1
  | .setSelfNameHash hash => some (t.setSelfNameHash cr hash)
  | .pruneOffline now => some (t.pruneOffline now)

end Vx6.Dht
