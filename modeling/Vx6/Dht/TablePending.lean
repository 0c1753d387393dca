import Vx6.Dht.TableView

/-!
# The count of the candidates

`pendingN` is kept by hand next to the lists of `Pending` and bounds them: a candidate is accepted
only while it is below `maxPendingCandidates`. The refresh branch of `AddCandidate` takes the
candidate out with `removePendingLocked`, which lowers the count, and appends it again without
raising it. `pending_accounting` is the result for the runs without a refresh (`AddsOnce`);
`refresh_lowers_count` shows what three calls for one peer do to the count.
-/

set_option autoImplicit false

namespace Vx6.Dht.Table

open Vx6.Go Vx6.Lib Vx6.Record

/-- The count is the number of candidates and within its bound. -/
structure Counted (t : Table) : Prop where
  count : t.pendingN = (Buckets.size t.pending : Int)
  cap : t.pendingN ≤ maxPendingCandidates

section Operations

variable {cr : Crypto} {t t' : Table} {r : Ref} {nodeID : String}

/-! ## Changes of the lists -/

theorem Counted.of_eq (h : t.Counted) (hpending : t'.pending = t.pending)
    (hcount : t'.pendingN = t.pendingN) : t'.Counted where
  count := by rw [hcount, hpending, h.count]
  cap := by rw [hcount]; exact h.cap

theorem Counted.removePending (h : t.Counted) (nodeID : String) : (t.removePending nodeID).Counted := by
  by_cases hin : t.inPending nodeID = true
  · have hsize : Buckets.size (t.removePending nodeID).pending + 1 = Buckets.size t.pending :=
      Buckets.size_removeFirst hin
    have hcount : (t.removePending nodeID).pendingN = t.pendingN - 1 := if_pos hin
    have := h.count
    have := h.cap
    exact ⟨by omega, by omega⟩
  · refine h.of_eq ?_ (if_neg hin)
    exact Buckets.removeFirst_eq_self (Bool.eq_false_iff.2 hin)

theorem Counted.enqueue (h : t.Counted) {i : Fin 256} (hroom : t.pendingN < maxPendingCandidates) :
    (t.enqueue r i).Counted := by
  have hsize : Buckets.size (t.enqueue r i).pending = Buckets.size t.pending + 1 :=
    Buckets.size_append
  have hcount : (t.enqueue r i).pendingN = t.pendingN + 1 := rfl
  have := h.count
  exact ⟨by omega, by omega⟩

theorem Counted.removePeerIfUnindexed (h : t.Counted) : (t.removePeerIfUnindexed nodeID).Counted := by
  unfold Table.removePeerIfUnindexed
  split_ifs
  · exact h
  · exact h
  · exact h
  · exact h
  · exact h.of_eq rfl rfl

/-! ## The operations -/

theorem Counted.addNode (h : t.Counted) (node : NodeInfo) (now : Time) :
    (t.addNode cr node now).Counted := by
  have hactivate : ∀ {t : Table} {r : Ref}, t.Counted → (t.activate cr r now).Counted := by
    intro t r h
    have h₁ : ((t.deleteOffline (t.idOf r)).modify r (noteExchange cr now)).Counted :=
      h.of_eq rfl rfl
    have h₂ : (t.welcome cr r now).Counted := h₁.removePending (t.idOf r)
    simp only [activate]
    split
    · exact h₂.of_eq rfl rfl
    · exact h₂.of_eq rfl rfl
  have hreplace : ∀ {r : Ref}, (t.replaceNode cr r node).Counted := by
    intro r
    unfold replaceNode
    split
    · exact h.of_eq rfl rfl
    · exact h.of_eq rfl rfl
  unfold Table.addNode
  split
  · split
    · exact hactivate (h.of_eq rfl rfl)
    · exact hactivate (hreplace.of_eq rfl rfl)
  · exact h

theorem Counted.updateKnownNode (h : t.Counted) (node : NodeInfo) (now : Time) :
    (t.updateKnownNode cr node now).1.Counted := by
  unfold Table.updateKnownNode
  split
  · split
    · exact h
    · split
      · simp only [replaceNode]
        split_ifs
        · exact h.of_eq rfl rfl
        · exact h.of_eq rfl rfl
        · exact h.of_eq rfl rfl
        · exact h.of_eq rfl rfl
      · exact h
  · exact h

/-- A call for a peer that is no candidate yet. -/
theorem Counted.addCandidate (h : t.Counted) {node : NodeInfo} (hnew : t.inPending node.id = false)
    (hadd : t.addCandidate cr node = some t') : t'.Counted := by
  rcases addCandidate_cases hadd with ⟨-, rfl⟩ | ⟨-, -, -, i, -, hcase⟩
  · exact h
  rcases hcase with ⟨r, -, hpending, rfl⟩ | ⟨r, -, -, hroom, rfl⟩ | ⟨-, hroom, rfl⟩
  · rw [hnew] at hpending
    cases hpending
  · have h' : (t.adopt r node).Counted := h.of_eq rfl rfl
    exact h'.enqueue hroom
  · have h' : ((t.alloc node.id { node := node }).deleteOffline node.id).Counted := h.of_eq rfl rfl
    exact h'.enqueue hroom

theorem Counted.addLookupCandidate (h : t.Counted) {node : NodeInfo} {b : Bool}
    (hadd : t.addLookupCandidate cr node = some (t', b)) : t'.Counted := by
  rcases addLookupCandidate_cases hadd with ⟨-, rfl⟩ | ⟨-, -, hroom, i, -, rfl⟩
  · exact h
  · have h' : (t.alloc node.id { node := node, transient := true }).Counted := h.of_eq rfl rfl
    exact h'.enqueue hroom

theorem Counted.restoreCandidate (h : t.Counted) {peer : PeerObservation} {now : Time}
    (hnew : t.inPending peer.node.id = false)
    (hrestore : t.restoreCandidate cr peer now = some t') : t'.Counted := by
  rcases restoreCandidate_cases hrestore with rfl | ⟨-, t₁, hadd, hcase⟩
  · exact h
  have h₁ := h.addCandidate hnew hadd
  rcases hcase with rfl | ⟨r, -, rfl | ⟨-, rfl⟩⟩
  · exact h₁
  · exact h₁.of_eq rfl rfl
  · have h₂ : (t₁.modify r (remember peer)).Counted := h₁.of_eq rfl rfl
    exact (h₂.removePending peer.node.id).of_eq rfl rfl

/-! ## Candidates other than the one concerned -/

theorem inPending_removePending (h : t.Queued cr) (nodeID nodeID' : String) :
    (t.removePending nodeID).inPending nodeID' = (decide (nodeID' ≠ nodeID) && t.inPending nodeID') := by
  rw [Bool.eq_iff_iff, Bool.and_eq_true, decide_eq_true_eq]
  unfold inPending
  rw [Buckets.has_iff, Buckets.has_iff]
  constructor
  · rintro ⟨r, hr, rfl⟩
    obtain ⟨hr, hne⟩ := (mem_removePending h).1 hr
    exact ⟨hne, r, hr, rfl⟩
  · rintro ⟨hne, r, hr, rfl⟩
    exact ⟨r, (mem_removePending h).2 ⟨hr, hne⟩, rfl⟩

theorem inPending_appendPending {i : Fin 256} (nodeID : String) :
    (t.appendPending r i).inPending nodeID = (decide (nodeID = t.idOf r) || t.inPending nodeID) := by
  rw [Bool.eq_iff_iff, Bool.or_eq_true, decide_eq_true_eq]
  unfold inPending
  rw [Buckets.has_iff, Buckets.has_iff]
  constructor
  · rintro ⟨r', hr', rfl⟩
    rcases Buckets.mem_append.1 hr' with hr' | rfl
    · exact .inr ⟨r', hr', rfl⟩
    · exact .inl rfl
  · rintro (rfl | ⟨r', hr', rfl⟩)
    · exact ⟨r, Buckets.mem_append.2 (.inr rfl), rfl⟩
    · exact ⟨r', Buckets.mem_append.2 (.inl hr'), rfl⟩

theorem inPending_alloc (h : t.Queued cr) (e : BucketEntry) (nodeID nodeID' : String) :
    (t.alloc nodeID e).inPending nodeID' = t.inPending nodeID' := by
  rw [Bool.eq_iff_iff]
  unfold inPending
  rw [Buckets.has_iff, Buckets.has_iff]
  refine exists_congr fun r => and_congr_right fun hr => ?_
  have hr : Buckets.Mem t.pending r := hr
  rw [idOf_alloc (h.lt (h.held r hr))]

/-- `AddCandidate` changes the candidates only at the peer of the call. -/
theorem inPending_addCandidate (h : t.Queued cr) {node : NodeInfo}
    (hadd : t.addCandidate cr node = some t') (hne : nodeID ≠ node.id) :
    t'.inPending nodeID = t.inPending nodeID := by
  rcases addCandidate_cases hadd with ⟨-, rfl⟩ | ⟨-, -, -, i, -, hcase⟩
  · rfl
  rcases hcase with ⟨r, hr, -, rfl⟩ | ⟨r, hr, -, -, rfl⟩ | ⟨hnone, -, rfl⟩
  · have hid := (h.keyed _ r hr).2
    rw [inPending_appendPending, idOf_refresh hr h, hid, decide_eq_false hne, Bool.false_or]
    refine (inPending_modify (t := t.removePending node.id) (f := fun e => { e with node := node })
      hid.symm).trans ?_
    rw [inPending_removePending h, decide_eq_true hne, Bool.true_and]
  · have hid := (h.keyed _ r hr).2
    refine (inPending_appendPending (t := t.adopt r node) nodeID).trans ?_
    rw [idOf_adopt hr h, hid, decide_eq_false hne, Bool.false_or]
    exact inPending_modify (t := t) (f := fun e => { e with node := node, transient := false }) hid.symm
  · refine (inPending_appendPending (t := (t.alloc node.id { node := node }).deleteOffline node.id)
      nodeID).trans ?_
    have hid : (t.alloc node.id { node := node }).idOf t.nextRef = node.id := idOf_alloc_new
    rw [show ((t.alloc node.id { node := node }).deleteOffline node.id).idOf t.nextRef =
      node.id from hid, decide_eq_false hne, Bool.false_or]
    exact inPending_alloc h { node := node } node.id nodeID

theorem inPending_restoreCandidate (h : t.Queued cr) {peer : PeerObservation} {now : Time}
    (hrestore : t.restoreCandidate cr peer now = some t') (hne : nodeID ≠ peer.node.id) :
    t'.inPending nodeID = t.inPending nodeID := by
  rcases restoreCandidate_cases hrestore with rfl | ⟨-, t₁, hadd, hcase⟩
  · rfl
  rw [← inPending_addCandidate h hadd hne]
  rcases hcase with rfl | ⟨r, -, rfl | ⟨-, rfl⟩⟩
  · rfl
  · exact inPending_modify rfl
  · have h₁ : (t₁.modify r (remember peer)).Queued cr := (h.addCandidate hadd).modify rfl
    refine (inPending_removePending h₁ peer.node.id nodeID).trans ?_
    rw [decide_eq_true hne, Bool.true_and]
    exact inPending_modify rfl

/-- Peers with distinct IDs, none of them a candidate yet. -/
theorem Counted.restoreCandidates (h : t.Counted) (hq : t.Queued cr) {peers : List PeerObservation}
    {now : Time} (hdistinct : (peers.map fun p => p.node.id).Nodup)
    (hnew : ∀ p ∈ peers, t.inPending p.node.id = false)
    (hrestore : t.restoreCandidates cr peers now = some t') : t'.Counted := by
  have hhot : ((hotPeers peers).map fun p => p.node.id).Nodup ∧ ∀ p ∈ hotPeers peers, p ∈ peers := by
    unfold hotPeers
    split
    · have hperm := List.perm_insertionSort (fun p q : PeerObservation => q.lastSuccess ≤ p.lastSuccess)
        peers
      refine ⟨?_, fun p hp => hperm.mem_iff.1 (List.mem_of_mem_take hp)⟩
      exact ((hperm.map _).nodup_iff.2 hdistinct).sublist ((List.take_sublist _ _).map _)
    · exact ⟨hdistinct, fun p hp => hp⟩
  obtain ⟨hnodup, hsub⟩ := hhot
  have hfresh : ∀ p ∈ hotPeers peers, t.inPending p.node.id = false := fun p hp => hnew p (hsub p hp)
  unfold Table.restoreCandidates at hrestore
  generalize hotPeers peers = hot at hnodup hfresh hrestore
  clear hsub hnew hdistinct
  -- the peers still to come are no candidates: each turn adds its own peer only
  induction hot generalizing t with
  | nil =>
    cases hrestore
    exact h
  | cons peer rest ih =>
    simp only [List.foldlM_cons, Option.bind_eq_bind, Option.bind_eq_some_iff] at hrestore
    obtain ⟨t₁, hpeer, hrest⟩ := hrestore
    rw [List.map_cons, List.nodup_cons] at hnodup
    refine ih (h.restoreCandidate (hfresh peer List.mem_cons_self) hpeer) (hq.restoreCandidate hpeer)
      hnodup.2 (fun p hp => ?_) hrest
    refine (inPending_restoreCandidate hq hpeer fun hid => hnodup.1 ?_).trans
      (hfresh p (List.mem_cons_of_mem _ hp))
    exact hid ▸ List.mem_map_of_mem hp

theorem Counted.promoteCandidate (h : t.Counted) (nodeID : String) (now : Time) :
    (t.promoteCandidate cr nodeID now).Counted := by
  unfold Table.promoteCandidate
  split
  · exact h
  · have h' := h.removePending nodeID
    simp only
    split
    · exact h'.addNode _ now
    · exact h'

theorem Counted.discardCandidate (h : t.Counted) (nodeID : String) :
    (t.discardCandidate nodeID).Counted := by
  unfold Table.discardCandidate
  split
  · exact (h.removePending nodeID).removePeerIfUnindexed
  · exact h

theorem Counted.recordLivenessResult (h : t.Counted) (nodeID : String) (now : Time) (alive : Bool) :
    (t.recordLivenessResult nodeID now alive).1.Counted := by
  have htake : ∀ {t : Table} {r : Ref}, t.Counted → (t.takeOffline r nodeID now).1.Counted := by
    intro t r h
    unfold takeOffline
    split
    · exact Counted.removePeerIfUnindexed (h.of_eq rfl rfl)
    · simp only
      split
      · exact (h.removePending nodeID).of_eq rfl rfl
      · exact (h.removePending nodeID).of_eq rfl rfl
  unfold Table.recordLivenessResult
  split
  · exact h
  · simp only
    split_ifs
    · exact h.of_eq rfl rfl
    · exact h.of_eq rfl rfl
    · exact h.of_eq rfl rfl
    · exact htake (h.of_eq rfl rfl)

theorem Counted.recordUse (h : t.Counted) (nodeID : String) (now : Time) (rtt : Duration) :
    (t.recordUse cr nodeID now rtt).Counted := by
  unfold Table.recordUse
  split
  · exact h
  · simp only
    split
    · exact h.of_eq rfl rfl
    · exact h.of_eq rfl rfl

theorem Counted.setPinned (h : t.Counted) (nodeID : String) (pinned : Bool) :
    (t.setPinned nodeID pinned).1.Counted := by
  unfold Table.setPinned
  split
  · exact h
  · simp only
    split
    · exact h.of_eq rfl rfl
    · exact Counted.removePeerIfUnindexed (h.of_eq rfl rfl)

theorem Counted.setSelfNameHash (h : t.Counted) (hash : String) :
    (t.setSelfNameHash cr hash).Counted := by
  unfold Table.setSelfNameHash
  refine List.foldlRecOn (motive := fun t => Counted t) _ _ ?_ fun t ht r _ => ?_
  · exact h.of_eq rfl rfl
  · exact ht.of_eq rfl rfl

theorem Counted.noted (h : t.Counted) (hn : t.Noted t') : t'.Counted := by
  obtain ⟨r, f, rfl, -⟩ := hn
  exact h.of_eq rfl rfl

end Operations

/-! ## Runs -/

/-- No candidate is added again while it waits: not by `AddCandidate`, nor by a `RestoreCandidates`;
and no `PruneOffline` drops a candidate. -/
def AddsOnce (t : Table) : Op → Prop
  | .addCandidate node => t.inPending node.id = false
  | .restoreCandidates peers _ =>
    (peers.map fun p => p.node.id).Nodup ∧ ∀ p ∈ peers, t.inPending p.node.id = false
  | .pruneOffline now => ∀ r, Buckets.Mem t.pending r → t.prunes now (t.idOf r) = false
  | _ => True

theorem AddsOnce.pruneSpares {t : Table} {op : Op} (h : t.AddsOnce op) : t.PruneSpares op := by
  cases op with
  | pruneOffline now => exact h
  | _ => trivial

theorem Counted.step {cr : Crypto} {t t' : Table} {op : Op} (h : t.Counted) (hq : t.Queued cr)
    (hok : t.AddsOnce op) (hstep : t.step cr op = some t') : t'.Counted := by
  cases op with
  | addNode node now =>
    cases hstep
    exact h.addNode node now
  | updateKnownNode node now =>
    cases hstep
    exact h.updateKnownNode node now
  | addCandidate node => exact h.addCandidate hok hstep
  | addLookupCandidate node =>
    obtain ⟨⟨t₁, b⟩, hadd, rfl⟩ := Option.map_eq_some_iff.1 hstep
    exact h.addLookupCandidate hadd
  | restoreCandidates peers now => exact h.restoreCandidates hq hok.1 hok.2 hstep
  | promoteCandidate nodeID now =>
    cases hstep
    exact h.promoteCandidate nodeID now
  | discardCandidate nodeID =>
    cases hstep
    exact h.discardCandidate nodeID
  | noteFailureAt nodeID now =>
    cases hstep
    exact h.noted (noted_noteFailureAt nodeID now)
  | beginLivenessProbe order now =>
    cases hstep
    exact h.noted (noted_beginLivenessProbe order now)
  | recordLivenessResult nodeID now alive =>
    cases hstep
    exact h.recordLivenessResult nodeID now alive
  | recordUse nodeID now rtt =>
    cases hstep
    exact h.recordUse nodeID now rtt
  | setPinned nodeID pinned =>
    cases hstep
    exact h.setPinned nodeID pinned
  | setFriend nodeID friend =>
    cases hstep
    exact h.noted (noted_setFriend nodeID friend)
  | setSelfNameHash hash =>
    cases hstep
    exact h.setSelfNameHash hash
  | pruneOffline now =>
    cases hstep
    exact h.of_eq rfl rfl

/-- The count of the candidates and their lists agree. -/
structure PendingAccounting (t : Table) : Prop where
  count : t.pendingN = ((t.ids t.pending).length : Int)
  nonneg : 0 ≤ t.pendingN
  cap : t.pendingN ≤ maxPendingCandidates
  once : (t.ids t.pending).Nodup

theorem Counted.pendingAccounting {cr : Crypto} {t : Table} (h : t.Counted) (hq : t.Queued cr) :
    t.PendingAccounting where
  count := by
    have hlen : (t.ids t.pending).length = Buckets.size t.pending := Buckets.length_keys
    rw [h.count, hlen]
  nonneg := by
    rw [h.count]
    exact Int.natCast_nonneg _
  cap := h.cap
  once := hq.tidy.nodup_keys

/-- In every run in which no waiting candidate is added again or pruned, the count is the number of
candidates, within its bound, and no ID waits twice. -/
theorem pending_accounting {cr : Crypto} {selfID : String} {t : Table}
    (hrun : Reach (Table.step cr) AddsOnce (newRoutingTable cr selfID) t) : t.PendingAccounting := by
  have hstart : (newRoutingTable cr selfID).Counted := by
    refine ⟨?_, ?_⟩
    · rw [newRoutingTable, Buckets.size_empty]
      rfl
    · show (0 : Int) ≤ maxPendingCandidates
      decide
  have hpreserved : ∀ s a t, Counted s ∧ Queued cr s → AddsOnce s a → Table.step cr s a = some t →
      Counted t ∧ Queued cr t := fun _ _ _ h hok hstep =>
    ⟨h.1.step h.2 hok hstep, h.2.step hok.pruneSpares hstep⟩
  have h : t.Counted ∧ t.Queued cr :=
    Reach.invariant hpreserved hrun ⟨hstart, (coherent_new cr selfID).toQueued⟩
  exact h.1.pendingAccounting h.2

theorem addsOnce_of_calm (t : Table) (op : Op) (h : t.calm op = true) : t.AddsOnce op := by
  cases op with
  | addCandidate node =>
    simp only [calm, Bool.and_eq_true, Bool.not_eq_true'] at h
    exact h.1
  | restoreCandidates peers now => cases h
  | pruneOffline now => cases h
  | _ => trivial

/-- Two peers have waited and one of them is promoted: the other one is counted. -/
theorem pendingAccounting_one_promoted :
    ∃ t : Table, t.pendingN = 1 ∧ t.inPending thirdPeer.id = true ∧ t.PendingAccounting := by
  obtain ⟨t, hrun, hend⟩ := Option.map_eq_some_iff.1 calm_run
  obtain ⟨hcount, hrest⟩ := Prod.mk.inj hend
  exact ⟨t, hcount, (Prod.mk.inj hrest).1, pending_accounting (Reach.of_testedM addsOnce_of_calm _ hrun)⟩

/-- One candidate, added three times. -/
def refreshRun : List Op :=
  [.addCandidate samplePeer, .addCandidate samplePeer, .addCandidate samplePeer]

set_option maxRecDepth 4000 in
theorem refreshRun_end :
    (refreshRun.foldlM (Table.step tableCrypto) (newRoutingTable tableCrypto sampleSelf)).map
      (fun t => t.pendingN) = some (-1) := by
  decide

/-- Each refresh lowers the count, which ends below zero. -/
theorem refresh_lowers_count :
    ∃ t, refreshRun.foldlM (Table.step tableCrypto) (newRoutingTable tableCrypto sampleSelf) = some t ∧
      ¬ t.PendingAccounting := by
  obtain ⟨t, hrun, hend⟩ := Option.map_eq_some_iff.1 refreshRun_end
  refine ⟨t, hrun, fun h => ?_⟩
  have hnonneg := h.nonneg
  rw [hend] at hnonneg
  exact absurd hnonneg (by decide)

end Vx6.Dht.Table
